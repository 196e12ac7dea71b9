import RRPG.Client.Messages

/-!
# The client's discipline

A client takes lines from its console and packets from the library, one after the other, in any
order. Whatever the packets hold, it answers no more turns than it was handed, introduces itself
before it sends anything else, and chats only what was typed.
-/

open RRPG.Base RRPG.Base.Handler

namespace RRPG

/-- What the two threads of a client take in. -/
inductive ClientEvent where
  | line (userInput : Bytes)
  | packet (locals : Locals) (p : Packet)

namespace GameClient

variable {R : RakNet} (C : StringCompressor R)

/-- One pass of `InputHandler`, or one packet of `PacketHandler`. -/
def handle : ClientEvent → ClientM Unit
  | .line userInput => inputHandler C userInput
  | .packet locals p => packetHandler C locals p

/-- What a packet of any kind can do to a client. -/
inductive Met (s : GameClient) (p : Packet) : GameClient → Option ClientPacket → Prop
  | passes (s' : GameClient) (hnet : s'.networkState = s.networkState)
      (hturn : s'.myTurn = s.myTurn) : Met s p s' none
  | accepted (h : p.identifier = some ClientMessageId.idConnectionRequestAccepted.byte) :
    Met s p { s with networkState := .nsLobby } (some (.intro s.player.name s.player.ready))
  | starts (hk : p.kind = some .sGameStarted) : Met s p (s.heard .gameStarted) none
  | turns (hk : p.kind = some .sTakeTurn) : Met s p (s.heard .takeTurn) none

/-- A program that prints, and leaves alone how the client stands with the server. -/
def Quiet (x : ClientM Unit) (s : GameClient) : Prop :=
  ∃ (s' : GameClient) (texts : List Bytes), Performs x s () s' (texts.map .print) ∧
    s'.networkState = s.networkState ∧ s'.myTurn = s.myTurn

/-- The same of a program that stops. -/
def Quits (x : ClientM Unit) (s : GameClient) : Prop :=
  ∃ (fault : ClientFault) (s' : GameClient) (texts : List Bytes),
    Fails x s fault s' (texts.map .print) ∧ s'.networkState = s.networkState ∧
    s'.myTurn = s.myTurn

theorem Quiet.bind {α : Type} {x : ClientM α} {f : α → ClientM Unit} {s s' : GameClient} {a : α}
    (texts : List Bytes) (hx : Performs x s a s' (texts.map .print))
    (hnet : s'.networkState = s.networkState) (hturn : s'.myTurn = s.myTurn)
    (hf : Quiet (f a) s') : Quiet (x >>= f) s := by
  obtain ⟨s'', more, h, hnet', hturn'⟩ := hf
  refine ⟨s'', texts ++ more, ?_, hnet'.trans hnet, hturn'.trans hturn⟩
  rw [List.map_append]
  exact hx.bind h

theorem Quiet.after {α : Type} {x : ClientM α} {f : α → ClientM Unit} {s s' : GameClient} {a : α}
    (hx : Performs x s a s' []) (hnet : s'.networkState = s.networkState)
    (hturn : s'.myTurn = s.myTurn) (hf : Quiet (f a) s') : Quiet (x >>= f) s :=
  .bind [] hx hnet hturn hf

theorem Quits.after {α : Type} {x : ClientM α} {f : α → ClientM Unit} {s s' : GameClient} {a : α}
    (hx : Performs x s a s' []) (hnet : s'.networkState = s.networkState)
    (hturn : s'.myTurn = s.myTurn) (hf : Quits (f a) s') : Quits (x >>= f) s := by
  obtain ⟨fault, s'', texts, h, hnet', hturn'⟩ := hf
  exact ⟨fault, s'', texts, hx.then_fails h, hnet'.trans hnet, hturn'.trans hturn⟩

theorem Quits.bind {x : ClientM Unit} {f : Unit → ClientM Unit} {s : GameClient}
    (hx : Quits x s) : Quits (x >>= f) s := by
  obtain ⟨fault, s', texts, h, hsame⟩ := hx
  exact ⟨fault, s', texts, h.bind, hsame⟩

theorem quits_throw (s : GameClient) (fault : ClientFault) : Quits (throw fault) s :=
  ⟨fault, s, [], .throw fault s, rfl, rfl⟩

theorem quiet_pure (s : GameClient) : Quiet (pure ()) s := ⟨s, [], .pure () s, rfl, rfl⟩

theorem quiet_print (s : GameClient) (text : Bytes) : Quiet (print text) s :=
  ⟨s, [text], performs_print s text, rfl, rfl⟩

/-! ### Any packet -/

section
variable (locals : Locals) (p : Packet) (s : GameClient)

/-- The state of the game after the packet, if it is a new one. -/
def readGameState : UInt8 := (readInto byteField s.gameState p.payload).1

/-- The number of players in a table. -/
def readNumPlayers : Int := (readInto intField locals.numPlayers (p.payload.drop 8)).1

/-- A table with a negative number of players: `reserve` throws. -/
def Overdrawn : Prop :=
  p.kind = some .sUpdateGameState ∧ s.readGameState p = GameState.gsMain.byte ∧
    readNumPlayers locals p < 0

/-- A list of so many players that the loop over it never ends. -/
def Unending : Prop :=
  p.kind ∈ [some .sReplyPlayerListRequest, some .sReplyPlayerStatsRequest] ∧
    Endless (readInto intField locals.numPlayers p.payload).1

/-- A loop that prints so many lines is left, or it never ends. -/
theorem printed_cases {ι : Type} (text : ι → Bytes) (xs : List ι) (numPlayers : Int) :
    (Quiet (do xs.forM fun i ↦ print (text i); if Endless numPlayers then throw .hang) s ∧
      ¬ Endless numPlayers) ∨
    (Quits (do xs.forM fun i ↦ print (text i); if Endless numPlayers then throw .hang) s ∧
      Endless numPlayers) := by
  have hprints : Performs (xs.forM fun i ↦ print (text i)) s () s ((xs.map text).map .print) := by
    rw [List.map_map]
    exact performs_prints s text xs
  by_cases hendless : Endless numPlayers
  · refine .inr ⟨⟨.hang, s, xs.map text, ?_, rfl, rfl⟩, hendless⟩
    have h := hprints.fails (f := fun _ ↦ (throw .hang : ClientM Unit)) (.throw .hang s)
    rw [List.append_nil] at h
    simpa only [if_pos hendless] using h
  · exact .inl ⟨⟨s, xs.map text, s.performs_ends hprints hendless, rfl, rfl⟩, hendless⟩

theorem onMainGameStart_quits (h : readNumPlayers locals p < 0) :
    Quits (onMainGameStart R locals p) s := by
  unfold onMainGameStart
  unfold readNumPlayers at h
  split
  next numPlayers bs hread =>
    rw [hread] at h
    simp only [if_pos h]
    exact (quits_throw s .reserve).bind

theorem onMainGameStart_performs (h : ¬ readNumPlayers locals p < 0) :
    ∃ records : List PlayerRecord,
      Performs (onMainGameStart R locals p) s () (records.foldl enter s) [] := by
  unfold onMainGameStart
  unfold readNumPlayers at h
  split
  next numPlayers bs hread =>
    rw [hread] at h
    simp only [if_neg h]
    exact ⟨_, performs_update s _⟩

/-- What comes after a table, if anything. -/
theorem quiet_onGameOver :
    Quiet (getClient >>= fun s ↦ if s.gameState = GameState.gsGameOver.byte then onGameOver
      else pure ()) s := by
  apply Quiet.after (performs_getClient s) rfl rfl
  split
  · exact .after (performs_update s _) rfl rfl (quiet_print _ _)
  · exact quiet_pure s

/-- `OnGameStateUpdate` on any packet. -/
theorem onGameStateUpdate_cases :
    (Quiet (onGameStateUpdate R locals p) s ∧
      ¬ (s.readGameState p = GameState.gsMain.byte ∧ readNumPlayers locals p < 0)) ∨
    (Quits (onGameStateUpdate R locals p) s ∧
      s.readGameState p = GameState.gsMain.byte ∧ readNumPlayers locals p < 0) := by
  have hupdate := performs_update s fun s ↦ { s with gameState := s.readGameState p }
  have hget := performs_getClient { s with gameState := s.readGameState p }
  unfold onGameStateUpdate
  by_cases hmain : s.readGameState p = GameState.gsMain.byte
  · by_cases hneg : readNumPlayers locals p < 0
    · refine .inr ⟨.after hupdate rfl rfl (.after hget rfl rfl ?_), hmain, hneg⟩
      rw [if_pos hmain]
      exact (onMainGameStart_quits locals p _ hneg).bind
    · refine .inl ⟨.after hupdate rfl rfl (.after hget rfl rfl ?_), fun h ↦ hneg h.2⟩
      obtain ⟨records, h⟩ := onMainGameStart_performs (R := R) locals p
        { s with gameState := s.readGameState p } hneg
      obtain ⟨job, heq⟩ := foldl_enter { s with gameState := s.readGameState p } records
      rw [if_pos hmain]
      exact .after h (by rw [heq]) (by rw [heq]) (quiet_onGameOver _)
  · refine .inl ⟨.after hupdate rfl rfl (.after hget rfl rfl ?_), fun h ↦ hmain h.1⟩
    rw [if_neg hmain]
    exact quiet_onGameOver _

theorem onPlayersHealthUpdated_quiet : Quiet (onPlayersHealthUpdated R locals p) s := by
  unfold onPlayersHealthUpdated
  split
  next name bs hname =>
    split
    next newHp rest hint =>
      apply Quiet.after (performs_getClient s) rfl rfl
      apply Quiet.bind (((s.players.filter fun player ↦ player.name = name.bytes)).map
        (healthText newHp)) (by rw [List.map_map]; exact performs_prints s _ _) rfl rfl
      apply Quiet.after (performs_update s _) rfl rfl
      split
      · exact quiet_print _ _
      · exact quiet_pure _

/-- A packet that stops a client: a table overdrawn, or a list without end. -/
def Fatal : Prop := s.Overdrawn locals p ∨ Unending locals p

variable {s locals p} in
theorem Fatal.kind (h : s.Fatal locals p) : ∃ k, p.kind = some k := by
  rcases h with ⟨hk, _⟩ | ⟨hk, _⟩
  · exact ⟨_, hk⟩
  · cases List.mem_pair.mp hk with
    | inl hk => exact ⟨_, hk⟩
    | inr hk => exact ⟨_, hk⟩

theorem fatal_iff (k : RRPGId) (hk : p.kind = some k) : s.Fatal locals p ↔
    (k = .sUpdateGameState ∧ s.readGameState p = GameState.gsMain.byte ∧
      readNumPlayers locals p < 0) ∨
    (k ∈ [.sReplyPlayerListRequest, .sReplyPlayerStatsRequest] ∧
      Endless (readInto intField locals.numPlayers p.payload).1) := by
  simp [Fatal, Overdrawn, Unending, hk]

variable {s} in
/-- A packet a client is quiet about passes. -/
theorem Quiet.meets {x : ClientM Unit} {fatal : Prop} (h : Quiet x s) (hharmless : ¬ fatal) :
    ∃ s' acts, Performs x s () s' acts ∧ s.Met p s' none ∧ posted acts = [] ∧ ¬ fatal := by
  obtain ⟨s', texts, h, hnet, hturn⟩ := h
  exact ⟨s', _, h, .passes s' hnet hturn, posted_print texts, hharmless⟩

/-- The switch on any packet of the application. -/
theorem dispatch_cases (k : RRPGId) (hk : p.kind = some k) :
    (∃ s' acts, Performs (dispatch R locals p k.byte) s () s' acts ∧ s.Met p s' none ∧
      posted acts = [] ∧ ¬ s.Fatal locals p) ∨
    (Quits (dispatch R locals p k.byte) s ∧ s.Fatal locals p) := by
  rw [fatal_iff locals p s k hk]
  cases k with
  | sReplyPlayerListRequest =>
    rcases printed_cases s _ _ (readInto intField locals.numPlayers p.payload).1 with
      ⟨h, hends⟩ | ⟨h, hendless⟩
    · exact .inl (h.meets p (by simp [hends]))
    · exact .inr ⟨h, by simp [hendless]⟩
  | sReplyPlayerStatsRequest =>
    rcases printed_cases s _ _ (readInto intField locals.numPlayers p.payload).1 with
      ⟨h, hends⟩ | ⟨h, hendless⟩
    · exact .inl (h.meets p (by simp [hends]))
    · exact .inr ⟨h, by simp [hendless]⟩
  | sGameStarted =>
    exact .inl ⟨_, _, (performs_update s _).after (performs_print _ _), .starts hk, rfl, by simp⟩
  | sTakeTurn =>
    exact .inl ⟨_, _, (performs_update s _).after (performs_printInstructions _), .turns hk,
      posted_print _, by simp⟩
  | sUpdateGameState =>
    rcases onGameStateUpdate_cases (R := R) locals p s with ⟨h, hno⟩ | ⟨h, hdrawn⟩
    · exact .inl (h.meets p (by simpa using hno))
    · exact .inr ⟨h, .inl ⟨rfl, hdrawn⟩⟩
  | sUpdatePlayerHp => exact .inl ((onPlayersHealthUpdated_quiet locals p s).meets p (by simp))
  | _ => exact .inl ((quiet_print s _).meets p (by simp))

/-- Every packet with an identifier is met in one of these ways, or stops the client. -/
theorem packetHandler_cases (b : UInt8) (hb : p.identifier = some b) :
    (∃ s' acts sent, Performs (packetHandler C locals p) s () s' acts ∧ s.Met p s' sent ∧
      posted acts = (sent.map (·.bits C)).toList ∧ ¬ s.Fatal locals p) ∨
    (Quits (packetHandler C locals p) s ∧ s.Fatal locals p) := by
  have hkind : p.kind = RRPGId.ofByte? b := by rw [Packet.kind, hb, Option.bind_some]
  have hget := performs_getPacketIdentifier p s b hb
  -- a fatal packet is one of the application
  have hharmless (hno : ∀ k, RRPGId.ofByte? b ≠ some k) : ¬ s.Fatal locals p := by
    intro hfatal
    obtain ⟨k, hk⟩ := hfatal.kind
    exact hno k (hkind.symm.trans hk)
  cases hi : ClientMessageId.ofByte? b with
  | some i =>
    have hbyte : i.byte = b := by simpa using List.find?_some hi
    have hno (k : RRPGId) : RRPGId.ofByte? b ≠ some k := by
      rw [ne_eq, RRPGId.ofByte?_eq_some]
      rintro rfl
      rw [byte_no_notice] at hi
      cases hi
    by_cases haccepted : i = .idConnectionRequestAccepted
    · subst haccepted
      refine .inl ⟨_, _, _, hget.after ((performs_accepted C s b hi).bind (.pure () _)),
        .accepted (hbyte ▸ hb), ?_, hharmless hno⟩
      simp
    · exact .inl ⟨s, _, none, hget.after ((performs_notice C s i b hi haccepted).bind
        (.pure () s)), .passes s rfl rfl, rfl, hharmless hno⟩
  | none =>
    have hpass : Performs (isLowLevelPacketHandled C b) s false s [] := by
      unfold isLowLevelPacketHandled
      simp only [hi]
      exact .pure false s
    cases hk : RRPGId.ofByte? b with
    | none =>
      have hprint : dispatch R locals p b = print (stringBefore 0 p.data ++ ascii "\n") := by
        unfold dispatch
        rw [hk]
      refine .inl ⟨s, [.print (stringBefore 0 p.data ++ ascii "\n")], none,
        hget.after (hpass.after ?_), .passes s rfl rfl, rfl, hharmless (by simp [hk])⟩
      rw [hprint]
      exact performs_print s _
    | some k =>
      obtain rfl := (RRPGId.ofByte?_eq_some b k).mp hk
      rcases dispatch_cases (R := R) locals p s k (hkind.trans hk) with ⟨s', acts, h⟩ | ⟨h, hfatal⟩
      · exact .inl ⟨s', acts, none, hget.after (hpass.after h.1), h.2⟩
      · exact .inr ⟨.after hget rfl rfl (.after hpass rfl rfl h), hfatal⟩

/-- A timestamped packet too short for its identifier. -/
theorem packetHandler_quits (h : p.identifier = none) : Quits (packetHandler C locals p) s := by
  have hget : Fails (getPacketIdentifier p) s .timestamp s [] := by
    unfold getPacketIdentifier
    unfold Packet.identifier at h
    split at h
    · next ht =>
      rw [if_pos ht, h]
      exact .throw .timestamp s
    · cases h
  exact ⟨.timestamp, s, [], hget.bind, rfl, rfl⟩

/-- Exactly a packet without identifier, a table with a negative number of players and a list
of as many players as an `int` can count stop a client. -/
theorem packetHandler_returns_iff (before : List ClientAct) :
    (exec (packetHandler C locals p) ⟨s, before⟩).1 = .ok () ↔
      p.identifier ≠ none ∧ ¬ s.Overdrawn locals p ∧ ¬ Unending locals p := by
  cases hb : p.identifier with
  | none =>
    obtain ⟨fault, s', texts, h, _⟩ := packetHandler_quits C locals p s hb
    rw [h before]
    simp
  | some b =>
    rw [← not_or]
    rcases packetHandler_cases C locals p s b hb with
      ⟨s', acts, _, h, _, _, hharmless⟩ | ⟨⟨fault, s', texts, h, _⟩, hfatal⟩
    · rw [h before]
      exact iff_of_true rfl ⟨by simp, hharmless⟩
    · rw [h before]
      exact iff_of_false (by simp) fun hno ↦ hno.2 hfatal

end

/-! ### Runs -/

/-- What one event can do, the client stopped or not: the state it leaves, and what is sent. -/
inductive Steps (s : GameClient) : ClientEvent → GameClient → Option ClientPacket → Prop
  | line (userInput : Bytes) (s' : GameClient) (sent : Option ClientPacket)
      (h : s.Typed userInput s' sent) : Steps s (.line userInput) s' sent
  /-- The client stops at a stream it has written nothing on. -/
  | idle (userInput : Bytes) (h : s.Idle) :
    Steps s (.line userInput) { s with myTurn := false } none
  | packet (locals : Locals) (p : Packet) (s' : GameClient) (sent : Option ClientPacket)
      (h : s.Met p s' sent) : Steps s (.packet locals p) s' sent

theorem handle_steps (e : ClientEvent) (s : GameClient) (before : List ClientAct) :
    ∃ r s' acts sent, exec (handle C e) ⟨s, before⟩ = (r, ⟨s', before ++ acts⟩) ∧
      s.Steps e s' sent ∧ posted acts = (sent.map (·.bits C)).toList := by
  cases e with
  | line userInput =>
    rcases s.inputHandler_does C userInput with ⟨s', acts, sent, h, htyped, hposted⟩ | ⟨hidle, h⟩
    · exact ⟨_, s', acts, sent, h before, .line _ _ _ htyped, hposted⟩
    · exact ⟨_, _, [], none, h before, .idle _ hidle, rfl⟩
  | packet locals p =>
    have hquits (h : Quits (packetHandler C locals p) s) : ∃ r s' acts sent,
        exec (handle C (.packet locals p)) ⟨s, before⟩ = (r, ⟨s', before ++ acts⟩) ∧
          s.Steps (.packet locals p) s' sent ∧ posted acts = (sent.map (·.bits C)).toList := by
      obtain ⟨fault, s', texts, h, hnet, hturn⟩ := h
      exact ⟨_, s', _, none, h before, .packet _ _ _ _ (.passes s' hnet hturn), posted_print texts⟩
    cases hb : p.identifier with
    | none => exact hquits (packetHandler_quits C locals p s hb)
    | some b =>
      rcases packetHandler_cases C locals p s b hb with hmet | ⟨h, _⟩
      · obtain ⟨s', acts, sent, h, hmet, hposted, _⟩ := hmet
        exact ⟨_, s', acts, sent, h before, .packet _ _ _ _ hmet, hposted⟩
      · exact hquits h

end GameClient

namespace ClientEvent

/-- A turn is handed to the client. -/
def isTurn : ClientEvent → Bool
  | .line _ => false
  | .packet _ p => p.kind = some .sTakeTurn

/-- A game starts. -/
def isStart : ClientEvent → Bool
  | .line _ => false
  | .packet _ p => p.kind = some .sGameStarted

/-- The connection is accepted. -/
def isAccepted : ClientEvent → Bool
  | .line _ => false
  | .packet _ p => p.identifier = some ClientMessageId.idConnectionRequestAccepted.byte

/-- What is typed. -/
@[simp] def line? : ClientEvent → Option Bytes
  | .line userInput => some userInput
  | .packet _ _ => none

end ClientEvent

/-- What a chat says. -/
@[simp] def ClientPacket.message? : ClientPacket → Option Bytes
  | .chat message => some message
  | _ => none

/-- What a client that went from `s` to `s'` by some events may have sent: at most an answer
for each turn and an introduction for each connection, only lines typed as chats, and nothing
meant for the lobby or for a game outside of it. -/
structure Session (s : GameClient) (events : List ClientEvent) (s' : GameClient)
    (packets : List ClientPacket) : Prop where
  answers : packets.countP ClientPacket.isAnswer + s'.myTurn.toNat ≤
    events.countP ClientEvent.isTurn + s.myTurn.toNat
  intros : packets.countP (fun p ↦ p.kind = .cIntro) ≤ events.countP ClientEvent.isAccepted
  chats : (packets.filterMap ClientPacket.message?).Sublist (events.filterMap ClientEvent.line?)
  lobby : s.networkState ≠ .nsLobby → (∀ e ∈ events, e.isAccepted = false) →
    s'.networkState ≠ .nsLobby ∧
      ∀ p ∈ packets, p.kind ∉ [.cReady, .cUnready, .cPlayerListRequest]
  game : s.networkState ≠ .nsGameStarted → (∀ e ∈ events, e.isStart = false) →
    s'.networkState ≠ .nsGameStarted ∧
      ∀ p ∈ packets, p.kind ∉ [.cJobChosen, .cActionTaken, .cPlayerStatsRequest]

theorem Session.init (s : GameClient) : Session s [] s [] :=
  ⟨le_rfl, le_rfl, .refl _, fun h _ ↦ ⟨h, by simp⟩, fun h _ ↦ ⟨h, by simp⟩⟩

/-- One event after another. -/
theorem Session.trans {s s' s'' : GameClient} {events more : List ClientEvent}
    {packets sent : List ClientPacket} (h : Session s events s' packets)
    (h' : Session s' more s'' sent) : Session s (events ++ more) s'' (packets ++ sent) := by
  constructor
  · have := h.answers
    have := h'.answers
    simp only [List.countP_append]
    omega
  · have := h.intros
    have := h'.intros
    simp only [List.countP_append]
    omega
  · rw [List.filterMap_append, List.filterMap_append]
    exact h.chats.append h'.chats
  · intro hs hevents
    obtain ⟨hs', hpackets⟩ := h.lobby hs fun e he ↦ hevents e (List.mem_append_left _ he)
    obtain ⟨hs'', hsent⟩ := h'.lobby hs' fun e he ↦ hevents e (List.mem_append_right _ he)
    exact ⟨hs'', List.forall_mem_append.mpr ⟨hpackets, hsent⟩⟩
  · intro hs hevents
    obtain ⟨hs', hpackets⟩ := h.game hs fun e he ↦ hevents e (List.mem_append_left _ he)
    obtain ⟨hs'', hsent⟩ := h'.game hs' fun e he ↦ hevents e (List.mem_append_right _ he)
    exact ⟨hs'', List.forall_mem_append.mpr ⟨hpackets, hsent⟩⟩

/-- One event. -/
theorem Session.of_steps {s s' : GameClient} {e : ClientEvent} {sent : Option ClientPacket}
    (h : s.Steps e s' sent) : Session s [e] s' sent.toList := by
  cases h with
  | line userInput s' sent h =>
    cases h with
    | answers hstate hturn answer hanswer =>
      cases hanswer <;> constructor <;> simp [hturn, hstate]
    | _ => constructor <;> simp_all [GameClient.Chatty]
  | idle userInput hidle => constructor <;> simp [hidle.turn, hidle.started]
  | packet locals p s' sent h =>
    have hline : [ClientEvent.packet locals p].filterMap ClientEvent.line? = [] := rfl
    cases h with
    | passes s' hnet hturn => constructor <;> simp +contextual [hnet, hturn, hline]
    | accepted h => constructor <;> simp [hline, ClientEvent.isAccepted, h]
    | starts hk => constructor <;> simp [GameClient.heard, hline, ClientEvent.isStart, hk]
    | turns hk =>
      constructor <;> simp +contextual [GameClient.heard, hline, ClientEvent.isTurn, hk]

/-- Whatever lines are typed and whatever packets come in, in any order, a client keeps this
discipline. -/
theorem client_discipline {R : RakNet} (C : StringCompressor R) (s : GameClient)
    (events : List ClientEvent) :
    let w := (exec (run (GameClient.handle C) events) ⟨s, []⟩).2
    ∃ packets : List ClientPacket, posted w.acts = packets.map (·.bits C) ∧
      Session s events w.client packets := by
  refine run_history _ (fun (events : List ClientEvent) (w : ClientWorld) ↦
    ∃ packets : List ClientPacket, posted w.acts = packets.map (·.bits C) ∧
      Session s events w.client packets) _ ⟨[], rfl, .init s⟩ ?_ ?_ events
  · rintro events e ⟨s', before⟩ ⟨packets, hposted, hsession⟩
    obtain ⟨r, s'', acts, sent, hexec, hsteps, hsent⟩ := GameClient.handle_steps C e s' before
    rw [hexec]
    refine ⟨packets ++ sent.toList, ?_, hsession.trans (.of_steps hsteps)⟩
    rw [posted_append, hposted, hsent, List.map_append, Option.toList_map]
  · rintro events e ⟨s', before⟩ ⟨packets, hposted, hsession⟩
    -- an event that is not handled could have done nothing
    have hskip : s'.Steps e s' none := by
      cases e with
      | line userInput => exact .line _ _ _ .quiet
      | packet locals p => exact .packet _ _ _ _ (.passes s' rfl rfl)
    refine ⟨packets, hposted, ?_⟩
    have h := hsession.trans (.of_steps hskip)
    rwa [Option.toList_none, List.append_nil] at h

end RRPG
