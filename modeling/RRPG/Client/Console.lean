import RRPG.Client.Primitives

/-!
# Lines typed at the client

What the client sends, as it means it, and every way `InputHandler` can take on a line. A line
makes the client send at most one packet, or stops it: on turn outside the two states of the
game in which an answer is asked for, `HandleGameInput` sends a stream it has written nothing on.
-/

open RRPG.Base RRPG.Base.Handler

namespace RRPG

/-- A packet of a client, with the fields it writes. -/
inductive ClientPacket where
  | intro (name : Bytes) (ready : Bool)
  | ready
  | unready
  | playerListRequest
  | playerStatsRequest
  | chat (message : Bytes)
  | jobChosen (cc : CharacterClass)
  | actionTaken (action : Action) (name : Bytes)
  deriving DecidableEq

namespace ClientPacket

/-- The identifier in front. -/
@[simp] def kind : ClientPacket → RRPGId
  | .intro _ _ => .cIntro
  | .ready => .cReady
  | .unready => .cUnready
  | .playerListRequest => .cPlayerListRequest
  | .playerStatsRequest => .cPlayerStatsRequest
  | .chat _ => .cChat
  | .jobChosen _ => .cJobChosen
  | .actionTaken _ _ => .cActionTaken

/-- Whether a packet answers a turn. -/
@[simp] def isAnswer : ClientPacket → Bool
  | .jobChosen _ | .actionTaken _ _ => true
  | _ => false

section
variable {R : RakNet} (C : StringCompressor R)

/-- The fields behind the identifier. -/
def fields : ClientPacket → BitStream
  | .intro name isReady => GameClient.writeString C name ++ BitStream.writeBool isReady
  | .chat message => GameClient.writeString C message
  | .jobChosen cc => BitStream.ofByte cc.byte
  | .actionTaken action name => BitStream.ofByte action.byte ++ GameClient.writeString C name
  | .ready | .unready | .playerListRequest | .playerStatsRequest => []

/-- The stream a packet is sent as. -/
def bits (p : ClientPacket) : BitStream := BitStream.ofByte p.kind.byte ++ p.fields C

theorem bits_ne (p : ClientPacket) : p.bits C ≠ [] := BitStream.ofByte_append_ne _ _

theorem performs_send_bits (p : ClientPacket) (s : GameClient) :
    GameClient.Performs (GameClient.send (p.bits C)) s () s [.send (p.bits C)] :=
  GameClient.performs_send s _ (p.bits_ne C)

end

end ClientPacket

namespace GameClient

variable {R : RakNet} (C : StringCompressor R) (s : GameClient)

/-- The answer a line gives in the state of the game the client knows. -/
inductive Answers (input : Bytes) : ClientPacket → Prop
  | job (hstate : s.gameState = GameState.gsCharacterSelect.byte) (cc : CharacterClass)
      (hcc : CharacterClass.ofInput? input = some cc) : Answers input (.jobChosen cc)
  | action (hstate : s.gameState = GameState.gsMain.byte) (command word : Bytes)
      (rest : List Bytes) (hwords : words isspace input = command :: word :: rest)
      (action : Action) (haction : Action.ofInput? command = some action) (name : Bytes)
      (htarget : s.target? word = some name) : Answers input (.actionTaken action name)

/-- On turn in a game, with no answer asked for. -/
structure Idle : Prop where
  started : s.networkState = .nsGameStarted
  turn : s.myTurn = true
  select : s.gameState ≠ GameState.gsCharacterSelect.byte
  main : s.gameState ≠ GameState.gsMain.byte

/-- Where a line that is no command goes out as a chat. -/
def Chatty : Prop :=
  s.networkState = .nsLobby ∨ (s.networkState = .nsGameStarted ∧ s.myTurn = true)

/-- Every way `InputHandler` can take on a line: the state it leaves, and what is sent. -/
inductive Typed (line : Bytes) : GameClient → Option ClientPacket → Prop
  | quiet : Typed line s none
  | readies (hstate : s.networkState = .nsLobby) (hline : line.map tolower = ascii ".ready") :
    Typed line { s with player := { s.player with ready := true } } (some .ready)
  | unreadies (hstate : s.networkState = .nsLobby)
      (hline : line.map tolower = ascii ".notready") :
    Typed line { s with player := { s.player with ready := false } } (some .unready)
  | asksPlayers (hstate : s.networkState = .nsLobby)
      (hline : line.map tolower = ascii ".players") : Typed line s (some .playerListRequest)
  | asksStats (hstate : s.networkState = .nsGameStarted)
      (hline : line.map tolower = ascii ".stats") : Typed line s (some .playerStatsRequest)
  | answers (hstate : s.networkState = .nsGameStarted) (hturn : s.myTurn = true)
      (answer : ClientPacket) (hanswer : s.Answers (line.map tolower) answer) :
    Typed line { s with myTurn := false } (some answer)
  | chats (hchatty : s.Chatty) (hline : line ≠ [])
      (hdot : (line.map tolower).head? ≠ some 46) : Typed line s (some (.chat line))

/-- The stream holds an answer, or nothing. -/
theorem gameInput?_eq_some (input : Bytes) (bs : BitStream) (h : s.gameInput? C input = some bs) :
    (∃ answer, s.Answers input answer ∧ bs = answer.bits C) ∨
      (s.gameState ≠ GameState.gsCharacterSelect.byte ∧
        s.gameState ≠ GameState.gsMain.byte ∧ bs = []) := by
  unfold gameInput? at h
  split at h
  · next hstate =>
    obtain ⟨cc, hcc, rfl⟩ := Option.map_eq_some_iff.mp h
    exact .inl ⟨_, .job hstate cc hcc, rfl⟩
  · next hselect =>
    split at h
    · next hstate =>
      split at h
      · next command word rest hwords =>
        obtain ⟨action, haction, h⟩ := Option.bind_eq_some_iff.mp h
        obtain ⟨name, htarget, rfl⟩ := Option.map_eq_some_iff.mp h
        exact .inl ⟨_, .action hstate command word rest hwords action haction name htarget, rfl⟩
      · cases h
    · next hmain => exact .inr ⟨hselect, hmain, (Option.some.inj h).symm⟩

/-- The program does what the line can do. -/
def Does {α : Type} (x : ClientM α) (a : α) (line : Bytes) : Prop :=
  ∃ s' acts sent, Performs x s a s' acts ∧ s.Typed line s' sent ∧
    posted acts = (sent.map (·.bits C)).toList

/-- The program stops at the empty stream. -/
def Stops {α : Type} (x : ClientM α) : Prop :=
  s.Idle ∧ Fails x s .emptySend { s with myTurn := false } []

variable {C s} in
theorem Does.bind {α β : Type} {x : ClientM α} {f : α → ClientM β} {a : α} {b : β} {line : Bytes}
    (h : s.Does C x a line) (hf : ∀ s', Performs (f a) s' b s' []) :
    s.Does C (x >>= f) b line := by
  obtain ⟨s', acts, sent, hx, htyped, hposted⟩ := h
  refine ⟨s', acts, sent, ?_, htyped, hposted⟩
  have := hx.bind (hf s')
  rwa [List.append_nil] at this

variable {s} in
theorem Stops.bind {α β : Type} {x : ClientM α} {f : α → ClientM β} (h : s.Stops x) :
    s.Stops (x >>= f) :=
  ⟨h.1, h.2.bind⟩

theorem performs_ready :
    Performs ready s () { s with player := { s.player with ready := true } }
      [.send (ClientPacket.ready.bits C)] :=
  (performs_update s _).after (ClientPacket.ready.performs_send_bits C _)

theorem performs_unready :
    Performs unready s () { s with player := { s.player with ready := false } }
      [.send (ClientPacket.unready.bits C)] :=
  (performs_update s _).after (ClientPacket.unready.performs_send_bits C _)

theorem performs_requestPlayersFromServer :
    Performs requestPlayersFromServer s () s [.send (ClientPacket.playerListRequest.bits C)] :=
  ClientPacket.playerListRequest.performs_send_bits C s

theorem performs_requestPlayerStatsFromServer :
    Performs requestPlayerStatsFromServer s () s
      [.send (ClientPacket.playerStatsRequest.bits C)] :=
  ClientPacket.playerStatsRequest.performs_send_bits C s

/-- What `PrintLocalPlayerStats` prints. -/
def localStats : List Bytes :=
  ascii "Local player stats:\n" ::
    s.players.map fun player ↦ statsText player.name player.job player.health

theorem performs_printLocalPlayerStats :
    Performs printLocalPlayerStats s () s (s.localStats.map .print) := by
  rw [localStats, List.map_cons, List.map_map]
  exact (performs_print s _).bind ((performs_getClient s).after (performs_prints s _ s.players))

theorem handleLobbyInput_does (line : Bytes) (hstate : s.networkState = .nsLobby) :
    Performs (handleLobbyInput (line.map tolower)) s false s [] ∨
      s.Does C (handleLobbyInput (line.map tolower)) true line := by
  unfold handleLobbyInput
  split
  · next hline =>
    exact .inr ⟨_, _, _, (s.performs_ready C).bind (.pure true _), .readies hstate hline, rfl⟩
  · split
    · next hline =>
      exact .inr ⟨_, _, _, (s.performs_unready C).bind (.pure true _), .unreadies hstate hline, rfl⟩
    · split
      · next hline =>
        exact .inr ⟨_, _, _, (s.performs_requestPlayersFromServer C).bind (.pure true _),
          .asksPlayers hstate hline, rfl⟩
      · exact .inl (.pure false s)

theorem handleGameInput_does (line : Bytes) (hstate : s.networkState = .nsGameStarted)
    (hturn : s.myTurn = true) :
    Performs (handleGameInput C (line.map tolower)) s false s [] ∨
      s.Does C (handleGameInput C (line.map tolower)) true line ∨
      s.Stops (handleGameInput C (line.map tolower)) := by
  unfold handleGameInput
  cases hinput : s.gameInput? C (line.map tolower) with
  | none =>
    left
    apply (performs_getClient s).after
    simp only [hinput]
    exact .pure false s
  | some bs =>
    rcases s.gameInput?_eq_some C _ bs hinput with ⟨answer, hanswer, rfl⟩ | ⟨hselect, hmain, rfl⟩
    · refine .inr (.inl ⟨_, _, some answer, ?_, .answers hstate hturn answer hanswer,
        posted_send _⟩)
      apply (performs_getClient s).after
      simp only [hinput]
      exact (performs_update s _).after ((answer.performs_send_bits C _).bind (.pure true _))
    · refine .inr (.inr ⟨⟨hstate, hturn, hselect, hmain⟩, ?_⟩)
      apply (performs_getClient s).then_fails
      simp only [hinput]
      exact (performs_update s _).then_fails (fails_send _).bind

/-- The line is left for a chat, or dealt with, or stops the client. -/
def Settles (x : ClientM Bool) (line : Bytes) : Prop :=
  (Performs x s true s [] ∧ s.Chatty) ∨ s.Does C x false line ∨ s.Stops x

variable {C s} in
theorem Settles.get {body : GameClient → ClientM Bool} {line : Bytes}
    (h : s.Settles C (body s) line) : s.Settles C (getClient >>= body) line :=
  h.imp (fun h ↦ ⟨(performs_getClient s).after h.1, h.2⟩) <| .imp
    (fun ⟨s', acts, sent, hx, hrest⟩ ↦ ⟨s', acts, sent, (performs_getClient s).after hx, hrest⟩)
    fun h ↦ ⟨h.1, (performs_getClient s).then_fails h.2⟩

variable {C s} in
/-- A command that takes a line leaves no chat. -/
theorem Settles.negated {x : ClientM Bool} {line : Bytes} (hchatty : s.Chatty)
    (h : Performs x s false s [] ∨ s.Does C x true line ∨ s.Stops x) :
    s.Settles C (x >>= fun b ↦ pure !b) line :=
  h.imp (fun h ↦ ⟨h.after (.pure true s), hchatty⟩)
    (.imp (fun h ↦ h.bind fun s' ↦ .pure false s') fun h ↦ h.bind)

theorem sendAsChatMessage_settles (line : Bytes) :
    s.Settles C (sendAsChatMessage C (line.map tolower)) line := by
  unfold sendAsChatMessage
  apply Settles.get
  split
  · next hstate =>
    exact .negated (.inl hstate) ((s.handleLobbyInput_does C line hstate).imp_right .inl)
  · split
    · next hstate =>
      split
      · next hline =>
        exact .inr (.inl ⟨_, _, _, (s.performs_requestPlayerStatsFromServer C).bind
          (.pure false _), .asksStats hstate hline, rfl⟩)
      · split
        · have h := s.performs_printLocalPlayerStats.bind (f := fun _ ↦ pure false) (.pure false s)
          exact .inr (.inl ⟨_, _, none, h, .quiet, by simp⟩)
        · split
          · next hturn =>
            exact .negated (.inr ⟨hstate, hturn⟩) (s.handleGameInput_does C line hstate hturn)
          · exact .inr (.inl ⟨_, _, none, .pure false s, .quiet, rfl⟩)
    · exact .inr (.inl ⟨_, _, none, .pure false s, .quiet, rfl⟩)

/-- A line typed makes the client do one of these things, or stop. -/
theorem inputHandler_does (line : Bytes) :
    s.Does C (inputHandler C line) () line ∨ s.Stops (inputHandler C line) := by
  unfold inputHandler
  by_cases hwhoami : line.map tolower = ascii ".whoami"
  · simp only [if_pos hwhoami]
    exact .inl ⟨_, _, none, (performs_getClient s).after (performs_print s _), .quiet, rfl⟩
  simp only [if_neg hwhoami]
  rcases s.sendAsChatMessage_settles C line with ⟨h, hchatty⟩ | h | h
  · left
    by_cases hline : line = []
    · refine ⟨s, [], none, h.after ?_, .quiet, rfl⟩
      rw [if_neg (by simp [hline])]
      exact .pure () s
    by_cases hdot : (line.map tolower).head? = some 46
    · refine ⟨s, (ascii "Whoops! Try again!\n" :: s.instructions).map .print, none,
        h.after ?_, .quiet, posted_print _⟩
      rw [if_pos ⟨rfl, hline⟩, if_pos hdot]
      exact (performs_print s _).bind s.performs_printInstructions
    · refine ⟨s, _, _, h.after ?_, .chats hchatty hline hdot, posted_send _⟩
      rw [if_pos ⟨rfl, hline⟩, if_neg hdot]
      exact (ClientPacket.chat line).performs_send_bits C s
  · left
    apply h.bind
    intro s'
    rw [if_neg (by simp)]
    exact .pure () s'
  · exact .inr h.bind

/-- On turn in a game, a line that gives an answer is answered. -/
theorem performs_answer (line : Bytes) (hstate : s.networkState = .nsGameStarted)
    (hturn : s.myTurn = true)
    (hline : line.map tolower ∉ [ascii ".whoami", ascii ".stats", ascii ".localstats"])
    (answer : ClientPacket)
    (hinput : s.gameInput? C (line.map tolower) = some (answer.bits C)) :
    Performs (inputHandler C line) s () { s with myTurn := false }
      [.send (answer.bits C)] := by
  simp only [List.mem_cons, List.not_mem_nil, or_false, not_or] at hline
  have hgame : Performs (handleGameInput C (line.map tolower)) s true { s with myTurn := false }
      [.send (answer.bits C)] := by
    apply (performs_getClient s).after
    simp only [hinput]
    exact (performs_update s _).after ((answer.performs_send_bits C _).bind (.pure true _))
  have hsend : Performs (sendAsChatMessage C (line.map tolower)) s false
      { s with myTurn := false } [.send (answer.bits C)] := by
    apply (performs_getClient s).after
    rw [if_neg (by simp [hstate]), if_pos hstate, if_neg hline.2.1, if_neg hline.2.2, if_pos hturn]
    exact hgame.bind (.pure false _)
  unfold inputHandler
  simp only [if_neg hline.1]
  apply hsend.bind
  rw [if_neg (by simp)]
  exact .pure () _

end GameClient

end RRPG
