import RRPG.Server.Steps

/-!
# One packet

Every way `PacketHandler` can take on a packet, and the inversion lemma that runs are
analysed with.
-/

open RRPG.Base RRPG.Base.Handler

namespace RRPG

variable (S : Setup) (c : Chance) (p : Packet)

/-- Readiness as `OnPlayerReady` and `OnPlayerUnready` store it. -/
def Player.withReady (ready : Bool) (player : Player) : Player := { player with ready := ready }

/-- What `OnPlayerReady` requires before it starts a game. -/
def Server.CanStart (s : Server) : Prop :=
  s.players.all Player.ready = true ∧ s.totalConnections.toUInt32 = S.expectedPlayers

instance (s : Server) : Decidable (s.CanStart S) := inferInstanceAs (Decidable (_ ∧ _))

/-- Once a player is ready, the readiness of all is that of the others. -/
theorem all_ready_iff (s : Server) (id : UInt32) :
    (s.withPlayer id (·.withReady true)).players.all Player.ready = true ↔
      ∀ j player, s.players.find? j = some player → j ≠ id → player.ready = true := by
  rw [OrdMap.all_eq_true]
  simp only [Server.withPlayer_players, OrdMap.find?_adjust]
  constructor
  · intro h j player hp hj
    exact h j player (by rwa [if_neg hj])
  · intro h j player hp
    split at hp
    · obtain ⟨q, _, rfl⟩ := Option.map_eq_some_iff.mp hp
      rfl
    · next hj => exact h j player hp hj

/-- What `PacketHandler` can do on a packet. -/
inductive Handled (s : Server) : Except Halt Unit → Server → List Effect → Prop
  | malformed (h : p.identifier = none) : Handled s (.error (.abort .timestamp)) s []
  | counted (i : DefaultMessageId) (h : p.lowLevel = some i) :
    Handled s (.ok ()) { s with totalConnections := i.count s.totalConnections } []
  | quiet (hlow : p.lowLevel = none) (hk : p.kind ∉ [some .cIntro, some .cReady,
      some .cUnready, some .cChat, some .cJobChosen, some .cActionTaken]) :
    Handled s (.ok ()) s []
  | chats (hk : p.kind = some .cChat) (hsender : S.id p ∈ s.players) : Handled s (.ok ()) s []
  | stranger (k : RRPGId) (hk : p.kind = some k)
      (hneeds : k ∈ [.cReady, .cUnready, .cChat, .cJobChosen, .cActionTaken])
      (hsender : S.id p ∉ s.players) :
    Handled s (.error (.abort (.getPlayer (S.id p)))) s []
  | joins (hk : p.kind = some .cIntro) :
    Handled s (.ok ()) (s.joined S p)
      (if S.expectedPlayers < s.totalConnections.toUInt32 then
        [⟨.closeConnection p.systemAddress, s⟩] else [])
  | readies (hk : p.kind = some .cReady) (hsender : S.id p ∈ s.players)
      (hwait : ¬ (s.withPlayer (S.id p) (·.withReady true)).CanStart S) :
    Handled s (.ok ()) (s.withPlayer (S.id p) (·.withReady true)) []
  | starts (hk : p.kind = some .cReady) (hsender : S.id p ∈ s.players)
      (hall : (s.withPlayer (S.id p) (·.withReady true)).CanStart S)
      (r : Except Halt Unit) (s' : Server) (es : List Effect)
      (hstart : StartGameDoes (s.withPlayer (S.id p) (·.withReady true)) r s' es) :
    Handled s r s' es
  | unreadies (hk : p.kind = some .cUnready) (hsender : S.id p ∈ s.players) :
    Handled s (.ok ()) (s.withPlayer (S.id p) (·.withReady false)) []
  | chooses (hk : p.kind = some .cJobChosen) (hsender : S.id p ∈ s.players)
      (r : Except Halt Unit) (s' : Server) (es : List Effect)
      (hchosen : ChosenDoes (s.withPlayer (S.id p) (·.chosen p)) r s' es) :
    Handled s r s' es
  | misses (hk : p.kind = some .cActionTaken) (hsender : S.id p ∈ s.players)
      (htarget : target? S c p s = none) : Handled s (.error (.abort .target)) s []
  | acts (hk : p.kind = some .cActionTaken) (hsender : S.id p ∈ s.players)
      (id : UInt32) (player : Player) (htarget : target? S c p s = some id)
      (hp : s.players.find? id = some player)
      (r : Except Halt Unit) (s' : Server) (es : List Effect)
      (hturn : NextTurnDoes (s.acted S c p id) r s' es) :
    Handled s r s' (actionReport S c p s id player ++
      ⟨.enter .nextTurn, s.acted S c p id⟩ :: es)

/-! ### Lobby handlers -/

/-- `OnClientIntro` behind its check of the number of connections. -/
def registerClient : ServerM Unit := do
  update fun s ↦
    { s with playerAddresses := s.playerAddresses.emplace (S.id p) p.systemAddress }
  let name : Name := (S.decodeString 256 p.payload).1
  update fun s ↦ { s with players := s.players.emplace (S.id p) { name := name } }
  emit (.memcpy 256 name.bytes.length 13)
  broadcastMessage (name.bytes ++ ascii " has joined.")
  let s ← getServer
  if s.totalConnections.toUInt32 ≠ S.expectedPlayers then
    broadcastMessage (snprintf 40
      (ascii "Waiting for " ++ formatInt (int32 (s.missing S).toNat) ++ ascii " more player"
        ++ (if s.missing S = 1 then ascii "." else ascii "s.") ++ ascii ".."))

/-- Rejected or not, a client is registered. -/
theorem onClientIntro_eq : onClientIntro S p = getServer >>= fun s ↦
    if S.expectedPlayers < s.totalConnections.toUInt32 then do
      emit (.closeConnection p.systemAddress)
      update fun s ↦ { s with totalConnections := s.totalConnections - 1 }
      registerClient S p
    else registerClient S p := rfl

theorem registerClient_does (s : Server) :
    Does (registerClient S p) s (.ok ()) { s with
      playerAddresses := s.playerAddresses.emplace (S.id p) p.systemAddress
      players := s.players.emplace (S.id p) { name := (S.decodeString 256 p.payload).1 } } [] := by
  apply (does_update _ s).bind
  apply (does_update _ _).bind
  apply (does_emit _ _).bind
  apply (does_broadcastMessage _ _).bind
  apply (does_getServer _).bind
  split
  · exact does_broadcastMessage _ _
  · exact Does.pure () _

theorem onClientIntro_does (s : Server) :
    Does (onClientIntro S p) s (.ok ()) (s.joined S p)
      (if S.expectedPlayers < s.totalConnections.toUInt32 then
        [⟨.closeConnection p.systemAddress, s⟩] else []) := by
  rw [onClientIntro_eq, Server.joined]
  by_cases hfull : S.expectedPlayers < s.totalConnections.toUInt32
  · rw [if_pos hfull, if_pos hfull]
    apply (does_getServer s).bind
    apply Does.ite_pos hfull
    exact (does_emit _ s).bind <| (does_update _ s).bind <| registerClient_does S p _
  · rw [if_neg hfull, if_neg hfull]
    exact (does_getServer s).bind <| .ite_neg hfull <| registerClient_does S p s

theorem onPlayerReady_waits (s : Server) (hsender : S.id p ∈ s.players)
    (h : ¬ (s.withPlayer (S.id p) (·.withReady true)).CanStart S) :
    Does (onPlayerReady S p) s (.ok ()) (s.withPlayer (S.id p) (·.withReady true)) [] := by
  obtain ⟨player, hp⟩ := (s.players.mem_iff_find? _).mp hsender
  apply (does_getPlayer _ player s hp).bind
  apply (does_updatePlayer _ _ s).bind
  apply (does_broadcastMessage _ _).bind
  apply (does_getServer (s.withPlayer (S.id p) (·.withReady true))).bind
  by_cases hall : (s.withPlayer (S.id p) (·.withReady true)).players.all Player.ready = true
  · apply Does.ite_pos hall
    apply Does.ite_neg (fun htotal ↦ h ⟨hall, htotal⟩)
    exact Does.pure () _
  · exact .ite_neg hall <| Does.pure () _

theorem onPlayerReady_starts (s : Server) (hsender : S.id p ∈ s.players)
    (h : (s.withPlayer (S.id p) (·.withReady true)).CanStart S) (r : Except Halt Unit)
    (s' : Server) (es : List Effect)
    (hstart : Does startGame (s.withPlayer (S.id p) (·.withReady true)) r s' es) :
    Does (onPlayerReady S p) s r s' es := by
  obtain ⟨player, hp⟩ := (s.players.mem_iff_find? _).mp hsender
  exact (does_getPlayer _ player s hp).bind <| (does_updatePlayer _ _ s).bind <|
    (does_broadcastMessage _ _).bind <|
    (does_getServer (s.withPlayer (S.id p) (·.withReady true))).bind <|
    .ite_pos h.1 <| .ite_pos h.2 hstart

theorem onPlayerUnready_does (s : Server) (hsender : S.id p ∈ s.players) :
    Does (onPlayerUnready S p) s (.ok ()) (s.withPlayer (S.id p) (·.withReady false)) [] := by
  obtain ⟨player, hp⟩ := (s.players.mem_iff_find? _).mp hsender
  exact (does_getPlayer _ player s hp).bind <| (does_updatePlayer _ _ s).bind <|
    does_broadcastMessage _ (s.withPlayer (S.id p) (·.withReady false))

theorem onClientChatReceived_does (s : Server) (hsender : S.id p ∈ s.players) :
    Does (onClientChatReceived S p) s (.ok ()) s [] := by
  obtain ⟨player, hp⟩ := (s.players.mem_iff_find? _).mp hsender
  exact (does_getPlayer _ player s hp).bind <| (does_emit _ s).bind <| (does_emit _ s).bind <|
    (does_emit _ s).bind <| does_send _ _ s

theorem exec_onPlayerListRequest (w : World) :
    exec (onPlayerListRequest p) w = (.ok (), ⟨w.server, w.trace ++
      [⟨.send (.system p.systemAddress) (.replyPlayerListRequest
        (w.server.players.entries.map fun e ↦ (e.2.name, e.2.ready))), w.server⟩]⟩) := by
  simp [onPlayerListRequest, send]

theorem exec_onPlayerStatsRequest (w : World) :
    exec (onPlayerStatsRequest p) w = (.ok (), ⟨w.server, w.trace ++
      [⟨.send (.system p.systemAddress) (.replyPlayerStatsRequest
        (w.server.players.entries.map fun e ↦ (e.2.name, e.2.job, e.2.health))), w.server⟩]⟩) := by
  simp [onPlayerStatsRequest, send]

/-! ### Dispatch -/

theorem dispatch_handled (s : Server) (b : UInt8) (hb : p.identifier = some b)
    (hlow : p.lowLevel = none) :
    ∃ r s' es, Handled S c p s r s' es ∧ Does (dispatch S c p b) s r s' es := by
  have hkind : p.kind = RRPGId.ofByte? b := by rw [Packet.kind, hb, Option.bind_some]
  unfold dispatch
  rw [← hkind]
  cases hk : p.kind with
  | none => exact ⟨_, _, _, .quiet hlow (by simp [hk]), Does.pure () s⟩
  | some k =>
    have habort (hsender : S.id p ∉ s.players) := does_getPlayer_none (S.id p) s hsender
    cases k with
    | cIntro => exact ⟨_, _, _, .joins hk, onClientIntro_does S p s⟩
    | cPlayerListRequest | cPlayerStatsRequest =>
      exact ⟨_, _, _, .quiet hlow (by simp [hk]), (does_getServer s).bind (does_send _ _ s)⟩
    | cReady =>
      by_cases hsender : S.id p ∈ s.players
      · by_cases hcan : (s.withPlayer (S.id p) (·.withReady true)).CanStart S
        · obtain ⟨r, s', es, hstart, hdoes⟩ := startGame_does
            (s.withPlayer (S.id p) (·.withReady true))
          exact ⟨r, s', es, .starts hk hsender hcan r s' es hstart,
            onPlayerReady_starts S p s hsender hcan r s' es hdoes⟩
        · exact ⟨_, _, _, .readies hk hsender hcan, onPlayerReady_waits S p s hsender hcan⟩
      · exact ⟨_, _, _, .stranger _ hk (by simp) hsender, (habort hsender).bind_error⟩
    | cUnready =>
      by_cases hsender : S.id p ∈ s.players
      · exact ⟨_, _, _, .unreadies hk hsender, onPlayerUnready_does S p s hsender⟩
      · exact ⟨_, _, _, .stranger _ hk (by simp) hsender, (habort hsender).bind_error⟩
    | cChat =>
      by_cases hsender : S.id p ∈ s.players
      · exact ⟨_, _, _, .chats hk hsender, onClientChatReceived_does S p s hsender⟩
      · exact ⟨_, _, _, .stranger _ hk (by simp) hsender, (habort hsender).bind_error⟩
    | cJobChosen =>
      by_cases hsender : S.id p ∈ s.players
      · obtain ⟨player, hp⟩ := (s.players.mem_iff_find? _).mp hsender
        obtain ⟨r, s', es, hchosen, hdoes⟩ := onPlayerJobChosen_does S p s player hp
        exact ⟨r, s', es, .chooses hk hsender r s' es hchosen, hdoes⟩
      · exact ⟨_, _, _, .stranger _ hk (by simp) hsender, (habort hsender).bind_error⟩
    | cActionTaken =>
      by_cases hsender : S.id p ∈ s.players
      · cases htarget : target? S c p s with
        | none =>
          exact ⟨_, _, _, .misses hk hsender htarget,
            onPlayerActionTaken_misses S c p s hsender htarget⟩
        | some id =>
          obtain ⟨target, ht, _⟩ := target?_eq_some S c p s id htarget
          obtain ⟨r, s', es, hturn, hdoes⟩ :=
            onPlayerActionTaken_does S c p s hsender id target htarget ht
          exact ⟨r, s', _, .acts hk hsender id target htarget ht r s' es hturn, hdoes⟩
      · exact ⟨_, _, _, .stranger _ hk (by simp) hsender,
          (does_getServer s).bind (habort hsender).bind_error⟩
    | _ => exact ⟨_, _, _, .quiet hlow (by simp [hk]), Does.pure () s⟩

/-- What the library has no say in goes to the switch. -/
theorem exec_packetHandler (w : World) (b : UInt8) (hb : p.identifier = some b)
    (hlow : p.lowLevel = none) : exec (packetHandler S c p) w = exec (dispatch S c p b) w := by
  rw [Packet.lowLevel, hb, Option.bind_some] at hlow
  unfold packetHandler
  rw [exec_bind, exec_getPacketIdentifier p w b hb, andThen_ok, exec_bind]
  unfold isLowLevelPacketHandled
  rw [hlow]
  rfl

/-- A packet of the application is handled under its identifier. -/
theorem exec_packetHandler_kind (w : World) (k : RRPGId) (hk : p.kind = some k) :
    exec (packetHandler S c p) w = exec (dispatch S c p k.byte) w := by
  obtain ⟨b, hb, hkind⟩ := Option.bind_eq_some_iff.mp hk
  rw [(RRPGId.ofByte?_eq_some b k).mp hkind]
  exact exec_packetHandler S c p w b hb (p.lowLevel_of_kind k hk)

theorem packetHandler_handled (s : Server) :
    ∃ r s' es, Handled S c p s r s' es ∧ Does (packetHandler S c p) s r s' es := by
  cases hb : p.identifier with
  | none =>
    exact ⟨_, _, _, .malformed hb, (getPacketIdentifier_aborts p s hb).bind_error⟩
  | some b =>
    have hid := getPacketIdentifier_does p s b hb
    cases hi : DefaultMessageId.ofByte? b with
    | some i =>
      have hlow : p.lowLevel = some i := by rw [Packet.lowLevel, hb, Option.bind_some, hi]
      exact ⟨_, _, _, .counted i hlow, hid.bind <|
        (isLowLevelPacketHandled_does s b i hi).bind <| Does.pure () _⟩
    | none =>
      have hlow : p.lowLevel = none := by rw [Packet.lowLevel, hb, Option.bind_some, hi]
      obtain ⟨r, s', es, hhandled, hdoes⟩ := dispatch_handled S c p s b hb hlow
      exact ⟨r, s', es, hhandled, hid.bind <|
        (isLowLevelPacketHandled_passes s b hi).bind hdoes⟩

/-- Inversion: where the handler ends, it went one of the ways of `Handled`. -/
theorem handled_of_exec (w w' : World) (r : Except Halt Unit)
    (h : exec (packetHandler S c p) w = (r, w')) :
    ∃ es, w'.trace = w.trace ++ es ∧ Handled S c p w.server r w'.server (core es) := by
  obtain ⟨r', s', es', hhandled, hdoes⟩ := packetHandler_handled S c p w.server
  obtain ⟨rfl, rfl, es, htrace, rfl⟩ := hdoes.of_exec h
  exact ⟨es, htrace, hhandled⟩

/-- Inversion, where what the packet adds to the trace is known. -/
theorem handled_of_step (w : World) (r : Except Halt Unit) (s' : Server) (es : List Effect)
    (h : exec (packetHandler S c p) w = (r, ⟨s', w.trace ++ es⟩)) :
    Handled S c p w.server r s' (core es) := by
  obtain ⟨es', htrace, hhandled⟩ := handled_of_exec S c p w _ r h
  rwa [List.append_cancel_left htrace]

/-! ### Inversion by kind -/

section
variable {S : Setup} {c : Chance} {p : Packet} {s s' : Server} {r : Except Halt Unit}
  {es : List Effect}

/-- A packet the application has an identifier for is well formed and not the library's. -/
theorem Handled.not_low_level {k : RRPGId} (hk : p.kind = some k) :
    p.identifier ≠ none ∧ p.lowLevel = none := by
  refine ⟨fun hid ↦ ?_, p.lowLevel_of_kind k hk⟩
  simp [Packet.kind, hid] at hk

theorem Handled.of_low_level (h : Handled S c p s r s' es) (i : DefaultMessageId)
    (hi : p.lowLevel = some i) : r = .ok () ∧
    s' = { s with totalConnections := i.count s.totalConnections } ∧ es = [] := by
  have hkind (k : RRPGId) (hk : p.kind = some k) : False := by
    simp [p.lowLevel_of_kind k hk] at hi
  cases h with
  | counted j hj =>
    obtain rfl := Option.some.inj (hi.symm.trans hj)
    exact ⟨rfl, rfl, rfl⟩
  | malformed hid => simp [Packet.lowLevel, hid] at hi
  | quiet hlow hk => simp [hlow] at hi
  | _ hk => exact (hkind _ (by assumption)).elim

theorem Handled.of_intro (h : Handled S c p s r s' es) (hk : p.kind = some .cIntro) :
    r = .ok () ∧ s' = s.joined S p ∧ es = if S.expectedPlayers < s.totalConnections.toUInt32 then
      [⟨.closeConnection p.systemAddress, s⟩] else [] := by
  have hlow := Handled.not_low_level hk
  cases h with
  | joins _ => exact ⟨rfl, rfl, rfl⟩
  | _ => simp_all

/-- A packet that is no introduction, readiness or answer changes at most the number of
connections. -/
theorem Handled.of_other (h : Handled S c p s r s' es) (hk : p.kind ∉ [some .cIntro,
      some .cReady, some .cUnready, some .cJobChosen, some .cActionTaken]) :
    s' = { s with totalConnections := s'.totalConnections } ∧ es = [] ∧
      r ≠ .error .hang := by
  cases h with
  | malformed | counted | quiet | chats | stranger => exact ⟨rfl, rfl, by simp⟩
  | _ => simp_all

theorem Handled.of_job_chosen (h : Handled S c p s r s' es) (hk : p.kind = some .cJobChosen)
    (hsender : S.id p ∈ s.players) :
    ChosenDoes (s.withPlayer (S.id p) (·.chosen p)) r s' es := by
  have hlow := Handled.not_low_level hk
  cases h with
  | chooses _ _ r s' es hchosen => exact hchosen
  | stranger k hk' _ hnone => exact absurd hsender hnone
  | _ => simp_all

theorem Handled.of_action_taken (h : Handled S c p s r s' es)
    (hk : p.kind = some .cActionTaken) (hsender : S.id p ∈ s.players) :
    (target? S c p s = none ∧ r = .error (.abort .target) ∧ s' = s ∧ es = []) ∨
    ∃ id player es', target? S c p s = some id ∧ s.players.find? id = some player ∧
      NextTurnDoes (s.acted S c p id) r s' es' ∧
      es = actionReport S c p s id player ++ ⟨.enter .nextTurn, s.acted S c p id⟩ :: es' := by
  have hlow := Handled.not_low_level hk
  cases h with
  | misses _ _ htarget => exact .inl ⟨htarget, rfl, rfl, rfl⟩
  | acts _ _ id player htarget hp r s' es hturn =>
    exact .inr ⟨id, player, es, htarget, hp, hturn, rfl⟩
  | stranger k hk' _ hnone => exact absurd hsender hnone
  | _ => simp_all

/-- No packet but an introduction touches the addresses. -/
theorem Handled.keeps_addresses (h : Handled S c p s r s' es) (hk : p.kind ≠ some .cIntro) :
    s'.playerAddresses = s.playerAddresses := by
  have hturn {s s' : Server} {r : Except Halt Unit} {es : List Effect}
      (h : NextTurnDoes s r s' es) : s'.playerAddresses = s.playerAddresses := by
    cases h <;> rfl
  cases h with
  | joins hintro => exact absurd hintro hk
  | starts _ _ _ r s' es hstart => cases hstart <;> rfl
  | chooses _ _ r s' es hchosen =>
    cases hchosen with
    | starts _ _ r s' es h => exact Eq.trans (hturn h) rfl
    | _ => rfl
  | acts _ _ id player htarget hp r s' es h => rw [hturn h, Server.acted_playerAddresses]
  | _ => rfl

theorem Handled.of_ready (h : Handled S c p s r s' es) (hk : p.kind = some .cReady)
    (hsender : S.id p ∈ s.players) :
    let s₁ := s.withPlayer (S.id p) (·.withReady true)
    if s₁.CanStart S then StartGameDoes s₁ r s' es else r = .ok () ∧ s' = s₁ ∧ es = [] := by
  have hlow := Handled.not_low_level hk
  intro s₁
  cases h with
  | readies _ _ hwait => rw [if_neg hwait]; exact ⟨rfl, rfl, rfl⟩
  | starts _ _ hall r s' es hstart => rwa [if_pos hall]
  | stranger k hk' _ hnone => exact absurd hsender hnone
  | _ => simp_all

theorem Handled.of_unready (h : Handled S c p s r s' es) (hk : p.kind = some .cUnready)
    (hsender : S.id p ∈ s.players) :
    r = .ok () ∧ s' = s.withPlayer (S.id p) (·.withReady false) ∧ es = [] := by
  have hlow := Handled.not_low_level hk
  cases h with
  | unreadies _ _ => exact ⟨rfl, rfl, rfl⟩
  | stranger k hk' _ hnone => exact absurd hsender hnone
  | _ => simp_all

end

/-- The invariant rule for the server: what every way through the handler preserves holds
where a run ends, returned or not. -/
theorem serve_invariant (I : World → Prop)
    (hstep : ∀ (e : Event) v v' r es, I v → v'.trace = v.trace ++ es →
      Handled S e.chance e.packet v.server r v'.server (core es) → I v')
    (events : List Event) (w : World) (h0 : I w) : I (exec (serve S events) w).2 := by
  apply run_invariant _ I events w h0
  intro e _ v hv
  obtain ⟨es, htrace, hhandled⟩ := handled_of_exec S e.chance e.packet v _ _ rfl
  exact hstep e v _ _ es hv htrace hhandled

/-- What a run does for the game proper is determined by where it starts. -/
theorem serve_does (events : List Event) (s : Server) :
    ∃ r s' es, Does (serve S events) s r s' es := by
  induction events generalizing s with
  | nil => exact ⟨_, _, _, Does.pure () s⟩
  | cons e rest ih =>
    obtain ⟨r, s', es, _, hdoes⟩ := packetHandler_handled S e.chance e.packet s
    have hcons : serve S (e :: rest) =
        packetHandler S e.chance e.packet >>= fun _ ↦ serve S rest := by
      simp [serve, run]
    rw [hcons]
    cases r with
    | error h => exact ⟨_, _, _, hdoes.bind_error⟩
    | ok u =>
      obtain ⟨r, s'', es', hrest⟩ := ih s'
      exact ⟨_, _, _, hdoes.bind hrest⟩

/-- A run only adds to the trace. -/
theorem serve_trace (events : List Event) (w : World) :
    ∃ es, (exec (serve S events) w).2.trace = w.trace ++ es := by
  refine serve_invariant S (fun v ↦ ∃ es, v.trace = w.trace ++ es) ?_ events w
    ⟨[], (List.append_nil _).symm⟩
  rintro e v v' r es ⟨es', hv⟩ htrace _
  exact ⟨es' ++ es, by rw [htrace, hv, List.append_assoc]⟩

/-- A longer run has a longer trace. -/
theorem outcome_trace (xs ys : List Event) :
    ∃ es, (outcome S (xs ++ ys)).2.trace = (outcome S xs).2.trace ++ es := by
  unfold outcome serve
  rw [exec_run_append]
  rcases exec (run (fun e : Event ↦ packetHandler S e.chance e.packet) xs)
    (⟨Server.init, []⟩ : World) with ⟨e | u, w⟩
  · exact ⟨[], (List.append_nil _).symm⟩
  · exact serve_trace S ys w

/-- What was entered in a run was entered in every longer one. -/
theorem entries_outcome_append (xs ys : List Event) (e : Routine × Server)
    (h : e ∈ entries (outcome S xs).2.trace) : e ∈ entries (outcome S (xs ++ ys)).2.trace := by
  obtain ⟨es, hes⟩ := outcome_trace S xs ys
  rw [hes, entries_append]
  exact List.mem_append_left _ h

/-- One more packet. -/
theorem outcome_concat (xs : List Event) (e : Event) (w : World)
    (h : outcome S xs = (.ok (), w)) :
    outcome S (xs ++ [e]) = exec (packetHandler S e.chance e.packet) w := by
  unfold outcome serve at *
  rw [exec_run_concat, h, andThen_ok]

/-- What one more packet does. -/
theorem handled_of_outcome (xs : List Event) (e : Event) (w : World)
    (h : outcome S xs = (.ok (), w)) :
    ∃ r w' es, outcome S (xs ++ [e]) = (r, w') ∧ w'.trace = w.trace ++ es ∧
      Handled S e.chance e.packet w.server r w'.server (core es) := by
  rcases hexec : exec (packetHandler S e.chance e.packet) w with ⟨r, w'⟩
  obtain ⟨es, htrace, hhandled⟩ := handled_of_exec S e.chance e.packet w w' r hexec
  exact ⟨r, w', es, by rw [outcome_concat S xs e w h, hexec], htrace, hhandled⟩

/-- A run that stopped handles no more packets. -/
theorem outcome_concat_error (xs : List Event) (e : Event) (halt : Halt) (w : World)
    (h : outcome S xs = (.error halt, w)) : outcome S (xs ++ [e]) = (.error halt, w) := by
  unfold outcome serve at *
  rw [exec_run_concat, h, andThen_error]

end RRPG
