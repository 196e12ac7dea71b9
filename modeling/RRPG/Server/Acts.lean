import RRPG.Server.Packets

/-!
# What handlers are built from

Every handler but `OnClientChatReceived` and the two replies is composed of reading the
server, updating it, and standard acts: those of the game proper, the announcements of
`BroadcastMessage`, none longer than its buffer allows, and the suffix `OnClientIntro` writes
behind a name. What these steps have in common, all those handlers have.
-/

open RRPG.Base RRPG.Base.Handler

namespace RRPG

/-- The acts of all handlers except the relayed chats and the tables somebody asked for. -/
inductive Act.Standard : Act → Prop
  | core {act : Act} (h : act.isCore = true) : Standard act
  | suffix (name : Name) : Standard (.memcpy 256 name.bytes.length 13)
  | prefixed : Standard (.memcpy (2048 + (ascii "[Server] ").length) 0 (ascii "[Server] ").length)
  | copied (input : Bytes) (h : input.length ≤ 2047) :
    Standard (.memcpy (2048 + (ascii "[Server] ").length) (ascii "[Server] ").length
      (input.length + 1))
  | said (input : Bytes) (h : input.length ≤ 2047) :
    Standard (.send .all (.text (ascii "[Server] " ++ input)))

/-- A step of a handler that performs a standard act, or none. -/
inductive StandardStep : (α : Type) → ServerM α → Prop
  | getServer : StandardStep Server getServer
  | update (f : Server → Server) : StandardStep Unit (update f)
  | emit (act : Act) (h : act.Standard) : StandardStep Unit (emit act)

/-- The computation is built from such steps. -/
abbrev Standard {α : Type} (x : ServerM α) : Prop := Built StandardStep α x

/-! ### What follows -/

/-- What is done does not depend on what was done before. -/
def Blind {α : Type} (x : ServerM α) : Prop :=
  ∀ s trace, exec x ⟨s, trace⟩ =
    ((exec x ⟨s, []⟩).1, ⟨(exec x ⟨s, []⟩).2.server, trace ++ (exec x ⟨s, []⟩).2.trace⟩)

/-- No step reads the history. -/
theorem Standard.blind {α : Type} {x : ServerM α} (h : Standard x) : Blind x := by
  induction h with
  | pure a =>
    intro s trace
    simp
  | throw e =>
    intro s trace
    simp
  | primitive hstep =>
    intro s trace
    cases hstep with
    | getServer => simp
    | update f => simp
    | emit act h => simp
  | @bind α β x f hx hf ihx ihf =>
    intro s trace
    rw [exec_bind, exec_bind, ihx s trace]
    rcases exec x ⟨s, []⟩ with ⟨e | a, ⟨s', es⟩⟩
    · rfl
    · rw [andThen_ok, andThen_ok, ihf a s' (trace ++ es), ihf a s' es, List.append_assoc]

/-- From one world to the other only standard acts are added. -/
def AddsStandard (w w' : World) : Prop :=
  ∃ es, w'.trace = w.trace ++ es ∧ ∀ e ∈ es, e.act.Standard

instance reflAddsStandard : Std.Refl AddsStandard := ⟨fun w ↦ ⟨[], by simp, by simp⟩⟩

instance transAddsStandard : IsTrans World AddsStandard where
  trans := by
    rintro u v w ⟨es, hes, hp⟩ ⟨fs, hfs, hq⟩
    refine ⟨es ++ fs, by rw [hfs, hes, List.append_assoc], ?_⟩
    intro e he
    exact (List.mem_append.mp he).elim (hp e) (hq e)

theorem Standard.adds {α : Type} {x : ServerM α} (h : Standard x) : Within AddsStandard x := by
  refine Built.within h ?_
  intro β y hstep w
  cases hstep with
  | getServer => exact ⟨[], by simp, by simp⟩
  | update f => exact ⟨[], by simp, by simp⟩
  | emit act hact => exact ⟨[⟨act, w.server⟩], by simp, by simpa using hact⟩

/-! ### Handlers -/

theorem standard_getServer : Standard getServer := .primitive .getServer

theorem standard_update (f : Server → Server) : Standard (update f) := .primitive (.update f)

theorem standard_updatePlayer (id : UInt32) (f : Player → Player) :
    Standard (updatePlayer id f) :=
  standard_update _

theorem standard_emit (act : Act) (h : act.Standard) : Standard (emit act) :=
  .primitive (.emit act h)

/-- Acts of the game proper are standard. -/
theorem standard_core (act : Act) (h : act.isCore = true) : Standard (emit act) :=
  standard_emit act (.core h)

theorem standard_broadcastMessage (input : Bytes) (h : input.length ≤ 2047) :
    Standard (broadcastMessage input) := by
  unfold broadcastMessage
  apply Built.ite
  · exact .pure _
  · exact (standard_emit _ .prefixed).bind fun _ ↦ (standard_emit _ (.copied input h)).bind
      fun _ ↦ standard_emit _ (.said input h)

/-- What `snprintf` leaves in a buffer of at most 1024 bytes can be announced. -/
theorem standard_snprintf (size : Nat) (text : Bytes) (h : size ≤ 1024) :
    Standard (broadcastMessage (snprintf size text)) := by
  apply standard_broadcastMessage
  simp only [snprintf, List.length_take]
  omega

/-- A name and a few words can be announced. -/
theorem standard_named (name : Name) (words : Bytes) (h : words.length ≤ 1792) :
    Standard (broadcastMessage (name.bytes ++ words)) := by
  apply standard_broadcastMessage
  have := name.length_lt
  rw [List.length_append]
  omega

theorem standard_findPlayer (id : UInt32) : Standard (findPlayer id) :=
  standard_getServer.bind fun _ ↦ .pure _

theorem standard_increment (it : Option UInt32) : Standard (increment it) := by
  cases it with
  | none => exact .throw _
  | some id => exact standard_getServer.bind fun _ ↦ .pure _

theorem standard_deref (it : Option UInt32) : Standard (deref it) := by
  cases it with
  | none => exact .throw _
  | some id =>
    apply standard_getServer.bind
    intro s
    cases s.players.find? id with
    | none => exact .throw _
    | some player => exact .pure _

theorem standard_getPlayer (id : UInt32) : Standard (getPlayer id) := by
  apply standard_getServer.bind
  intro s
  cases s.players.find? id with
  | none => exact .throw _
  | some player => exact .pure _

theorem standard_getAddressFromID (id : UInt32) : Standard (getAddressFromID id) := by
  apply standard_getServer.bind
  intro s
  cases s.playerAddresses.find? id with
  | none => exact .throw _
  | some systemAddress => exact .pure _

theorem standard_gameOver (id : UInt32) : Standard (gameOver id) :=
  (standard_core _ rfl).bind fun _ ↦ (standard_update _).bind fun _ ↦
    (standard_getPlayer _).bind fun _ ↦ (standard_snprintf _ _ (by decide)).bind fun _ ↦
    standard_core _ rfl

theorem standard_sendTakeTurn : Standard sendTakeTurn :=
  standard_getServer.bind fun _ ↦ (standard_getAddressFromID _).bind fun _ ↦ standard_core _ rfl

theorem standard_nextTurn : Standard nextTurn := by
  apply (standard_core _ rfl).bind
  intro _
  apply standard_getServer.bind
  intro s
  apply (standard_findPlayer _).bind
  intro it
  apply (standard_increment it).bind
  intro it
  apply standard_getServer.bind
  intro s
  dsimp only
  cases runWhile (endOrDead s.players) (advance s.players) (2 * s.players.size + 1) it with
  | none => exact .throw _
  | some it =>
    apply (standard_deref it).bind
    intro e
    apply (standard_update _).bind
    intro _
    apply standard_getServer.bind
    intro s
    apply Built.ite
    · exact standard_gameOver _
    · exact (standard_snprintf _ _ (by decide)).bind fun _ ↦ standard_sendTakeTurn

theorem standard_startMainGame : Standard startMainGame :=
  (standard_core _ rfl).bind fun _ ↦ (standard_update _).bind fun _ ↦
    standard_getServer.bind fun _ ↦ (standard_core _ rfl).bind fun _ ↦ standard_nextTurn

theorem standard_startGame : Standard startGame :=
  (standard_core _ rfl).bind fun _ ↦ (standard_update _).bind fun _ ↦
    (standard_core _ rfl).bind fun _ ↦ (standard_update _).bind fun _ ↦
    standard_getServer.bind fun _ ↦ (standard_deref _).bind fun _ ↦
    (standard_update _).bind fun _ ↦ standard_sendTakeTurn

theorem standard_modifyHealth (id : UInt32) (diff : Int) : Standard (modifyHealth id diff) := by
  apply (standard_updatePlayer _ _).bind
  intro _
  apply (standard_deref _).bind
  rintro ⟨_, player⟩
  have hsend : Standard (send .all (.updatePlayerHp player.name player.health)) :=
    standard_core _ rfl
  apply Built.ite
  · exact (standard_updatePlayer _ _).bind fun _ ↦ hsend
  · exact hsend

variable (S : Setup)

theorem standard_onPlayerJobChosen (p : Packet) : Standard (onPlayerJobChosen S p) := by
  apply (standard_getPlayer _).bind
  intro _
  apply (standard_updatePlayer _ _).bind
  intro _
  apply (standard_updatePlayer _ _).bind
  intro _
  apply (standard_getPlayer _).bind
  intro player
  apply (standard_snprintf _ _ (by decide)).bind
  intro _
  apply standard_getServer.bind
  intro s
  apply (standard_findPlayer _).bind
  intro it
  apply (standard_increment it).bind
  intro it
  cases it with
  | none => exact standard_startMainGame
  | some id => exact (standard_update _).bind fun _ ↦ standard_sendTakeTurn

theorem standard_onPlayerActionTaken (c : Chance) (p : Packet) :
    Standard (onPlayerActionTaken S c p) := by
  unfold onPlayerActionTaken
  rcases readAction S c p with ⟨action, tname⟩
  apply standard_getServer.bind
  intro s
  apply (standard_getPlayer _).bind
  intro origin
  dsimp only
  cases s.getPlayerWithName tname with
  | none => exact .throw _
  | some id =>
    apply (standard_deref _).bind
    rintro ⟨_, target⟩
    dsimp only
    cases Action.ofByte? action with
    | none => exact standard_nextTurn
    | some a =>
      cases a <;>
        exact (standard_snprintf _ _ (by decide)).bind fun _ ↦
          (standard_modifyHealth _ _).bind fun _ ↦ standard_nextTurn

theorem standard_registerClient (p : Packet) : Standard (registerClient S p) := by
  apply (standard_update _).bind
  intro _
  apply (standard_update _).bind
  intro _
  apply (standard_emit _ (.suffix _)).bind
  intro _
  apply (standard_named _ _ (by decide)).bind
  intro _
  apply standard_getServer.bind
  intro s
  exact .ite (standard_snprintf _ _ (by decide)) (.pure _)

theorem standard_onClientIntro (p : Packet) : Standard (onClientIntro S p) := by
  have hrest := standard_registerClient S p
  rw [onClientIntro_eq]
  apply standard_getServer.bind
  intro s
  apply Built.ite
  · exact (standard_core _ rfl).bind fun _ ↦ (standard_update _).bind fun _ ↦ hrest
  · exact hrest

theorem standard_onPlayerReady (p : Packet) : Standard (onPlayerReady S p) := by
  apply (standard_getPlayer _).bind
  intro player
  apply (standard_updatePlayer _ _).bind
  intro _
  apply (standard_named _ _ (by decide)).bind
  intro _
  apply standard_getServer.bind
  intro s
  exact .ite (.ite standard_startGame (.pure _)) (.pure _)

theorem standard_onPlayerUnready (p : Packet) : Standard (onPlayerUnready S p) :=
  (standard_getPlayer _).bind fun _ ↦ (standard_updatePlayer _ _).bind fun _ ↦
    standard_named _ _ (by decide)

/-! ### Chats -/

/-- What `OnClientChatReceived` does for a registered sender. -/
def chatEffects (player : Player) (cmsg : CString 2048) (s : Server) : List Effect :=
  let size := 2048 + player.name.bytes.length
  [⟨.memcpy size 0 player.name.bytes.length, s⟩, ⟨.memcpy size player.name.bytes.length 2, s⟩,
    ⟨.memcpy size (player.name.bytes.length + 2) (cmsg.bytes.length + 1), s⟩,
    ⟨.send .all (.text (player.name.bytes ++ ascii ": " ++ cmsg.bytes)), s⟩]

theorem exec_onClientChatReceived (w : World) (p : Packet) (player : Player)
    (hp : w.server.players.find? (S.id p) = some player) :
    exec (onClientChatReceived S p) w = (.ok (), ⟨w.server, w.trace ++
      chatEffects player (S.decodeString 2048 p.payload).1 w.server⟩) := by
  simp [onClientChatReceived, getPlayer, hp, send, chatEffects]

/-! ### Packets -/

/-- What a packet makes the server add to its history: standard acts, a chat, or one of the
tables. -/
inductive Performs (p : Packet) (s : Server) : List Effect → Prop
  | standard (hk : p.kind = some .cChat → S.id p ∉ s.players) (es : List Effect)
      (h : ∀ e ∈ es, e.act.Standard) : Performs p s es
  | chat (hk : p.kind = some .cChat) (player : Player)
      (hp : s.players.find? (S.id p) = some player) :
    Performs p s (chatEffects player (S.decodeString 2048 p.payload).1 s)
  | list (hk : p.kind = some .cPlayerListRequest) :
    Performs p s [⟨.send (.system p.systemAddress) (.replyPlayerListRequest
      (s.players.entries.map fun e ↦ (e.2.name, e.2.ready))), s⟩]
  | stats (hk : p.kind = some .cPlayerStatsRequest) :
    Performs p s [⟨.send (.system p.systemAddress) (.replyPlayerStatsRequest
      (s.players.entries.map fun e ↦ (e.2.name, e.2.job, e.2.health))), s⟩]

theorem Standard.performs {α : Type} {x : ServerM α} (h : Standard x) (p : Packet) (w : World)
    (hk : p.kind ≠ some .cChat) :
    ∃ es, (exec x w).2.trace = w.trace ++ es ∧ Performs S p w.server es := by
  obtain ⟨es, htrace, hstandard⟩ := h.adds w
  exact ⟨es, htrace, .standard (fun hchat ↦ absurd hchat hk) es hstandard⟩

theorem onClientChatReceived_performs (p : Packet) (hk : p.kind = some .cChat) (w : World) :
    ∃ es, (exec (onClientChatReceived S p) w).2.trace = w.trace ++ es ∧
      Performs S p w.server es := by
  cases hp : w.server.players.find? (S.id p) with
  | none =>
    have hsender := (OrdMap.find?_eq_none _ _).mp hp
    exact ⟨[], by simp [onClientChatReceived, getPlayer, hp],
      .standard (fun _ ↦ hsender) [] (by simp)⟩
  | some player =>
    exact ⟨_, by rw [exec_onClientChatReceived S w p player hp], .chat hk player hp⟩

theorem dispatch_performs (c : Chance) (p : Packet) (b : UInt8) (hb : p.identifier = some b)
    (w : World) : ∃ es, (exec (dispatch S c p b) w).2.trace = w.trace ++ es ∧
      Performs S p w.server es := by
  have hkind : p.kind = RRPGId.ofByte? b := by rw [Packet.kind, hb, Option.bind_some]
  unfold dispatch
  rw [← hkind]
  cases hk : p.kind with
  | none => exact Standard.performs S (.pure ()) p w (by simp [hk])
  | some k =>
    cases k with
    | cIntro => exact (standard_onClientIntro S p).performs S p w (by simp [hk])
    | cReady => exact (standard_onPlayerReady S p).performs S p w (by simp [hk])
    | cUnready => exact (standard_onPlayerUnready S p).performs S p w (by simp [hk])
    | cPlayerListRequest => exact ⟨_, by rw [exec_onPlayerListRequest], .list hk⟩
    | cPlayerStatsRequest => exact ⟨_, by rw [exec_onPlayerStatsRequest], .stats hk⟩
    | cChat => exact onClientChatReceived_performs S p hk w
    | cJobChosen => exact (standard_onPlayerJobChosen S p).performs S p w (by simp [hk])
    | cActionTaken => exact (standard_onPlayerActionTaken S c p).performs S p w (by simp [hk])
    | _ => exact Standard.performs S (.pure ()) p w (by simp [hk])

/-- Every packet makes the server do one of these things. -/
theorem packetHandler_performs (c : Chance) (p : Packet) (w : World) :
    ∃ es, (exec (packetHandler S c p) w).2.trace = w.trace ++ es ∧
      Performs S p w.server es := by
  cases hb : p.identifier with
  | none =>
    unfold packetHandler
    rw [exec_bind, exec_getPacketIdentifier_none p w hb, andThen_error]
    exact ⟨[], by simp, .standard (by simp [Packet.kind, hb]) [] (by simp)⟩
  | some b =>
    cases hi : p.lowLevel with
    | some i =>
      have hk : p.kind ≠ some .cChat := by
        intro hk
        simp [p.lowLevel_of_kind _ hk] at hi
      rw [Packet.lowLevel, hb, Option.bind_some] at hi
      unfold packetHandler
      rw [exec_bind, exec_getPacketIdentifier p w b hb, andThen_ok, exec_bind]
      refine ⟨[], ?_, .standard (fun hchat ↦ absurd hchat hk) [] (by simp)⟩
      cases i <;> simp [isLowLevelPacketHandled, onIncomingConnection, hi]
    | none =>
      rw [exec_packetHandler S c p w b hb hi]
      exact dispatch_performs S c p b hb w

end RRPG
