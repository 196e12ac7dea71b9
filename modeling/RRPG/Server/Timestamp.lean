import RRPG.Server.Acts
import RRPG.Server.Introductions

/-!
# Timestamps

`GetPacketIdentifier` looks for the identifier of a timestamped packet behind its time value,
but every handler skips one byte only and reads its fields from the time value on. Such a
packet means the same as the one without the timestamp exactly when the handler reads nothing,
or reads the same from both.
-/

open RRPG.Base RRPG.Base.Handler

namespace RRPG

/-! ### Packets of one kind -/

/-- The packet behind `ID_TIMESTAMP` and a time value. -/
def Packet.stamped (time : Bytes) (p : Packet) : Packet :=
  { p with data := idTimestamp :: (time ++ p.data), data_ne := by simp }

/-- Two packets of one kind from one client. -/
structure Siblings (k : RRPGId) (p q : Packet) : Prop where
  address : p.systemAddress = q.systemAddress
  guid : p.guid = q.guid
  left : p.kind = some k
  right : q.kind = some k

theorem RRPGId.byte_ne_timestamp (k : RRPGId) : k.byte ≠ idTimestamp := by
  cases k <;> decide

/-- The dispatcher takes a packet and the timestamped one for the same. -/
theorem Packet.stamped_siblings (time : Bytes) (p : Packet) (k : RRPGId)
    (htime : time.length = 8) (hk : p.data.head p.data_ne = k.byte) :
    Siblings k p (p.stamped time) := by
  have hplain : p.identifier = some k.byte := by
    rw [Packet.identifier, if_neg (by rw [hk]; exact k.byte_ne_timestamp), hk]
  have hstamped : (p.stamped time).identifier = some k.byte := by
    show (if idTimestamp = idTimestamp then (idTimestamp :: (time ++ p.data))[9]? else _) =
      some k.byte
    rw [if_pos rfl]
    rw [List.getElem?_cons_succ, List.getElem?_append_right (by omega), htime,
      ← List.head?_eq_getElem?, List.head?_eq_some_head p.data_ne, hk]
  refine ⟨rfl, rfl, ?_, ?_⟩
  · rw [Packet.kind, hplain, Option.bind_some, RRPGId.ofByte?_byte]
  · rw [Packet.kind, hstamped, Option.bind_some, RRPGId.ofByte?_byte]

theorem Siblings.id {k : RRPGId} {p q : Packet} (h : Siblings k p q) (S : Setup) :
    S.id p = S.id q := by
  rw [Setup.id, Setup.id, h.guid]

/-! ### The same effect -/

/-- The message sent, and where to. -/
def Effect.sent? : Effect → Option (Dest × Message)
  | ⟨.send dest message, _⟩ => some (dest, message)
  | _ => none

/-- The messages sent, oldest first. -/
def outgoing (trace : List Effect) : List (Dest × Message) := trace.filterMap Effect.sent?

theorem outgoing_append (t u : List Effect) : outgoing (t ++ u) = outgoing t ++ outgoing u :=
  List.filterMap_append

@[simp] theorem outgoing_cons (e : Effect) (t : List Effect) :
    outgoing (e :: t) = e.sent?.toList ++ outgoing t := by
  cases h : e.sent? <;> simp [outgoing, h]

@[simp] theorem outgoing_nil : outgoing [] = [] := rfl

/-- The same announcement is sent only for the same input. -/
theorem outgoing_broadcastEffects_inj (s s' : Server) (input input' : Bytes) :
    outgoing (broadcastEffects s input) = outgoing (broadcastEffects s' input') ↔
      input = input' := by
  unfold broadcastEffects
  by_cases h : input.length = 0 <;> by_cases h' : input'.length = 0
  · simp [List.length_eq_zero_iff.mp h, List.length_eq_zero_iff.mp h']
  · have hne : input ≠ input' := by
      rintro rfl
      exact h' h
    simp [h, h', Effect.sent?, hne]
  · have hne : input ≠ input' := by
      rintro rfl
      exact h h'
    simp [h, h', Effect.sent?, hne]
  · simp [h, h', Effect.sent?]

/-- Two handlers ended alike: for the same reason, on the same server, with the same
messages sent. -/
structure Alike (a b : Except Halt Unit × World) : Prop where
  outcome : a.1 = b.1
  server : a.2.server = b.2.server
  messages : outgoing a.2.trace = outgoing b.2.trace

theorem Alike.of_eq {a b : Except Halt Unit × World} (h : a = b) : Alike a b := by
  subst h
  exact ⟨rfl, rfl, rfl⟩

theorem Alike.symm {a b : Except Halt Unit × World} (h : Alike a b) : Alike b a :=
  ⟨h.outcome.symm, h.server.symm, h.messages.symm⟩

/-! ### Handler by handler -/

section
variable {S : Setup} {k : RRPGId} {p q : Packet}

/-- Handlers that read nothing do the same. -/
theorem Siblings.handlers_eq (h : Siblings k p q) :
    onPlayerReady S p = onPlayerReady S q ∧ onPlayerUnready S p = onPlayerUnready S q ∧
      onPlayerListRequest p = onPlayerListRequest q ∧
      onPlayerStatsRequest p = onPlayerStatsRequest q := by
  refine ⟨?_, ?_, ?_, ?_⟩
  · rw [onPlayerReady, onPlayerReady, h.id S]
  · rw [onPlayerUnready, onPlayerUnready, h.id S]
  · rw [onPlayerListRequest, onPlayerListRequest, h.address]
  · rw [onPlayerStatsRequest, onPlayerStatsRequest, h.address]

/-- Introductions do the same exactly when they carry the same name. -/
theorem Siblings.intro_alike_iff (h : Siblings k p q) (w : World) :
    Alike (exec (onClientIntro S p) w) (exec (onClientIntro S q) w) ↔
      (S.decodeString 256 p.payload).1 = (S.decodeString 256 q.payload).1 := by
  rw [exec_onClientIntro, exec_onClientIntro, ← h.address]
  have hrejected : outgoing (if S.expectedPlayers < w.server.totalConnections.toUInt32 then
      [⟨.closeConnection p.systemAddress, w.server⟩] else []) = [] := by
    split <;> rfl
  constructor
  · intro halike
    have hmessages := halike.messages
    simp only [outgoing_append, hrejected, joinEffects, outgoing_cons, Effect.sent?,
      Option.toList_none, List.nil_append, List.append_cancel_left_eq] at hmessages
    have hjoined (s : Server) (name : Name) :
        outgoing (broadcastEffects s (name.bytes ++ ascii " has joined.")) =
          [(.all, .text (ascii "[Server] " ++ (name.bytes ++ ascii " has joined.")))] := by
      have hne : (name.bytes ++ ascii " has joined.").length ≠ 0 := by
        rw [List.length_append]
        exact Nat.ne_of_gt (Nat.lt_of_lt_of_le (by decide) (Nat.le_add_left 12 _))
      rw [broadcastEffects, if_neg hne]
      simp [Effect.sent?]
    rw [hjoined, hjoined] at hmessages
    have htext := (List.cons.inj hmessages).1
    simp only [Prod.mk.injEq, Message.text.injEq, List.append_cancel_left_eq,
      List.append_cancel_right_eq, true_and] at htext
    exact CString.ext htext
  · intro hname
    apply Alike.of_eq
    simp only [Server.joined, hname, h.id S, h.address]

/-- Chats are relayed the same exactly when they carry the same text. -/
theorem Siblings.chat_alike_iff (h : Siblings k p q) (w : World) (player : Player)
    (hp : w.server.players.find? (S.id p) = some player) :
    Alike (exec (onClientChatReceived S p) w) (exec (onClientChatReceived S q) w) ↔
      (S.decodeString 2048 p.payload).1 = (S.decodeString 2048 q.payload).1 := by
  rw [exec_onClientChatReceived S w p player hp,
    exec_onClientChatReceived S w q player (by rw [← h.id S, hp])]
  constructor
  · intro halike
    have hmessages := halike.messages
    simp only [outgoing_append, chatEffects, outgoing_cons, outgoing_nil, Effect.sent?,
      Option.toList_none, Option.toList_some, List.nil_append, List.append_nil,
      List.append_cancel_left_eq, List.cons.injEq, Prod.mk.injEq, Message.text.injEq, and_true,
      true_and] at hmessages
    exact CString.ext hmessages
  · intro htext
    apply Alike.of_eq
    rw [htext]

/-- `OnPlayerJobChosen` once the choice is stored. -/
def afterChoice (id : UInt32) : ServerM Unit := do
  let player ← getPlayer id
  broadcastMessage (snprintf 1024
    (player.name.bytes ++ ascii " has chosen to be a " ++ getStringFromClass player.job
      ++ ascii "\n"))
  let it ← findPlayer (← getServer).currentPlayerTurn
  let it ← increment it
  match it with
  | none => startMainGame
  | some id => do
    update fun s ↦ { s with currentPlayerTurn := id }
    sendTakeTurn

theorem exec_onPlayerJobChosen (w : World) (p : Packet) (player : Player)
    (hp : w.server.players.find? (S.id p) = some player) :
    exec (onPlayerJobChosen S p) w =
      exec (afterChoice (S.id p)) ⟨w.server.withPlayer (S.id p) (·.chosen p), w.trace⟩ := by
  have hget : exec (getPlayer (S.id p)) w = (.ok player, w) := by simp [getPlayer, hp]
  have hchosen :
      (w.server.withPlayer (S.id p) fun player ↦ { player with ready := true }).withPlayer
        (S.id p) (fun player ↦ { player with job := chosenJob p player.job }) =
      w.server.withPlayer (S.id p) (·.chosen p) :=
    Server.withPlayer_withPlayer _ _ _ _
  unfold onPlayerJobChosen
  rw [exec_bind, hget, andThen_ok, exec_bind, exec_updatePlayer, andThen_ok, exec_bind,
    exec_updatePlayer, andThen_ok, hchosen]
  rfl

/-- The choice is all that becomes of the players. -/
theorem exec_chosen_players (c : Chance) (w : World) (p : Packet)
    (hk : p.kind = some .cJobChosen) (hsender : S.id p ∈ w.server.players) :
    (exec (packetHandler S c p) w).2.server.players =
      w.server.players.adjust (S.id p) (·.chosen p) := by
  rcases hexec : exec (packetHandler S c p) w with ⟨r, w'⟩
  obtain ⟨es, _, hhandled⟩ := handled_of_exec S c p w w' r hexec
  exact (hhandled.of_job_chosen hk hsender).players

/-- Choices do the same exactly when they leave the same job. -/
theorem Siblings.job_alike_iff (h : Siblings .cJobChosen p q) (c : Chance) (w : World)
    (player : Player) (hp : w.server.players.find? (S.id p) = some player) :
    Alike (exec (packetHandler S c p) w) (exec (packetHandler S c q) w) ↔
      chosenJob p player.job = chosenJob q player.job := by
  have hq : w.server.players.find? (S.id q) = some player := by rw [← h.id S, hp]
  have hchosen := w.server.players.adjust_eq_adjust_iff (S.id p) player (·.chosen p) (·.chosen q) hp
  have hplayer : player.chosen p = player.chosen q ↔
      chosenJob p player.job = chosenJob q player.job := by
    simp [Player.chosen]
  constructor
  · intro halike
    have hsender : S.id p ∈ w.server.players := (OrdMap.mem_iff_find? _ _).mpr ⟨_, hp⟩
    have hplayers := congrArg Server.players halike.server
    rw [exec_chosen_players c w p h.left hsender,
      exec_chosen_players c w q h.right (by rwa [← h.id S]), ← h.id S] at hplayers
    exact hplayer.mp (hchosen.mp hplayers)
  · intro hjob
    apply Alike.of_eq
    rw [exec_packetHandler_kind S c p w .cJobChosen h.left,
      exec_packetHandler_kind S c q w .cJobChosen h.right]
    show exec (onPlayerJobChosen S p) w = exec (onPlayerJobChosen S q) w
    rw [exec_onPlayerJobChosen w p player hp, exec_onPlayerJobChosen w q player hq, ← h.id S,
      Server.withPlayer, hchosen.mpr (hplayer.mpr hjob)]
    rfl

end

/-! ### Actions -/

/-- The action in a packet, if it is one. -/
def action? (S : Setup) (c : Chance) (p : Packet) : Option Action :=
  Action.ofByte? (readAction S c p).1

/-- A cut behind a common beginning is all that makes two texts equal that go on differently. -/
theorem take_append_cons_eq_iff {α : Type} (n : Nat) (l u v : List α) (a b : α) (hab : a ≠ b) :
    (l ++ a :: u).take n = (l ++ b :: v).take n ↔ n ≤ l.length := by
  constructor
  · intro heq
    by_contra hn
    have hat := congrArg (fun text ↦ text[l.length]?) heq
    simp only [List.getElem?_take, List.getElem?_append_right (Nat.le_refl _), Nat.sub_self,
      List.getElem?_cons_zero, if_pos (Nat.lt_of_not_le hn)] at hat
    exact hab (Option.some.inj hat)
  · intro hn
    rw [List.take_append_of_le_length hn, List.take_append_of_le_length hn]

/-- Different actions of the same amount are announced in words that differ behind the
blank. -/
theorem Action.verb_differs (c : Chance) (a b : Action) (hab : a ≠ b)
    (hamount : a.amount c = b.amount c) :
    ∃ x y u v, ascii a.verb = 32 :: x :: u ∧ ascii b.verb = 32 :: y :: v ∧ x ≠ y := by
  have hheal := c.getRandomInteger_mem 5 15 (by omega)
  have hatk := c.getRandomInteger_mem 6 18 (by omega)
  cases a <;> cases b <;> simp only [Action.amount] at hamount <;>
    first
    | exact absurd rfl hab
    | omega
    | exact ⟨_, _, _, _, rfl, rfl, by decide⟩

/-- Such announcements are the same only when they are cut before the words differ. -/
theorem actionText_eq_iff (c : Chance) (a b : Action) (origin target : Player) (amount : Int)
    (hamount : a.amount c = b.amount c) :
    actionText origin target a.verb amount = actionText origin target b.verb amount ↔
      a = b ∨ 255 ≤ origin.name.bytes.length + (getStringFromClass origin.job).length + 6 := by
  by_cases hab : a = b
  · simp [hab]
  · obtain ⟨x, y, u, v, hx, hy, hne⟩ := Action.verb_differs c a b hab hamount
    have hcut := take_append_cons_eq_iff 255 (origin.name.bytes ++ ascii " The " ++
      getStringFromClass origin.job ++ [32])
      (u ++ target.name.bytes ++ ascii " The " ++ getStringFromClass target.job ++
        ascii " for " ++ formatInt amount)
      (v ++ target.name.bytes ++ ascii " The " ++ getStringFromClass target.job ++
        ascii " for " ++ formatInt amount) x y hne
    have hlength : (origin.name.bytes ++ ascii " The " ++ getStringFromClass origin.job ++
        [32]).length = origin.name.bytes.length + (getStringFromClass origin.job).length + 6 := by
      simp only [List.length_append, List.length_singleton]
      have hthe : (ascii " The ").length = 5 := rfl
      omega
    rw [hlength] at hcut
    unfold actionText snprintf
    rw [hx, hy]
    simpa [hab] using hcut

/-- Small blows of different size leave different healths, also where they wrap. -/
theorem Player.struck_inj (player : Player) (diff diff' : Int) (hlo : -18 ≤ diff)
    (hhi : diff ≤ 15) (hlo' : -18 ≤ diff') (hhi' : diff' ≤ 15) :
    player.struck diff = player.struck diff' ↔ diff = diff' := by
  constructor
  · intro h
    have hhealth : int32 (player.health + diff) = int32 (player.health + diff') :=
      congrArg Player.health h
    rw [int32, int32, Int.bmod_def, Int.bmod_def] at hhealth
    omega
  · rintro rfl
    rfl

section
variable {S : Setup} {p q : Packet}

/-- What is no action only passes the turn. -/
theorem exec_onPlayerActionTaken_idle (c : Chance) (w : World) (p : Packet)
    (origin target : Player) (id : UInt32) (ho : w.server.players.find? (S.id p) = some origin)
    (htarget : target? S c p w.server = some id) (hp : w.server.players.find? id = some target)
    (ha : action? S c p = none) :
    exec (onPlayerActionTaken S c p) w = exec nextTurn w := by
  have horigin : exec (getPlayer (S.id p)) w = (.ok origin, w) := by simp [getPlayer, ho]
  have hderef : exec (deref (some id)) w = (.ok (id, target), w) := by simp [deref, hp]
  unfold target? at htarget
  unfold action? at ha
  unfold onPlayerActionTaken
  rcases hread : readAction S c p with ⟨action, tname⟩
  rw [hread] at ha htarget
  rw [exec_bind, exec_getServer, andThen_ok]
  simp only at ha htarget ⊢
  rw [htarget, exec_bind, horigin, andThen_ok, exec_bind, hderef, andThen_ok, ha]

/-- A named target is struck, and the assertion on it holds. -/
theorem exec_acted (c : Chance) (w : World) (p : Packet) (hk : p.kind = some .cActionTaken)
    (hsender : S.id p ∈ w.server.players) (id : UInt32)
    (htarget : target? S c p w.server = some id) :
    (exec (packetHandler S c p) w).2.server.players = (w.server.acted S c p id).players ∧
      (exec (packetHandler S c p) w).1 ≠ .error (.abort .target) := by
  rcases hexec : exec (packetHandler S c p) w with ⟨r, w'⟩
  obtain ⟨es, _, hhandled⟩ := handled_of_exec S c p w w' r hexec
  rcases hhandled.of_action_taken hk hsender with ⟨hnone, _⟩ | ⟨id', _, es', hid', _, hturn, _⟩
  · simp [htarget] at hnone
  · obtain rfl := Option.some.inj (htarget.symm.trans hid')
    refine ⟨hturn.players, ?_⟩
    rintro rfl
    cases hturn

/-- Two actions do the same: both fail on their target, neither is one, or they strike the
same player by the same amount and are announced the same, being the same or being announced
in words cut off before they differ. -/
def SameAction (S : Setup) (c : Chance) (p q : Packet) (origin : Player) (s : Server) : Prop :=
  (target? S c p s = none ∧ target? S c q s = none) ∨
  (target? S c p s ≠ none ∧ target? S c q s ≠ none ∧ action? S c p = none ∧
    action? S c q = none) ∨
  ∃ id a b, target? S c p s = some id ∧ target? S c q s = some id ∧ action? S c p = some a ∧
    action? S c q = some b ∧ a.amount c = b.amount c ∧
    (a = b ∨ 255 ≤ origin.name.bytes.length + (getStringFromClass origin.job).length + 6)

/-- Actions on the same player by the same amount do the same exactly when they are announced
the same: passing the turn does not depend on what was said. -/
theorem Siblings.struck_alike_iff (h : Siblings .cActionTaken p q) (c : Chance) (w : World)
    (origin target : Player) (id : UInt32) (a b : Action)
    (ho : w.server.players.find? (S.id p) = some origin)
    (htarget : target? S c p w.server = some id) (htarget' : target? S c q w.server = some id)
    (hp : w.server.players.find? id = some target) (ha : action? S c p = some a)
    (hb : action? S c q = some b) (hamount : a.amount c = b.amount c) :
    Alike (exec (packetHandler S c p) w) (exec (packetHandler S c q) w) ↔
      a = b ∨ 255 ≤ origin.name.bytes.length + (getStringFromClass origin.job).length + 6 := by
  have hq : w.server.players.find? (S.id q) = some origin := by rw [← h.id S, ho]
  rw [exec_packetHandler_kind S c p w .cActionTaken h.left,
    exec_packetHandler_kind S c q w .cActionTaken h.right]
  show Alike (exec (onPlayerActionTaken S c p) w) (exec (onPlayerActionTaken S c q) w) ↔ _
  rw [exec_onPlayerActionTaken S c p w origin target id a ho htarget hp ha,
    exec_onPlayerActionTaken S c q w origin target id b hq htarget' hp hb, ← hamount,
    standard_nextTurn.blind _ (w.trace ++ (broadcastEffects w.server
      (actionText origin target a.verb (a.amount c).natAbs) ++ _)),
    standard_nextTurn.blind _ (w.trace ++ (broadcastEffects w.server
      (actionText origin target b.verb (a.amount c).natAbs) ++ _)),
    ← actionText_eq_iff c a b origin target (a.amount c).natAbs hamount,
    ← outgoing_broadcastEffects_inj w.server w.server]
  constructor
  · intro halike
    have hmessages := halike.messages
    simpa only [outgoing_append, List.append_assoc, List.append_cancel_left_eq,
      List.append_cancel_right_eq] using hmessages
  · intro htext
    refine ⟨rfl, rfl, ?_⟩
    simp only [outgoing_append, htext]

/-- What a named target is struck by shows. -/
theorem acted_eq_acted_iff (c : Chance) (s : Server) (p q : Packet) (id id' : UInt32)
    (player player' : Player) (hp : s.players.find? id = some player)
    (hp' : s.players.find? id' = some player') :
    (s.acted S c p id).players = (s.acted S c q id').players ↔
      (action? S c p = none ∧ action? S c q = none) ∨
      ∃ a b, action? S c p = some a ∧ action? S c q = some b ∧ id = id' ∧
        a.amount c = b.amount c := by
  have hself := acted_eq_self_iff S c p s id player hp
  have hself' := acted_eq_self_iff S c q s id' player' hp'
  unfold action?
  cases ha : Action.ofByte? (readAction S c p).1 with
  | none =>
    rw [hself.mpr ha, eq_comm, hself']
    simp
  | some a =>
    cases hb : Action.ofByte? (readAction S c q).1 with
    | none =>
      rw [hself'.mpr hb, hself]
      simp [ha]
    | some b =>
      have hmem := a.amount_mem c
      have hmem' := b.amount_mem c
      have hacted : (s.acted S c p id).players = s.players.adjust id (·.struck (a.amount c)) := by
        rw [Server.acted, diff?, ha]
        rfl
      have hacted' : (s.acted S c q id').players =
          s.players.adjust id' (·.struck (b.amount c)) := by
        rw [Server.acted, diff?, hb]
        rfl
      rw [hacted, hacted']
      by_cases hid : id = id'
      · subst hid
        obtain rfl := Option.some.inj (hp.symm.trans hp')
        rw [OrdMap.adjust_eq_adjust_iff _ _ _ _ _ hp,
          player.struck_inj _ _ hmem.1 hmem.2 hmem'.1 hmem'.2]
        simp
      · simp only [hid, reduceCtorEq, false_and, and_false, exists_false, or_false, iff_false]
        intro heq
        have hat := congrArg (fun players ↦ players.find? id) heq
        simp only [OrdMap.find?_adjust_self, OrdMap.find?_adjust, hp, if_neg hid,
          Option.map_some] at hat
        exact player.struck_ne (a.amount c) (a.amount_ne_zero c) hmem.1 hmem.2
          (Option.some.inj hat)

/-- An action on a registered name does not end like one that misses. -/
theorem not_alike_of_misses (c : Chance) (w : World) (p q : Packet) (id : UInt32)
    (hmiss : exec (packetHandler S c p) w = (.error (.abort .target), w))
    (hk : q.kind = some .cActionTaken) (hsender : S.id q ∈ w.server.players)
    (htarget : target? S c q w.server = some id) :
    ¬ Alike (exec (packetHandler S c p) w) (exec (packetHandler S c q) w) := by
  intro halike
  have houtcome := halike.outcome
  rw [hmiss] at houtcome
  exact (exec_acted c w q hk hsender id htarget).2 houtcome.symm

/-- Actions on registered names do the same exactly when they are the same in this sense. -/
theorem Siblings.hits_alike_iff (h : Siblings .cActionTaken p q) (c : Chance) (w : World)
    (origin : Player) (id id' : UInt32) (ho : w.server.players.find? (S.id p) = some origin)
    (htarget : target? S c p w.server = some id) (htarget' : target? S c q w.server = some id') :
    Alike (exec (packetHandler S c p) w) (exec (packetHandler S c q) w) ↔
      SameAction S c p q origin w.server := by
  have hq : w.server.players.find? (S.id q) = some origin := by rw [← h.id S, ho]
  obtain ⟨player, hplayer, _⟩ := target?_eq_some S c p w.server id htarget
  obtain ⟨player', hplayer', _⟩ := target?_eq_some S c q w.server id' htarget'
  have hacted := exec_acted c w p h.left ((OrdMap.mem_iff_find? _ _).mpr ⟨_, ho⟩) id htarget
  have hacted' := exec_acted c w q h.right ((OrdMap.mem_iff_find? _ _).mpr ⟨_, hq⟩) id' htarget'
  have hshows := acted_eq_acted_iff (S := S) c w.server p q id id' player player' hplayer hplayer'
  unfold SameAction
  rw [htarget, htarget']
  constructor
  · intro halike
    have hplayers := congrArg Server.players halike.server
    rw [hacted.1, hacted'.1, hshows] at hplayers
    rcases hplayers with ⟨ha, hb⟩ | ⟨a, b, ha, hb, rfl, hamount⟩
    · exact .inr (.inl ⟨by simp, by simp, ha, hb⟩)
    · have htext := (h.struck_alike_iff c w origin player id a b ho htarget htarget' hplayer ha
        hb hamount).mp halike
      exact .inr (.inr ⟨id, a, b, rfl, rfl, ha, hb, hamount, htext⟩)
  · rintro (⟨hnone, _⟩ | ⟨_, _, ha, hb⟩ | ⟨j, a, b, hj, hj', ha, hb, hamount, htext⟩)
    · cases hnone
    · apply Alike.of_eq
      rw [exec_packetHandler_kind S c p w .cActionTaken h.left,
        exec_packetHandler_kind S c q w .cActionTaken h.right]
      show exec (onPlayerActionTaken S c p) w = exec (onPlayerActionTaken S c q) w
      rw [exec_onPlayerActionTaken_idle c w p origin player id ho htarget hplayer ha,
        exec_onPlayerActionTaken_idle c w q origin player' id' hq htarget' hplayer' hb]
    · obtain rfl := Option.some.inj hj
      obtain rfl := Option.some.inj hj'
      exact (h.struck_alike_iff c w origin player id' a b ho htarget htarget' hplayer ha hb
        hamount).mpr htext

/-- Actions do the same exactly when they are the same in this sense. -/
theorem Siblings.action_alike_iff (h : Siblings .cActionTaken p q) (c : Chance) (w : World)
    (origin : Player) (ho : w.server.players.find? (S.id p) = some origin) :
    Alike (exec (packetHandler S c p) w) (exec (packetHandler S c q) w) ↔
      SameAction S c p q origin w.server := by
  have hq : w.server.players.find? (S.id q) = some origin := by rw [← h.id S, ho]
  have hsender : S.id p ∈ w.server.players := (OrdMap.mem_iff_find? _ _).mpr ⟨_, ho⟩
  have hsender' : S.id q ∈ w.server.players := (OrdMap.mem_iff_find? _ _).mpr ⟨_, hq⟩
  have hmisses (r : Packet) (hk : r.kind = some .cActionTaken)
      (hr : w.server.players.find? (S.id r) = some origin)
      (hnone : target? S c r w.server = none) :
      exec (packetHandler S c r) w = (.error (.abort .target), w) :=
    (exec_packetHandler_kind S c r w .cActionTaken hk).trans
      (exec_onPlayerActionTaken_misses S c r w origin hr hnone)
  cases htarget : target? S c p w.server with
  | none =>
    have hmiss := hmisses p h.left ho htarget
    cases htarget' : target? S c q w.server with
    | none =>
      have hmiss' := hmisses q h.right hq htarget'
      simp [SameAction, htarget, htarget', Alike.of_eq (hmiss.trans hmiss'.symm)]
    | some id =>
      have hno := not_alike_of_misses c w p q id hmiss h.right hsender' htarget'
      simp [SameAction, htarget, htarget', hno]
  | some id =>
    cases htarget' : target? S c q w.server with
    | none =>
      have hmiss' := hmisses q h.right hq htarget'
      have hno := not_alike_of_misses c w q p id hmiss' h.left hsender htarget
      have hno' : ¬ Alike (exec (packetHandler S c p) w) (exec (packetHandler S c q) w) :=
        fun halike ↦ hno halike.symm
      simp [SameAction, htarget, htarget', hno']
    | some id' => exact h.hits_alike_iff c w origin id id' ho htarget htarget'

end

/-! ### All handlers -/

/-- The handler of the kind reads the same from both packets, as far as it reads. -/
def Agrees (S : Setup) (c : Chance) (k : RRPGId) (p q : Packet) (s : Server) : Prop :=
  match k with
  | .cIntro => (S.decodeString 256 p.payload).1 = (S.decodeString 256 q.payload).1
  | .cChat => S.id p ∈ s.players →
      (S.decodeString 2048 p.payload).1 = (S.decodeString 2048 q.payload).1
  | .cJobChosen => ∀ player, s.players.find? (S.id p) = some player →
      chosenJob p player.job = chosenJob q player.job
  | .cActionTaken => ∀ origin, s.players.find? (S.id p) = some origin →
      SameAction S c p q origin s
  | _ => True

/-- Packets of one kind from one client do the same exactly when what is read agrees. -/
theorem Siblings.alike_iff {S : Setup} {k : RRPGId} {p q : Packet} (h : Siblings k p q)
    (c : Chance) (w : World) :
    Alike (exec (packetHandler S c p) w) (exec (packetHandler S c q) w) ↔
      Agrees S c k p q w.server := by
  have hp := exec_packetHandler_kind S c p w k h.left
  have hq := exec_packetHandler_kind S c q w k h.right
  have hstrangers (hplayer : k ∈ RRPGId.ofPlayer) (hsender : S.id p ∉ w.server.players) :
      Alike (exec (packetHandler S c p) w) (exec (packetHandler S c q) w) := by
    apply Alike.of_eq
    rw [exec_packetHandler_stranger S w c p k h.left hplayer hsender,
      exec_packetHandler_stranger S w c q k h.right hplayer (by rwa [← h.id S]), h.id S]
  have hsame {x y : ServerM Unit} (hx : exec (packetHandler S c p) w = exec x w)
      (hy : exec (packetHandler S c q) w = exec y w) (hxy : x = y) :
      Alike (exec (packetHandler S c p) w) (exec (packetHandler S c q) w) :=
    Alike.of_eq (by rw [hx, hy, hxy])
  have hread := h.handlers_eq (S := S)
  cases k with
  | cIntro =>
    rw [exec_packetHandler_intro S w c p h.left, exec_packetHandler_intro S w c q h.right]
    exact h.intro_alike_iff w
  | cReady => exact iff_of_true (hsame hp hq hread.1) trivial
  | cUnready => exact iff_of_true (hsame hp hq hread.2.1) trivial
  | cPlayerListRequest => exact iff_of_true (hsame hp hq hread.2.2.1) trivial
  | cPlayerStatsRequest => exact iff_of_true (hsame hp hq hread.2.2.2) trivial
  | cChat =>
    show _ ↔ (S.id p ∈ w.server.players → _)
    by_cases hsender : S.id p ∈ w.server.players
    · obtain ⟨player, hplayer⟩ := (OrdMap.mem_iff_find? _ _).mp hsender
      rw [hp, hq]
      have hchat := h.chat_alike_iff w player hplayer
      exact ⟨fun halike _ ↦ hchat.mp halike, fun htext ↦ hchat.mpr (htext hsender)⟩
    · exact iff_of_true (hstrangers (by decide) hsender) fun hmem ↦ absurd hmem hsender
  | cJobChosen =>
    show _ ↔ ∀ player, w.server.players.find? (S.id p) = some player → _
    cases hplayer : w.server.players.find? (S.id p) with
    | none =>
      exact iff_of_true (hstrangers (by decide) ((OrdMap.find?_eq_none _ _).mp hplayer)) (by simp)
    | some player => simp [h.job_alike_iff c w player hplayer]
  | cActionTaken =>
    show _ ↔ ∀ origin, w.server.players.find? (S.id p) = some origin → _
    cases hplayer : w.server.players.find? (S.id p) with
    | none =>
      exact iff_of_true (hstrangers (by decide) ((OrdMap.find?_eq_none _ _).mp hplayer)) (by simp)
    | some origin => simp [h.action_alike_iff c w origin hplayer]
  | _ => exact iff_of_true (hsame hp hq rfl) trivial

/-- A timestamped packet means the same as the plain one exactly when its handler reads from
the time value on what it reads from the payload, as far as it reads. -/
theorem stamped_alike_iff (S : Setup) (c : Chance) (w : World) (p : Packet) (k : RRPGId)
    (time : Bytes) (htime : time.length = 8) (hk : p.data.head p.data_ne = k.byte) :
    Alike (exec (packetHandler S c p) w) (exec (packetHandler S c (p.stamped time)) w) ↔
      Agrees S c k p (p.stamped time) w.server :=
  (p.stamped_siblings time k htime hk).alike_iff c w

/-- A time value. -/
def noon : Bytes := List.replicate 8 120

/-- The chat of a registered client, and its readiness. -/
def greeting : Event := clientEvent 1 RRPGId.cChat.byte (ascii "hi")

def readiness : Event := clientEvent 1 RRPGId.cReady.byte []

/-- Readiness is stored with and without a timestamp. -/
theorem stamped_readiness_alike :
    Alike (exec (packetHandler (.plain 2) readiness.chance readiness.packet) introducedClient)
      (exec (packetHandler (.plain 2) readiness.chance (readiness.packet.stamped noon))
        introducedClient) :=
  (stamped_alike_iff (.plain 2) readiness.chance introducedClient readiness.packet .cReady noon
    rfl rfl).mpr trivial

/-- Everybody is sent the time value as part of the chat. -/
theorem stamped_greeting_differs :
    (outcome (.plain 2) [clientEvent 1 DefaultMessageId.idNewIncomingConnection.byte [],
      clientEvent 1 RRPGId.cIntro.byte (ascii "A")]).1 = .ok () ∧
    ¬ Alike (exec (packetHandler (.plain 2) greeting.chance greeting.packet) introducedClient)
      (exec (packetHandler (.plain 2) greeting.chance (greeting.packet.stamped noon))
        introducedClient) := by
  refine ⟨by decide +kernel, fun h ↦ ?_⟩
  exact absurd h.messages (by decide +kernel)

end RRPG
