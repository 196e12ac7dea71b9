import RRPG.Server.Termination

/-!
# The turn, specified

What `NextTurn` and an action are for: the turn passes to the next living player round the
ids, and an action changes the health of one player by an allowed amount, announces and
reports it, and then passes the turn. Both are stated of the computation itself, from any
tables with the same keys, with everything that stays as it was.
-/

open RRPG.Base RRPG.Base.Handler

namespace RRPG

/-! ### `NextTurn` -/

theorem living_eq_one_iff_existsUnique (s : Server) :
    s.living = 1 ↔ ∃! id, Alive s.players id := by
  rw [living_eq_one]
  constructor
  · rintro ⟨id, h⟩
    exact ⟨id, (h id).mpr rfl, fun j hj ↦ (h j).mp hj⟩
  · rintro ⟨id, hid, honly⟩
    exact ⟨id, fun j ↦ ⟨honly j, fun hj ↦ hj ▸ hid⟩⟩

/-- What `NextTurn` has to do, from `s` to `s'` with the effects `es`. -/
structure NextTurnSpec (s : Server) (r : Except Halt Unit) (s' : Server) (es : List Effect) :
    Prop where
  /-- The loop ends exactly when some player is not dead. -/
  terminates : Terminates (endOrDead s.players) (advance s.players)
    (s.players.next? s.currentPlayerTurn) ↔ ∃ id, Alive s.players id
  returns : r = .ok () ↔ ∃ id, Alive s.players id
  hangs : r ≠ .ok () → r = .error .hang
  frame : s' = { s with
    currentPlayerTurn := s'.currentPlayerTurn
    gameState := s'.gameState }
  next : r = .ok () → Next (Alive s.players) s.currentPlayerTurn s'.currentPlayerTurn
  /-- The turn stays where it was exactly when nobody else is living. -/
  stays : r = .ok () → (s'.currentPlayerTurn = s.currentPlayerTurn ↔
    ∀ id, Alive s.players id ↔ id = s.currentPlayerTurn)
  /-- One living player: the game is over, and no turn is handed out. -/
  ends : (∃! id, Alive s.players id) → s'.gameState = .gsGameOver ∧
    core es = [⟨.enter .nextTurn, s⟩,
      ⟨.enter (.gameOver s'.currentPlayerTurn),
        { s with currentPlayerTurn := s'.currentPlayerTurn }⟩,
      ⟨.send .all (.updateGameState .gsGameOver none), s'⟩]
  /-- Several: one turn is handed out, to the stored address. -/
  passes : r = .ok () → (¬ ∃! id, Alive s.players id) → s'.gameState = s.gameState ∧
    ∃ systemAddress, s.playerAddresses.find? s'.currentPlayerTurn = some systemAddress ∧
      core es = [⟨.enter .nextTurn, s⟩, ⟨.send (.system systemAddress) .takeTurn, s'⟩]

/-- Every way through `NextTurn` meets the specification, where the tables have the same
keys and the pointer is one of them. -/
theorem NextTurnDoes.spec {s s' : Server} {r : Except Halt Unit} {es : List Effect}
    (h : NextTurnDoes s r s' es) (hkeys : s.playerAddresses.keys = s.players.keys)
    (hcur : s.currentPlayerTurn ∈ s.players) (es' : List Effect)
    (hcore : core es' = ⟨.enter .nextTurn, s⟩ :: es) : NextTurnSpec s r s' es' := by
  have hterminates := walk_terminates_iff s.players s.currentPlayerTurn hcur
  have hunique := living_eq_one_iff_existsUnique s
  cases h with
  | unset hunset => exact absurd hcur hunset
  | hangs _ hdead =>
    exact {
      terminates := hterminates
      returns := by simp [hdead]
      hangs := fun _ ↦ rfl
      frame := rfl
      next := by simp
      stays := by simp
      ends := fun hone ↦ absurd hone.exists hdead
      passes := by simp }
  | ends _ id hnext hone =>
    exact {
      terminates := hterminates
      returns := ⟨fun _ ↦ ⟨id, hnext.living⟩, fun _ ↦ rfl⟩
      hangs := by simp
      frame := rfl
      next := fun _ ↦ hnext
      stays := fun _ ↦ hnext.eq_start_iff
      ends := fun _ ↦ ⟨rfl, hcore⟩
      passes := fun _ hmany ↦ absurd (hunique.mp hone) hmany }
  | passes _ id hnext hmany systemAddress haddr =>
    exact {
      terminates := hterminates
      returns := ⟨fun _ ↦ ⟨id, hnext.living⟩, fun _ ↦ rfl⟩
      hangs := by simp
      frame := rfl
      next := fun _ ↦ hnext
      stays := fun _ ↦ hnext.eq_start_iff
      ends := fun hone ↦ absurd (hunique.mpr hone) hmany
      passes := fun _ _ ↦ ⟨rfl, systemAddress, haddr, hcore⟩ }
  | lost _ id hnext hmany haddr =>
    rw [OrdMap.mem_def, hkeys, ← OrdMap.mem_def] at haddr
    exact absurd hnext.living.mem haddr

/-- `NextTurn` meets its specification, from every state whose tables have the same keys and
whose pointer is one of them, whatever happened before. -/
theorem nextTurn_spec (s : Server) (trace : List Effect)
    (hkeys : s.playerAddresses.keys = s.players.keys)
    (hcur : s.currentPlayerTurn ∈ s.players) :
    ∃ r s' es, exec nextTurn ⟨s, trace⟩ = (r, ⟨s', trace ++ es⟩) ∧ NextTurnSpec s r s' es := by
  obtain ⟨r, s', es, hturn, hdoes⟩ := nextTurn_does s
  obtain ⟨es', hexec, hcore⟩ := hdoes trace
  exact ⟨r, s', es', hexec, hturn.spec hkeys hcur es' hcore⟩

/-- A server of three players, of whom the second is dead and the third has the turn. -/
def wrapping : Server where
  networkState := .nsGameStarted
  gameState := .gsMain
  totalConnections := 3
  players := ((OrdMap.empty.emplace 3 { name := .ofBytes 256 (ascii "C") }).emplace 2
    { name := .ofBytes 256 (ascii "B"), health := -2, dead := true }).emplace 1
    { name := .ofBytes 256 (ascii "A"), health := 40 }
  playerAddresses := ((OrdMap.empty.emplace 1 ⟨1, 60000⟩).emplace 2 ⟨2, 60000⟩).emplace 3
    ⟨3, 60000⟩
  currentPlayerTurn := 3

/-- The turn goes round to the first player. -/
theorem wrapping_nextTurn : wrapping.playerAddresses.keys = wrapping.players.keys ∧
    wrapping.currentPlayerTurn ∈ wrapping.players ∧
    ∃ r s' es, exec nextTurn ⟨wrapping, []⟩ = (r, ⟨s', es⟩) ∧ NextTurnSpec wrapping r s' es := by
  have hkeys : wrapping.playerAddresses.keys = wrapping.players.keys := by decide
  have hcur : wrapping.currentPlayerTurn ∈ wrapping.players := by decide
  exact ⟨hkeys, hcur, nextTurn_spec wrapping [] hkeys hcur⟩

/-! ### Actions -/

/-- How an action is announced. -/
def Action.verb : Action → String
  | heal => " healed "
  | healRng => " randomly healed "
  | attack => " attacked "
  | atkRng => " randomly attacked "

/-- The amounts an action may add to its target's health. -/
def Action.Allows : Action → Int → Prop
  | heal, diff => diff = 10
  | healRng, diff => 5 ≤ diff ∧ diff ≤ 15
  | attack, diff => diff = -12
  | atkRng, diff => -18 ≤ diff ∧ diff ≤ -6

theorem Action.allows_amount (c : Chance) (a : Action) : a.Allows (a.amount c) := by
  have hheal := c.getRandomInteger_mem 5 15 (by omega)
  have hatk := c.getRandomInteger_mem 6 18 (by omega)
  cases a <;> simp only [Action.Allows, Action.amount] <;> omega

/-- The name and the health a message reports. -/
def Effect.hp? : Effect → Option (Name × Int)
  | ⟨.send _ (.updatePlayerHp name health), _⟩ => some (name, health)
  | _ => none

/-- The healths reported, oldest first. -/
def hps (trace : List Effect) : List (Name × Int) := trace.filterMap Effect.hp?

@[simp] theorem hps_core (t : List Effect) : hps (core t) = hps t := by
  apply filterMap_core Effect.hp?
  rintro ⟨act, s⟩ he
  unfold Effect.hp? at he
  split at he
  · next h => cases h; rfl
  · exact absurd rfl he

/-- `NextTurn` reports no health. -/
theorem NextTurnSpec.hps_eq_nil {s s' : Server} {es : List Effect}
    (h : NextTurnSpec s (.ok ()) s' es) : hps es = [] := by
  rw [← hps_core]
  by_cases hone : ∃! id, Alive s.players id
  · rw [(h.ends hone).2]
    rfl
  · obtain ⟨_, systemAddress, _, hcore⟩ := h.passes rfl hone
    rw [hcore]
    rfl

/-- What an action has to do when `origin` takes it on `target`, whose id is `id`: from `s`
to `s'` with the effects `es`. -/
structure ActionSpec (a : Action) (diff : Int) (origin target : Player) (id : UInt32)
    (s s' : Server) (es : List Effect) : Prop where
  allowed : a.Allows diff
  hit : s'.players.find? id = some { target with
    health := target.health + diff
    dead := target.dead || decide (target.health + diff ≤ 0) }
  others : ∀ j, j ≠ id → s'.players.find? j = s.players.find? j
  addresses : s'.playerAddresses = s.playerAddresses
  connections : s'.totalConnections = s.totalConnections
  network : s'.networkState = s.networkState
  /-- Announced with the amount's magnitude, reported, and only then the turn is passed. -/
  effects : ∃ turn, es = broadcastEffects s (actionText origin target a.verb diff.natAbs) ++
      ⟨.send .all (.updatePlayerHp target.name (target.health + diff)),
        { s with players := s'.players }⟩ :: turn ∧
    NextTurnSpec { s with players := s'.players } (.ok ()) s' turn
  /-- One report only. -/
  reported : hps es = [(target.name, target.health + diff)]

section
variable (S : Setup) (c : Chance) (p : Packet)

/-- The target of an action is the first player of the name it carries. -/
theorem target?_of_first (s : Server) (id : UInt32) (target : Player)
    (hp : s.players.find? id = some target) (hname : target.name = (readAction S c p).2)
    (hfirst : ∀ j player, s.players.find? j = some player → player.name = target.name → id ≤ j) :
    target? S c p s = some id := by
  unfold target? Server.getPlayerWithName
  apply (OrdMap.findKey?_eq_some _ _ id).mpr
  refine ⟨⟨target, hp, by simpa using hname⟩, fun j player hj hj' ↦ ?_⟩
  exact hfirst j player hj (by rw [hname]; simpa using hj')

/-- An action is announced and applied, and the turn is passed. -/
theorem exec_onPlayerActionTaken (w : World) (origin target : Player) (id : UInt32)
    (a : Action) (ho : w.server.players.find? (S.id p) = some origin)
    (htarget : target? S c p w.server = some id)
    (hp : w.server.players.find? id = some target)
    (ha : Action.ofByte? (readAction S c p).1 = some a) :
    exec (onPlayerActionTaken S c p) w =
      exec nextTurn ⟨w.server.withPlayer id (·.struck (a.amount c)), w.trace ++
        (broadcastEffects w.server (actionText origin target a.verb (a.amount c).natAbs) ++
        [⟨.send .all (.updatePlayerHp target.name (target.struck (a.amount c)).health),
          w.server.withPlayer id (·.struck (a.amount c))⟩])⟩ := by
  have horigin : exec (getPlayer (S.id p)) w = (.ok origin, w) := by simp [getPlayer, ho]
  have hderef : exec (deref (some id)) w = (.ok (id, target), w) := by simp [deref, hp]
  have hann (text : Bytes) (diff : Int) :
      exec (do broadcastMessage text; modifyHealth id diff; nextTurn) w =
        exec nextTurn ⟨w.server.withPlayer id (·.struck diff), w.trace ++
          (broadcastEffects w.server text ++
          [⟨.send .all (.updatePlayerHp target.name (target.struck diff).health),
            w.server.withPlayer id (·.struck diff)⟩])⟩ := by
    have hmodify := exec_modifyHealth ⟨w.server, w.trace ++ broadcastEffects w.server text⟩ id
      target diff hp
    rw [exec_bind, exec_broadcastMessage, andThen_ok, exec_bind, hmodify, andThen_ok,
      List.append_assoc]
  unfold target? at htarget
  unfold onPlayerActionTaken
  rcases hread : readAction S c p with ⟨action, tname⟩
  rw [hread] at ha htarget
  rw [exec_bind, exec_getServer, andThen_ok]
  simp only at ha htarget ⊢
  rw [htarget, exec_bind, horigin, andThen_ok, exec_bind, hderef, andThen_ok, ha]
  have hheal := c.getRandomInteger_mem 5 15 (by omega)
  have hatk := c.getRandomInteger_mem 6 18 (by omega)
  have hhealed : ((c.getRandomInteger 5 15).natAbs : Int) = c.getRandomInteger 5 15 := by omega
  have hattacked : ((-c.getRandomInteger 6 18).natAbs : Int) = - -c.getRandomInteger 6 18 := by
    omega
  cases a with
  | heal => exact hann (actionText origin target " healed " 10) 10
  | healRng =>
    rw [Action.amount, hhealed]
    exact hann (actionText origin target " randomly healed " _) _
  | attack => exact hann (actionText origin target " attacked " 12) (-12)
  | atkRng =>
    rw [Action.amount, hattacked]
    exact hann (actionText origin target " randomly attacked " _) _

/-- A strike that stays within the range adds to the health and may kill. -/
theorem Player.struck_eq (player : Player) (diff : Int) (hlo : -2 ^ 31 ≤ player.health + diff)
    (hhi : player.health + diff < 2 ^ 31) : player.struck diff = { player with
      health := player.health + diff
      dead := player.dead || decide (player.health + diff ≤ 0) } := by
  rw [Player.struck, int32_eq_self _ hlo hhi]

/-- From every state whose tables have the same keys and whose pointer is one of them, an
action from a registered sender on a registered name meets its specification for the first
player of that name, for every chance it meets; unless the health overflows, or nobody is
left alive. -/
theorem action_spec (w : World) (b : UInt8) (rest : BitStream) (a : Action)
    (origin target : Player) (id : UInt32)
    (hkeys : w.server.playerAddresses.keys = w.server.players.keys)
    (hcur : w.server.currentPlayerTurn ∈ w.server.players)
    (hk : p.kind = some .cActionTaken)
    (hsender : w.server.players.find? (S.id p) = some origin)
    (hread : p.payload.readByte = some (b, rest)) (ha : Action.ofByte? b = some a)
    (htarget : w.server.players.find? id = some target)
    (hname : target.name = (S.decodeString 256 rest).1)
    (hfirst : ∀ j player, w.server.players.find? j = some player →
      player.name = target.name → id ≤ j)
    (hlo : -2 ^ 31 ≤ target.health + a.amount c) (hhi : target.health + a.amount c < 2 ^ 31)
    (halive : ∃ j player, w.server.players.find? j = some player ∧ player.dead = false ∧
      ¬ (j = id ∧ target.health + a.amount c ≤ 0)) :
    ∃ s' es, exec (packetHandler S c p) w = (.ok (), ⟨s', w.trace ++ es⟩) ∧
      ActionSpec a (a.amount c) origin target id w.server s' es := by
  have hreadAction : readAction S c p = (b, (S.decodeString 256 rest).1) := by
    rw [readAction, hread]
  have htarget? := target?_of_first S c p w.server id target htarget (by rwa [hreadAction]) hfirst
  have hstruck := target.struck_eq (a.amount c) hlo hhi
  let t : Server := w.server.withPlayer id (·.struck (a.amount c))
  have hfind (j : UInt32) : t.players.find? j =
      if j = id then some (target.struck (a.amount c)) else w.server.players.find? j :=
    OrdMap.find?_adjust_of_find? _ _ _ _ htarget j
  have hsome : ∃ j, Alive t.players j := by
    obtain ⟨j, player, hj, hdead, hnot⟩ := halive
    apply Exists.intro j
    apply (alive_struck w.server.players id target (a.amount c) htarget j).mpr
    rw [int32_eq_self _ hlo hhi]
    exact ⟨⟨player, hj, hdead⟩, hnot⟩
  obtain ⟨r, s', turn, hexec, hturn⟩ := nextTurn_spec t (w.trace ++
    (broadcastEffects w.server (actionText origin target a.verb (a.amount c).natAbs) ++
      [⟨.send .all (.updatePlayerHp target.name (target.struck (a.amount c)).health), t⟩]))
    (by simpa [t] using hkeys) (by simpa [t] using hcur)
  obtain rfl := hturn.returns.mpr hsome
  have hplayers : s'.players = t.players := by rw [hturn.frame]
  have ht : ({ w.server with players := s'.players } : Server) = t := by rw [hplayers]; rfl
  have hhealth : (target.struck (a.amount c)).health = target.health + a.amount c := by
    rw [hstruck]
  refine ⟨s', broadcastEffects w.server (actionText origin target a.verb (a.amount c).natAbs) ++
    ⟨.send .all (.updatePlayerHp target.name (target.health + a.amount c)), t⟩ :: turn, ?_, ?_⟩
  · rw [exec_packetHandler_kind S c p w .cActionTaken hk]
    show exec (onPlayerActionTaken S c p) w = _
    rw [exec_onPlayerActionTaken S c p w origin target id a hsender htarget? htarget
      (by rwa [hreadAction])]
    show exec nextTurn ⟨t, _⟩ = _
    rw [hexec, hhealth]
    simp
  · exact {
      allowed := a.allows_amount c
      hit := by rw [hplayers, hfind, if_pos rfl, hstruck]
      others := fun j hj ↦ by rw [hplayers, hfind, if_neg hj]
      addresses := by rw [hturn.frame]; rfl
      connections := by rw [hturn.frame]; rfl
      network := by rw [hturn.frame]; rfl
      effects := ⟨turn, by rw [ht], by rwa [ht]⟩
      reported := by
        rw [← hps_core, core_append, core_broadcast, List.nil_append, hps_core]
        show (target.name, target.health + a.amount c) :: hps turn = _
        rw [hturn.hps_eq_nil] }

end

/-- The third player attacks the first one. -/
def attackA : Event := clientEvent 3 RRPGId.cActionTaken.byte (2 :: ascii "A")

/-- The attack meets its specification. -/
theorem attackA_spec : ∃ s' es,
    exec (packetHandler (.plain 3) attackA.chance attackA.packet) ⟨wrapping, []⟩ =
      (.ok (), ⟨s', es⟩) ∧
    ActionSpec .attack (-12) { name := .ofBytes 256 (ascii "C") }
      { name := .ofBytes 256 (ascii "A"), health := 40 } 1 wrapping s' es := by
  apply action_spec (.plain 3) attackA.chance attackA.packet ⟨wrapping, []⟩ 2
    (BitStream.ofBytes (ascii "A")) .attack { name := .ofBytes 256 (ascii "C") }
    { name := .ofBytes 256 (ascii "A"), health := 40 } 1
  case hkeys => decide
  case hcur => decide
  case hk => decide +kernel
  case hsender => decide +kernel
  case hread => decide +kernel
  case ha => rfl
  case htarget => decide +kernel
  case hname => decide +kernel
  case hlo => decide
  case hhi => decide
  case hfirst =>
    intro j player hj hname
    have hall : ∀ e ∈ wrapping.players.entries,
        e.2.name = CString.ofBytes 256 (ascii "A") → 1 ≤ e.1 := by
      decide +kernel
    exact hall (j, player) ((OrdMap.find?_eq_some _ _ _).mp hj) hname
  case halive => exact ⟨3, { name := .ofBytes 256 (ascii "C") }, by decide +kernel, rfl, by decide⟩

end RRPG
