import RRPG.Base.Rotation
import RRPG.Server.Primitives

/-!
# Passing the turn

`NextTurn` walks the map from the current player on, wraps round at its end and skips the
dead. The walk ends at the next living player on the tour of the ids, and it never ends
exactly when everybody is dead. What `NextTurn` and `GameOver` do follows.
-/

open RRPG.Base RRPG.Base.Handler

namespace RRPG

/-- The id belongs to a registered player who is not dead. -/
def Alive (players : OrdMap UInt32 Player) (id : UInt32) : Prop :=
  ∃ player, players.find? id = some player ∧ player.dead = false

theorem Alive.mem {players : OrdMap UInt32 Player} {id : UInt32} (h : Alive players id) :
    id ∈ players := by
  obtain ⟨player, hp, _⟩ := h
  exact (players.mem_iff_find? id).mpr ⟨player, hp⟩

theorem mem_living_iff (s : Server) (id : UInt32) :
    id ∈ s.players.keysWhere (fun player ↦ player.dead == false) ↔ Alive s.players id := by
  simp [OrdMap.mem_keysWhere, Alive]

/-- One player is counted living exactly when there is one living id. -/
theorem living_eq_one (s : Server) :
    s.living = 1 ↔ ∃ id, ∀ j, Alive s.players j ↔ j = id := by
  simp only [Server.living, OrdMap.count_eq_one, mem_living_iff]

theorem living_eq_zero (s : Server) : s.living = 0 ↔ ¬ ∃ id, Alive s.players id := by
  simp only [Server.living, OrdMap.count_eq_zero, Alive]
  constructor
  · rintro h ⟨id, player, hp, hd⟩
    have := h id player hp
    simp [hd] at this
  · intro h id player hp
    by_contra hd
    exact h ⟨id, player, hp, by simpa using hd⟩

/-! ### The loop -/

variable (players : OrdMap UInt32 Player)

@[simp] theorem endOrDead_none : endOrDead players none = true := rfl

theorem endOrDead_some (id : UInt32) (h : id ∈ players) :
    endOrDead players (some id) = false ↔ Alive players id := by
  obtain ⟨player, hp⟩ := (players.mem_iff_find? id).mp h
  simp [endOrDead, Alive, hp]

/-- The walk from `cur` has not passed `dst` yet. -/
private def OnTheWay (cur dst : UInt32) : Option UInt32 → Prop
  | none => dst ≤ cur
  | some x => x ∈ players ∧ (x = dst ∨ Before cur x dst)

/-- A bound on the passes left: round to the end first when still above the start. -/
private def passesLeft (cur : UInt32) : Option UInt32 → Nat
  | none => players.size
  | some x => if cur < x then players.above x + players.size + 1 else players.above x

private theorem onTheWay_next (cur dst x : UInt32) (hto : dst ∈ players)
    (hx : x = cur ∨ Before cur x dst) :
    OnTheWay players cur dst (players.next? x) := by
  cases hn : players.next? x with
  | none =>
    have hle := (players.next?_eq_none x).mp hn dst hto
    simp only [OnTheWay]
    rcases hx with rfl | hx
    · exact hle
    · unfold Before at hx
      grind
  | some y =>
    obtain ⟨hy, hxy, hmin⟩ := (players.next?_eq_some x y).mp hn
    have hle := hmin dst hto
    refine ⟨hy, ?_⟩
    unfold Before at *
    grind

private theorem advance_step (cur dst : UInt32) (hcur : cur ∈ players) (hto : dst ∈ players)
    (it : Option UInt32) (hi : OnTheWay players cur dst it) (hne : it ≠ some dst) :
    OnTheWay players cur dst (advance players it) ∧
      passesLeft players cur (advance players it) < passesLeft players cur it := by
  cases it with
  | none =>
    obtain ⟨b, hb⟩ := players.begin?_isSome hcur
    obtain ⟨hbm, hmin⟩ := (players.begin?_eq_some b).mp hb
    have hbt := hmin dst hto
    have hbc := hmin cur hcur
    simp only [advance, hb, OnTheWay, passesLeft, if_neg (not_lt.mpr hbc)] at hi ⊢
    refine ⟨⟨hbm, ?_⟩, players.above_lt_size b hbm⟩
    unfold Before
    grind
  | some x =>
    have hx : Before cur x dst := by
      rcases hi.2 with rfl | hx
      · exact absurd rfl hne
      · exact hx
    refine ⟨onTheWay_next players cur dst x hto (Or.inr hx), ?_⟩
    simp only [advance]
    cases hn : players.next? x with
    | none =>
      have hle := (players.next?_eq_none x).mp hn dst hto
      have hlt : cur < x := by
        unfold Before at hx
        grind
      simp only [passesLeft, if_pos hlt]
      omega
    | some y =>
      have habove := players.above_next? x y hn
      obtain ⟨_, hxy, hmin⟩ := (players.next?_eq_some x y).mp hn
      have hle := hmin dst hto
      have himp : cur < y → cur < x := by
        unfold Before at hx
        grind
      simp only [passesLeft]
      split
      · next hcy => simp only [if_pos (himp hcy)]; omega
      · split <;> omega

/-- The walk reaches the next living player, within the passes `NextTurn` is given. -/
theorem walk_reaches (cur dst : UInt32) (hcur : cur ∈ players)
    (hnext : Next (Alive players) cur dst) :
    runWhile (endOrDead players) (advance players) (2 * players.size + 1)
      (players.next? cur) = some (some dst) := by
  have hto := hnext.living.mem
  have hstart := onTheWay_next players cur dst cur hto (Or.inl rfl)
  have hfuel : passesLeft players cur (players.next? cur) ≤ 2 * players.size + 1 := by
    cases hn : players.next? cur with
    | none => simp only [passesLeft]; omega
    | some y =>
      have := players.above_lt_size y ((players.next?_eq_some cur y).mp hn).1
      simp only [passesLeft]
      split <;> omega
  have hstop : endOrDead players (some dst) = false :=
    (endOrDead_some players dst hto).mpr hnext.living
  obtain ⟨it, hrun, hi, hc⟩ := runWhile_total (endOrDead players) (advance players)
    (OnTheWay players cur dst) (passesLeft players cur) (by
      intro it hi hc
      apply advance_step players cur dst hcur hto it hi
      rintro rfl
      simp [hstop] at hc) _ _ hstart hfuel
  rw [hrun]
  cases it with
  | none => simp at hc
  | some x =>
    have hax := (endOrDead_some players x hi.1).mp hc
    rcases hi.2 with rfl | hb
    · rfl
    · by_cases hne : x = dst
      · rw [hne]
      · exact absurd (hnext.first x hax hne) (before_asymm cur x dst hb)

/-- With everybody dead, no number of passes ends the walk. -/
theorem walk_diverges (cur : UInt32) (hdead : ¬ ∃ id, Alive players id) (fuel : Nat) :
    runWhile (endOrDead players) (advance players) fuel (players.next? cur) = none := by
  let valid : Option UInt32 → Prop := fun it ↦ ∀ id, it = some id → id ∈ players
  have hnext (x : UInt32) : valid (players.next? x) := fun id hid ↦
    ((players.next?_eq_some x id).mp hid).1
  refine runWhile_diverges _ _ valid ?_ fuel _ (hnext cur)
  intro it hv
  cases it with
  | none => exact ⟨rfl, fun id hid ↦ ((players.begin?_eq_some id).mp hid).1⟩
  | some x =>
    refine ⟨?_, hnext x⟩
    by_contra hc
    have hx := hv x rfl
    exact hdead ⟨x, (endOrDead_some players x hx).mp (by simpa using hc)⟩

/-- Somebody alive is next on every tour. -/
theorem exists_next_alive (cur : UInt32) (h : ∃ id, Alive players id) :
    ∃ dst, Next (Alive players) cur dst := by
  obtain ⟨id, hid⟩ := h
  obtain ⟨dst, hdst⟩ := exists_next players.keys (Alive players) cur ⟨id, hid.mem, hid⟩
  exact ⟨dst, hdst.living.2, fun y hy hne ↦ hdst.first y ⟨hy.mem, hy⟩ hne⟩

/-- The walk ends exactly when somebody is alive. -/
theorem walk_terminates_iff (cur : UInt32) (hcur : cur ∈ players) :
    Terminates (endOrDead players) (advance players) (players.next? cur) ↔
      ∃ id, Alive players id := by
  rw [terminates_iff]
  constructor
  · rintro ⟨fuel, it, hr⟩
    by_contra hdead
    simp [walk_diverges players cur hdead fuel] at hr
  · intro hex
    obtain ⟨dst, hnext⟩ := exists_next_alive players cur hex
    exact ⟨_, _, walk_reaches players cur dst hcur hnext⟩

/-- The loop of `NextTurn` ends, for some number of passes, exactly when the number the
model allows is enough. -/
theorem nextTurn_hang_iff (s : Server) (hcur : s.currentPlayerTurn ∈ s.players) :
    runWhile (endOrDead s.players) (advance s.players) (2 * s.players.size + 1)
        (s.players.next? s.currentPlayerTurn) = none ↔
      ¬ Terminates (endOrDead s.players) (advance s.players)
        (s.players.next? s.currentPlayerTurn) := by
  rw [walk_terminates_iff s.players s.currentPlayerTurn hcur]
  constructor
  · intro hn hex
    obtain ⟨dst, hdst⟩ := exists_next_alive s.players s.currentPlayerTurn hex
    simp [walk_reaches s.players _ dst hcur hdst] at hn
  · exact fun hdead ↦ walk_diverges s.players _ hdead _

/-! ### `NextTurn` and `GameOver` -/

/-- `GameOver` ends the game and hands out no turn. -/
theorem gameOver_does (s : Server) (id : UInt32) (h : id ∈ s.players) :
    Does (gameOver id) s (.ok ()) { s with gameState := .gsGameOver }
      [⟨.enter (.gameOver id), s⟩,
        ⟨.send .all (.updateGameState .gsGameOver none),
          { s with gameState := .gsGameOver }⟩] := by
  obtain ⟨player, hp⟩ := (s.players.mem_iff_find? id).mp h
  exact (does_emit _ s).bind <| (does_update _ s).bind <|
    (does_getPlayer id player { s with gameState := .gsGameOver } hp).bind <|
    (does_broadcastMessage _ _).bind <| does_send _ _ _

/-- A turn goes to the stored address of the current player. -/
theorem sendTakeTurn_does (s : Server) (systemAddress : SystemAddress)
    (h : s.playerAddresses.find? s.currentPlayerTurn = some systemAddress) :
    Does sendTakeTurn s (.ok ()) s [⟨.send (.system systemAddress) .takeTurn, s⟩] :=
  (does_getServer s).bind <| (does_getAddressFromID _ systemAddress s h).bind <|
    does_send _ _ s

theorem sendTakeTurn_aborts (s : Server) (h : s.currentPlayerTurn ∉ s.playerAddresses) :
    Does sendTakeTurn s (.error (.abort (.getAddressFromID s.currentPlayerTurn))) s [] :=
  (does_getServer s).bind (does_getAddressFromID_none _ s h).bind_error

/-- What `NextTurn` can do from `s`. -/
inductive NextTurnDoes (s : Server) : Except Halt Unit → Server → List Effect → Prop
  | unset (hcur : s.currentPlayerTurn ∉ s.players) :
    NextTurnDoes s (.error (.abort .advanceEnd)) s []
  | hangs (hcur : s.currentPlayerTurn ∈ s.players)
      (hdead : ¬ ∃ id, Alive s.players id) :
    NextTurnDoes s (.error .hang) s []
  | ends (hcur : s.currentPlayerTurn ∈ s.players) (id : UInt32)
      (hnext : Next (Alive s.players) s.currentPlayerTurn id) (hone : s.living = 1) :
    NextTurnDoes s (.ok ()) { s with currentPlayerTurn := id, gameState := .gsGameOver }
      [⟨.enter (.gameOver id), { s with currentPlayerTurn := id }⟩,
        ⟨.send .all (.updateGameState .gsGameOver none),
          { s with currentPlayerTurn := id, gameState := .gsGameOver }⟩]
  | passes (hcur : s.currentPlayerTurn ∈ s.players) (id : UInt32)
      (hnext : Next (Alive s.players) s.currentPlayerTurn id) (hmany : s.living ≠ 1)
      (systemAddress : SystemAddress)
      (haddr : s.playerAddresses.find? id = some systemAddress) :
    NextTurnDoes s (.ok ()) { s with currentPlayerTurn := id }
      [⟨.send (.system systemAddress) .takeTurn, { s with currentPlayerTurn := id }⟩]
  | lost (hcur : s.currentPlayerTurn ∈ s.players) (id : UInt32)
      (hnext : Next (Alive s.players) s.currentPlayerTurn id) (hmany : s.living ≠ 1)
      (haddr : id ∉ s.playerAddresses) :
    NextTurnDoes s (.error (.abort (.getAddressFromID id))) { s with currentPlayerTurn := id } []

/-- `NextTurn` calls nothing but `GameOver`. -/
theorem NextTurnDoes.not_entered {s s' : Server} {r : Except Halt Unit} {es : List Effect}
    (h : NextTurnDoes s r s' es) (routine : Routine) (hover : ∀ id, routine ≠ .gameOver id)
    (t : Server) : (routine, t) ∉ entries es := by
  cases h <;> simp [hover]

/-- `NextTurn` makes the next living player the current one, and goes on from there. -/
theorem nextTurn_advances (s : Server) (hcur : s.currentPlayerTurn ∈ s.players) (id : UInt32)
    (hnext : Next (Alive s.players) s.currentPlayerTurn id) (player : Player)
    (hp : s.players.find? id = some player) {r : Except Halt Unit} {s' : Server}
    {es : List Effect}
    (hrest : Does (if s.living = 1 then gameOver id else do
        broadcastMessage (snprintf 256 (player.name.bytes ++ ascii "'s turn"))
        sendTakeTurn) { s with currentPlayerTurn := id } r s' es) :
    Does nextTurn s r s' (⟨.enter .nextTurn, s⟩ :: es) := by
  have hfind := does_findPlayer s.currentPlayerTurn s
  rw [if_pos hcur] at hfind
  apply (does_emit _ s).bind
  apply (does_getServer s).bind
  apply hfind.bind
  apply (does_increment_some _ s).bind
  apply (does_getServer s).bind
  simp only [walk_reaches s.players _ id hcur hnext]
  apply (does_deref_some id player s hp).bind
  apply (does_update _ s).bind
  apply (does_getServer _).bind
  exact hrest

/-- `NextTurn` does one of these things, after recording the call. -/
theorem nextTurn_does (s : Server) : ∃ r s' es, NextTurnDoes s r s' es ∧
    Does nextTurn s r s' (⟨.enter .nextTurn, s⟩ :: es) := by
  have hfind := does_findPlayer s.currentPlayerTurn s
  by_cases hcur : s.currentPlayerTurn ∈ s.players
  · rw [if_pos hcur] at hfind
    by_cases hex : ∃ id, Alive s.players id
    · obtain ⟨id, hnext⟩ := exists_next_alive s.players s.currentPlayerTurn hex
      obtain ⟨player, hp, _⟩ := hnext.living
      by_cases hone : s.living = 1
      · refine ⟨_, _, _, .ends hcur id hnext hone, ?_⟩
        apply nextTurn_advances s hcur id hnext player hp
        rw [if_pos hone]
        exact gameOver_does { s with currentPlayerTurn := id } id hnext.living.mem
      · by_cases haddr : id ∈ s.playerAddresses
        · obtain ⟨systemAddress, haddr⟩ := (s.playerAddresses.mem_iff_find? id).mp haddr
          refine ⟨_, _, _, .passes hcur id hnext hone systemAddress haddr, ?_⟩
          apply nextTurn_advances s hcur id hnext player hp
          rw [if_neg hone]
          apply (does_broadcastMessage _ _).bind
          exact sendTakeTurn_does { s with currentPlayerTurn := id } systemAddress haddr
        · refine ⟨_, _, _, .lost hcur id hnext hone haddr, ?_⟩
          apply nextTurn_advances s hcur id hnext player hp
          rw [if_neg hone]
          apply (does_broadcastMessage _ _).bind
          exact sendTakeTurn_aborts { s with currentPlayerTurn := id } haddr
    · refine ⟨_, _, _, .hangs hcur hex, ?_⟩
      apply (does_emit _ s).bind
      apply (does_getServer s).bind
      apply hfind.bind
      apply (does_increment_some _ s).bind
      apply (does_getServer s).bind
      simp only [walk_diverges s.players s.currentPlayerTurn hex]
      exact Does.throw _ s
  · rw [if_neg hcur] at hfind
    refine ⟨_, _, _, .unset hcur, ?_⟩
    apply (does_emit _ s).bind
    apply (does_getServer s).bind
    apply hfind.bind
    exact (does_increment_none s).bind_error

end RRPG
