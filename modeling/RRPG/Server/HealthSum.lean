import Mathlib.Algebra.Ring.Int.Defs
import RRPG.Server.TurnSpec

/-!
# Health as a sum

The health of a player is 100 and all amounts applied to it, as a 32-bit `int` holds that
sum: nothing caps healing, and a dead player can be struck on. So additions stay in range as
long as the sum does, which takes at least 119304653 actions on one player to leave it.
-/

open RRPG.Base RRPG.Base.Handler

namespace RRPG

/-- A value a 32-bit `int` can hold. -/
def InInt32 (x : Int) : Prop := -2 ^ 31 ≤ x ∧ x < 2 ^ 31

/-- Sums are determined by their last 32 bits. -/
theorem int32_add (x y : Int) : int32 (int32 x + y) = int32 (x + y) := Int.bmod_add_bmod

variable (S : Setup)

/-! ### The amounts applied -/

/-- What the packet adds to the health of the player, if it is an action on it. -/
def applied? (e : Event) (s : Server) (id : UInt32) : Option Int :=
  if e.packet.kind = some .cActionTaken ∧ S.id e.packet ∈ s.players ∧
      target? S e.chance e.packet s = some id then diff? S e.chance e.packet
  else none

/-- The amounts applied to a player in a run given backwards. -/
def amountsOf (id : UInt32) : List Event → List Int
  | [] => []
  | e :: earlier =>
    match outcome S earlier.reverse with
    | (.ok (), w) => (applied? S e w.server id).toList ++ amountsOf id earlier
    | (.error _, _) => amountsOf id earlier

/-- The amounts applied to a player in a run, the latest first. -/
def amounts (events : List Event) (id : UInt32) : List Int := amountsOf S id events.reverse

/-- The true sum of 100 and all amounts applied to a player. -/
def total (events : List Event) (id : UInt32) : Int := 100 + (amounts S events id).sum

theorem applied?_eq_some (e : Event) (s : Server) (id : UInt32) (diff : Int) :
    applied? S e s id = some diff ↔ ∃ player, Strikes S e.chance e.packet s id player diff := by
  unfold applied?
  constructor
  · intro h
    split at h
    · next hif =>
      obtain ⟨hk, hsender, htarget⟩ := hif
      obtain ⟨player, hp, _⟩ := target?_eq_some S e.chance e.packet s id htarget
      exact ⟨player, hk, hsender, htarget, hp, h⟩
    · cases h
  · rintro ⟨player, hstrike⟩
    rw [if_pos ⟨hstrike.kind, hstrike.sender, hstrike.target⟩, hstrike.amount]

theorem applied?_eq_none (e : Event) (s : Server) (id : UInt32)
    (h : ∀ player diff, ¬ Strikes S e.chance e.packet s id player diff) :
    applied? S e s id = none := by
  rw [Option.eq_none_iff_forall_not_mem]
  intro diff hdiff
  obtain ⟨player, hstrike⟩ := (applied?_eq_some S e s id diff).mp hdiff
  exact h player diff hstrike

theorem amounts_concat (events : List Event) (e : Event) (w : World) (id : UInt32)
    (h : outcome S events = (.ok (), w)) :
    amounts S (events ++ [e]) id = (applied? S e w.server id).toList ++ amounts S events id := by
  simp [amounts, amountsOf, h]

theorem amounts_concat_error (events : List Event) (e : Event) (halt : Halt) (w : World)
    (id : UInt32) (h : outcome S events = (.error halt, w)) :
    amounts S (events ++ [e]) id = amounts S events id := by
  simp [amounts, amountsOf, h]

theorem total_concat (events : List Event) (e : Event) (w : World) (id : UInt32)
    (h : outcome S events = (.ok (), w)) :
    total S (events ++ [e]) id = total S events id + (applied? S e w.server id).getD 0 := by
  unfold total
  rw [amounts_concat S events e w id h]
  cases applied? S e w.server id with
  | none => simp
  | some diff =>
    simp
    omega

theorem total_strikes (pre : List Event) (e : Event) (w : World) (id : UInt32) (player : Player)
    (diff : Int) (hw : outcome S pre = (.ok (), w))
    (hstrike : Strikes S e.chance e.packet w.server id player diff) :
    total S (pre ++ [e]) id = total S pre id + diff := by
  rw [total_concat S pre e w id hw, (applied?_eq_some S e w.server id diff).mpr ⟨player, hstrike⟩]
  rfl

/-- Every amount is that of an action. -/
theorem amounts_mem (events : List Event) (id : UInt32) :
    ∀ diff ∈ amounts S events id, -18 ≤ diff ∧ diff ≤ 15 := by
  induction events using List.reverseRecOn with
  | nil => simp [amounts, amountsOf]
  | append_singleton events e ih =>
    rcases hw : outcome S events with ⟨halt | u, w⟩
    · rwa [amounts_concat_error S events e halt w id hw]
    · rw [amounts_concat S events e w id hw]
      intro diff hdiff
      rw [List.mem_append, Option.mem_toList] at hdiff
      rcases hdiff with hdiff | hdiff
      · obtain ⟨_, hstrike⟩ := (applied?_eq_some S e w.server id diff).mp hdiff
        obtain ⟨action, _, rfl⟩ := Option.map_eq_some_iff.mp hstrike.amount
        exact action.amount_mem e.chance
      · exact ih diff hdiff

/-- In a longer run at least as many amounts are applied. -/
theorem length_amounts_le (pre post : List Event) (id : UInt32) :
    (amounts S pre id).length ≤ (amounts S (pre ++ post) id).length := by
  induction post using List.reverseRecOn with
  | nil => simp
  | append_singleton post e ih =>
    rw [← List.append_assoc]
    rcases hw : outcome S (pre ++ post) with ⟨halt | u, w⟩
    · rwa [amounts_concat_error S _ e halt w id hw]
    · rw [amounts_concat S _ e w id hw, List.length_append]
      omega

/-- So many amounts move the sum only so far. -/
theorem sum_bounds (diffs : List Int) (h : ∀ diff ∈ diffs, -18 ≤ diff ∧ diff ≤ 15) :
    -18 * diffs.length ≤ diffs.sum ∧ diffs.sum ≤ 15 * diffs.length := by
  induction diffs with
  | nil => simp
  | cons diff diffs ih =>
    have hfirst := h diff (.head _)
    have hrest := ih fun diff hdiff ↦ h diff (.tail _ hdiff)
    rw [List.sum_cons, List.length_cons]
    omega

/-! ### Health is the sum, as far as 32 bits tell -/

/-- The stored health of a player is its sum, wrapped; nothing has been applied to somebody who
is not registered. -/
structure HealthSum (events : List Event) (players : OrdMap UInt32 Player) (id : UInt32) :
    Prop where
  health : ∀ player, players.find? id = some player → player.health = int32 (total S events id)
  unknown : id ∉ players → amounts S events id = []

/-- A packet that does not strike the player keeps the sum. -/
theorem HealthSum.kept {events : List Event} {e : Event} {w : World}
    {players : OrdMap UInt32 Player} {id : UInt32}
    (h : HealthSum S events w.server.players id) (hw : outcome S events = (.ok (), w))
    (hno : ∀ player diff, ¬ Strikes S e.chance e.packet w.server id player diff)
    (hkept : (players.find? id).map Player.health =
      (w.server.players.find? id).map Player.health) :
    HealthSum S (events ++ [e]) players id := by
  have hamounts : amounts S (events ++ [e]) id = amounts S events id := by
    rw [amounts_concat S events e w id hw, applied?_eq_none S e w.server id hno]
    rfl
  constructor
  · intro player hp
    rw [hp, Option.map_some] at hkept
    obtain ⟨before, hbefore, hhealth⟩ := Option.map_eq_some_iff.mp hkept.symm
    rw [total, hamounts, ← hhealth]
    exact h.health before hbefore
  · intro hid
    rw [← OrdMap.find?_eq_none] at hid
    rw [hid, Option.map_none] at hkept
    rw [hamounts]
    apply h.unknown
    rw [← OrdMap.find?_eq_none]
    exact Option.map_eq_none_iff.mp hkept.symm

theorem HealthSum.handled {events : List Event} {e : Event} {w : World} {s' : Server}
    {r : Except Halt Unit} {es : List Effect}
    (hs : ∀ id, HealthSum S events w.server.players id) (hw : outcome S events = (.ok (), w))
    (h : Handled S e.chance e.packet w.server r s' es) (id : UInt32) :
    HealthSum S (events ++ [e]) s'.players id := by
  have hchange := h.playersChange
  generalize s'.players = players at hchange
  cases hchange with
  | joined hk =>
    have hno (id : UInt32) (player : Player) (diff : Int) :
        ¬ Strikes S e.chance e.packet w.server id player diff := by
      intro hstrike
      simpa [hk] using hstrike.kind
    by_cases hnew : id = S.id e.packet ∧ S.id e.packet ∉ w.server.players
    · have hamounts : amounts S (events ++ [e]) id = [] := by
        rw [amounts_concat S events e w id hw, applied?_eq_none S e w.server id (hno id),
          (hs id).unknown (hnew.1 ▸ hnew.2)]
        rfl
      refine ⟨fun player hp ↦ ?_, fun _ ↦ hamounts⟩
      rw [OrdMap.find?_emplace, if_pos hnew] at hp
      obtain rfl := Option.some.inj hp
      rw [total, hamounts]
      rfl
    · exact (hs id).kept S hw (hno id) (by rw [OrdMap.find?_emplace, if_neg hnew])
  | kept hno g hg =>
    apply (hs id).kept S hw (hno id)
    rw [OrdMap.find?_mapVal, Option.map_map]
    congr 1
    funext player
    exact (hg id player).2.1
  | struck target player diff hstrike =>
    by_cases hid : id = target
    · subst hid
      constructor
      · intro q hq
        rw [OrdMap.find?_adjust_of_find? _ _ _ _ hstrike.find, if_pos rfl] at hq
        obtain rfl := Option.some.inj hq
        show int32 (player.health + diff) = _
        rw [total_strikes S events e w id player diff hw hstrike,
          (hs id).health player hstrike.find, int32_add]
      · intro hnot
        rw [OrdMap.mem_adjust] at hnot
        exact absurd ((OrdMap.mem_iff_find? _ _).mpr ⟨player, hstrike.find⟩) hnot
    · apply (hs id).kept S hw
      · intro player' diff' hstrike'
        exact hid (hstrike'.unique hstrike).1
      · rw [OrdMap.find?_adjust, if_neg hid]

/-- In every state of a run. -/
theorem healthSums (events : List Event) (id : UInt32) :
    HealthSum S events (outcome S events).2.server.players id := by
  induction events using List.reverseRecOn generalizing id with
  | nil =>
    refine ⟨fun player hp ↦ ?_, fun _ ↦ rfl⟩
    simp [outcome, serve, Server.init] at hp
  | append_singleton events e ih =>
    rcases hw : outcome S events with ⟨halt | u, w⟩
    · rw [hw] at ih
      rw [outcome_concat_error S events e halt w hw]
      have hamounts := amounts_concat_error S events e halt w id hw
      constructor
      · rw [total, hamounts]
        exact (ih id).health
      · rw [hamounts]
        exact (ih id).unknown
    · rw [hw] at ih
      obtain ⟨r, w', es, hconcat, _, hhandled⟩ := handled_of_outcome S events e w hw
      rw [hconcat]
      exact HealthSum.handled S ih hw hhandled id

/-! ### Overflow -/

theorem NextTurnDoes.hps_eq_nil {s s' : Server} {r : Except Halt Unit} {es : List Effect}
    (h : NextTurnDoes s r s' es) : hps es = [] := by
  cases h <;> rfl

/-- The addition an action makes stays in range, and what is then stored, reported and tested
is about the true sum. -/
structure AddsUp (pre : List Event) (e : Event) (w : World) (id : UInt32) (player : Player)
    (diff : Int) : Prop where
  inRange : InInt32 (player.health + diff)
  sum : player.health + diff = total S (pre ++ [e]) id
  reported : ∃ es, (outcome S (pre ++ [e])).2.trace = w.trace ++ es ∧
    hps es = [(player.name, total S (pre ++ [e]) id)]
  tested : (outcome S (pre ++ [e])).2.server.players.find? id = some { player with
    health := total S (pre ++ [e]) id
    dead := player.dead || decide (total S (pre ++ [e]) id ≤ 0) }

/-- Every action of a run adds up. -/
def NeverOverflows (events : List Event) : Prop :=
  ∀ pre e post w id player diff, events = pre ++ e :: post → outcome S pre = (.ok (), w) →
    Strikes S e.chance e.packet w.server id player diff → AddsUp S pre e w id player diff

/-- An action adds up if the true sum is in range before and after it. -/
theorem addsUp_of_total (pre : List Event) (e : Event) (w : World) (id : UInt32)
    (player : Player) (diff : Int) (hw : outcome S pre = (.ok (), w))
    (hstrike : Strikes S e.chance e.packet w.server id player diff)
    (hbefore : InInt32 (total S pre id)) (hafter : InInt32 (total S (pre ++ [e]) id)) :
    AddsUp S pre e w id player diff := by
  have hsum := healthSums S pre id
  rw [hw] at hsum
  have hhealth := hsum.health player hstrike.find
  rw [int32_eq_self _ hbefore.1 hbefore.2] at hhealth
  have htotal := total_strikes S pre e w id player diff hw hstrike
  rw [← hhealth] at htotal
  have hstruck : player.struck diff = { player with
      health := total S (pre ++ [e]) id
      dead := player.dead || decide (total S (pre ++ [e]) id ≤ 0) } := by
    rw [htotal] at hafter ⊢
    exact player.struck_eq diff hafter.1 hafter.2
  obtain ⟨r, w', es, hconcat, htrace, hhandled⟩ := handled_of_outcome S pre e w hw
  have hacted : w.server.acted S e.chance e.packet id = w.server.withPlayer id (·.struck diff) := by
    rw [Server.acted, hstrike.amount]
  rcases hhandled.of_action_taken hstrike.kind hstrike.sender with
    ⟨hnone, _⟩ | ⟨id', player', es', htarget, hfind, hturn, hes⟩
  · rw [hstrike.target] at hnone
    cases hnone
  · obtain rfl := Option.some.inj (hstrike.target.symm.trans htarget)
    obtain rfl := Option.some.inj (hstrike.find.symm.trans hfind)
    refine ⟨htotal ▸ hafter, htotal.symm, ?_, ?_⟩
    · refine ⟨es, by rw [hconcat, htrace], ?_⟩
      rw [← hps_core, hes, actionReport, hstrike.amount]
      show (player.name, (player.struck diff).health) :: hps es' = _
      rw [hstruck, hturn.hps_eq_nil]
    · rw [hconcat, hturn.players, hacted, ← hstruck]
      show (w.server.players.adjust id (·.struck diff)).find? id = _
      rw [OrdMap.find?_adjust_of_find? _ _ _ _ hstrike.find, if_pos rfl]

/-- In a run whose additions stay in range the true sums do. -/
theorem NeverOverflows.total_inInt32 {events : List Event} (h : NeverOverflows S events)
    (pre post : List Event) (id : UInt32) (hsplit : events = pre ++ post) :
    InInt32 (total S pre id) := by
  induction pre using List.reverseRecOn generalizing post with
  | nil =>
    show InInt32 100
    exact ⟨by decide, by decide⟩
  | append_singleton pre e ih =>
    have hsplit' : events = pre ++ e :: post := by rw [hsplit, List.append_assoc]; rfl
    have hbefore := ih (e :: post) hsplit'
    rcases hw : outcome S pre with ⟨halt | u, w⟩
    · rwa [total, amounts_concat_error S pre e halt w id hw]
    · cases happlied : applied? S e w.server id with
      | none =>
        rw [total_concat S pre e w id hw, happlied]
        simpa using hbefore
      | some diff =>
        obtain ⟨player, hstrike⟩ := (applied?_eq_some S e w.server id diff).mp happlied
        have hadds := h pre e post w id player diff hsplit' hw hstrike
        rw [← hadds.sum]
        exact hadds.inRange

/-- So few amounts leave the sum in range. -/
theorem total_inInt32 (events : List Event) (id : UInt32)
    (h : (amounts S events id).length ≤ 119304652) : InInt32 (total S events id) := by
  have hbounds := sum_bounds (amounts S events id) (amounts_mem S events id)
  unfold InInt32 total
  omega

/-- The additions of a run stay in range, and what is stored, reported and tested is about the
true sums, exactly as long as those are in range; and they are if no player is the target of
more than 119304652 actions. -/
theorem neverOverflows_iff (events : List Event) :
    (NeverOverflows S events ↔
      ∀ pre post id, events = pre ++ post → InInt32 (total S pre id)) ∧
    ((∀ id, (amounts S events id).length ≤ 119304652) → NeverOverflows S events) := by
  have hsums (h : ∀ pre post id, events = pre ++ post → InInt32 (total S pre id)) :
      NeverOverflows S events := by
    intro pre e post w id player diff hsplit hw hstrike
    exact addsUp_of_total S pre e w id player diff hw hstrike (h pre (e :: post) id hsplit)
      (h (pre ++ [e]) post id (by rw [hsplit, List.append_assoc]; rfl))
  refine ⟨⟨fun h pre post id ↦ h.total_inInt32 S pre post id, hsums⟩, fun hcount ↦ hsums ?_⟩
  intro pre post id hsplit
  apply total_inInt32
  have hle := length_amounts_le S pre post id
  rw [← hsplit] at hle
  exact Nat.le_trans hle (hcount id)

/-- The first of two players without names heals itself. -/
def selfHeal : Event := clientEvent 1 RRPGId.cActionTaken.byte [0]

/-- It does so again and again in the main game. -/
def healed (n : Nat) : List Event := opening [1, 2] ++ List.replicate n selfHeal

theorem healed_succ (n : Nat) : healed (n + 1) = healed n ++ [selfHeal] := by
  rw [healed, List.replicate_succ', ← List.append_assoc, healed]

/-- The world when the main game starts. -/
def mainGame : World := (outcome (.plain 2) (opening [1, 2])).2

/-- Under the names the game has started with, it heals the first player by 10. -/
theorem selfHeal_strikes (s : Server) (h : SameNames mainGame.server s) :
    ∃ player, Strikes (.plain 2) selfHeal.chance selfHeal.packet s 1 player 10 := by
  have hsender : (Setup.plain 2).id selfHeal.packet ∈ s.players :=
    (h.mem _).mpr (by decide +kernel)
  have htarget : target? (.plain 2) selfHeal.chance selfHeal.packet s = some 1 := by
    rw [h.target?_eq]
    decide +kernel
  obtain ⟨player, hp, _⟩ := target?_eq_some _ _ _ s 1 htarget
  exact ⟨player, by decide +kernel, hsender, htarget, hp, by decide +kernel⟩

/-- As long as the health stays in range every heal is handled, and adds 10. -/
theorem healed_playing (n : Nat) (hn : n ≤ 214748354) :
    ∃ w, outcome (.plain 2) (healed n) = (.ok (), w) ∧ Playing mainGame.server w.server ∧
      total (.plain 2) (healed n) 1 = 100 + 10 * n := by
  induction n with
  | zero =>
    have hgame : outcome (.plain 2) (opening [1, 2]) = (.ok (), mainGame) :=
      Prod.ext (by decide +kernel) rfl
    have hstarted : ∃ t, (.startGame, t) ∈ entries mainGame.trace :=
      exists_entry (by decide +kernel)
    have hzero : healed 0 = opening [1, 2] := List.append_nil _
    rw [hzero]
    have hplaying := playing_of_started (.plain 2) _ mainGame hgame hstarted
    exact ⟨mainGame, hgame, hplaying, by decide +kernel⟩
  | succ n ih =>
    obtain ⟨w, hw, hplaying, htotal⟩ := ih (by omega)
    obtain ⟨player, hstrike⟩ := selfHeal_strikes w.server hplaying.names
    have hsum := healthSums (.plain 2) (healed n) 1
    rw [hw] at hsum
    have hhealth := hsum.health player hstrike.find
    rw [htotal, int32_eq_self _ (by omega) (by omega)] at hhealth
    have hlives : ¬ KillsLast (.plain 2) selfHeal.chance selfHeal.packet w.server := by
      rintro ⟨id, player', diff, hstrike', _, hdead⟩
      obtain ⟨rfl, rfl, rfl⟩ := hstrike.unique hstrike'
      rw [int32_eq_self _ (by omega) (by omega)] at hdead
      omega
    rcases hexec : exec (packetHandler (.plain 2) selfHeal.chance selfHeal.packet) w with ⟨r, w'⟩
    have hpermitted : Permitted (.plain 2) mainGame.server selfHeal :=
      ⟨by decide +kernel, by decide +kernel, fun _ ↦ by decide +kernel⟩
    obtain ⟨rfl, hplaying'⟩ := (hplaying.step hpermitted hexec).1 hlives
    refine ⟨w', ?_, hplaying', ?_⟩
    · rw [healed_succ, outcome_concat _ _ _ w hw, hexec]
    · rw [healed_succ, total_strikes _ _ _ w 1 player 10 hw hstrike, htotal]
      omega

/-- One heal more, and the addition leaves the range. -/
theorem healed_overflows (n : Nat) (hn : n = 214748354) :
    ¬ NeverOverflows (.plain 2) (healed (n + 1)) := by
  intro h
  obtain ⟨w, hw, hplaying, htotal⟩ := healed_playing n (by omega)
  obtain ⟨player, hstrike⟩ := selfHeal_strikes w.server hplaying.names
  have hadds := h (healed n) selfHeal [] w 1 player 10 (healed_succ n) hw hstrike
  have hrange := hadds.inRange
  rw [hadds.sum, total_strikes _ _ _ w 1 player 10 hw hstrike, htotal] at hrange
  have hhi := hrange.2
  omega

/-- The heal number 214748355 leaves the range of a 32-bit `int`. -/
theorem heals_overflow : ¬ NeverOverflows (.plain 2) (healed 214748355) :=
  healed_overflows 214748354 rfl

end RRPG
