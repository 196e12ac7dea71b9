import RRPG.Server.Packets

/-!
# Health and death

A packet leaves every name, health and dead flag alone, adds a fresh player, or is an action
that strikes its target. `ModifyHealth` never clears a dead flag, so a dead player who is
healed above zero stays dead: the flag means what the health says exactly in the runs where
that does not happen.
-/

open RRPG.Base RRPG.Base.Handler

namespace RRPG

/-! ### What a packet does to the players -/

/-- A change of players that keeps their names, health and dead flags. -/
def Harmless (g : UInt32 → Player → Player) : Prop :=
  ∀ id player, (g id player).name = player.name ∧ (g id player).health = player.health ∧
    (g id player).dead = player.dead

/-- The packet is an action of a registered player that adds `diff` to the health of the
player `id`. -/
structure Strikes (S : Setup) (c : Chance) (p : Packet) (s : Server) (id : UInt32)
    (player : Player) (diff : Int) : Prop where
  kind : p.kind = some .cActionTaken
  sender : S.id p ∈ s.players
  target : target? S c p s = some id
  find : s.players.find? id = some player
  amount : diff? S c p = some diff

/-- What a packet can do to the players. -/
inductive PlayersChange (S : Setup) (c : Chance) (p : Packet) (s : Server) :
    OrdMap UInt32 Player → Prop
  | joined (hk : p.kind = some .cIntro) :
    PlayersChange S c p s
      (s.players.emplace (S.id p) { name := (S.decodeString 256 p.payload).1 })
  | kept (hno : ∀ id player diff, ¬ Strikes S c p s id player diff)
      (g : UInt32 → Player → Player) (hg : Harmless g) :
    PlayersChange S c p s (s.players.mapVal g)
  | struck (id : UInt32) (player : Player) (diff : Int)
      (h : Strikes S c p s id player diff) :
    PlayersChange S c p s (s.players.adjust id (·.struck diff))

/-- An action strikes one player by one amount. -/
theorem Strikes.unique {S : Setup} {c : Chance} {p : Packet} {s : Server} {id id' : UInt32}
    {player player' : Player} {diff diff' : Int} (h : Strikes S c p s id player diff)
    (h' : Strikes S c p s id' player' diff') : id = id' ∧ player = player' ∧ diff = diff' := by
  obtain rfl := Option.some.inj (h.target.symm.trans h'.target)
  exact ⟨rfl, Option.some.inj (h.find.symm.trans h'.find),
    Option.some.inj (h.amount.symm.trans h'.amount)⟩

theorem NextTurnDoes.players {s s' : Server} {r : Except Halt Unit} {es : List Effect}
    (h : NextTurnDoes s r s' es) : s'.players = s.players := by
  cases h <;> rfl

theorem ChosenDoes.players {s s' : Server} {r : Except Halt Unit} {es : List Effect}
    (h : ChosenDoes s r s' es) : s'.players = s.players := by
  cases h with
  | starts hcur hnext r s' es hturn => exact hturn.players
  | _ => rfl

theorem StartGameDoes.players {s s' : Server} {r : Except Halt Unit} {es : List Effect}
    (h : StartGameDoes s r s' es) :
    s'.players = s.players.mapVal fun _ player ↦ { player with ready := false } := by
  cases h <;> rfl

theorem harmless_adjust (id : UInt32) (f : Player → Player)
    (hf : ∀ player, (f player).name = player.name ∧ (f player).health = player.health ∧
      (f player).dead = player.dead) :
    Harmless fun j player ↦ if j = id then f player else player := by
  intro j player
  dsimp only
  split
  · exact hf player
  · exact ⟨rfl, rfl, rfl⟩

/-- Every packet does one of these things to the players. -/
theorem Handled.playersChange {S : Setup} {c : Chance} {p : Packet} {s s' : Server}
    {r : Except Halt Unit} {es : List Effect} (h : Handled S c p s r s' es) :
    PlayersChange S c p s s'.players := by
  have hself (hno : ∀ id player diff, ¬ Strikes S c p s id player diff) :
      PlayersChange S c p s s.players := by
    have := PlayersChange.kept hno (fun _ player ↦ player) fun _ _ ↦ ⟨rfl, rfl, rfl⟩
    rwa [OrdMap.mapVal_self] at this
  have hkind (hk : p.kind ≠ some .cActionTaken) (id : UInt32) (player : Player) (diff : Int) :
      ¬ Strikes S c p s id player diff := fun h ↦ hk h.kind
  have hready (hk : p.kind ≠ some .cActionTaken) (b : Bool) : PlayersChange S c p s
      (s.withPlayer (S.id p) (·.withReady b)).players :=
    .kept (hkind hk) _ (harmless_adjust (S.id p) (·.withReady b) fun _ ↦ ⟨rfl, rfl, rfl⟩)
  cases h with
  | malformed hid => exact hself (hkind (by simp [Packet.kind, hid]))
  | counted i hlow =>
    refine hself (hkind fun hk ↦ ?_)
    simp [p.lowLevel_of_kind _ hk] at hlow
  | quiet hlow hk =>
    refine hself (hkind fun hk' ↦ ?_)
    simp [hk'] at hk
  | chats hk hsender => exact hself (hkind (by simp [hk]))
  | stranger k hk hneeds hsender => exact hself fun _ _ _ h ↦ hsender h.sender
  | joins hk => exact .joined hk
  | readies hk hsender hwait => exact hready (by simp [hk]) true
  | starts hk hsender hall r s' es hstart =>
    rw [hstart.players]
    have hcomp : (s.withPlayer (S.id p) (·.withReady true)).players.mapVal
        (fun _ player ↦ { player with ready := false }) =
        s.players.mapVal fun _ player ↦ { player with ready := false } := by
      apply OrdMap.ext_find?
      intro k
      by_cases hk : k = S.id p <;> simp [OrdMap.find?_adjust, hk, Player.withReady,
        Option.map_map, Function.comp_def]
    rw [hcomp]
    exact .kept (hkind (by simp [hk])) _ fun _ _ ↦ ⟨rfl, rfl, rfl⟩
  | unreadies hk hsender => exact hready (by simp [hk]) false
  | chooses hk hsender r s' es hchosen =>
    rw [hchosen.players]
    exact .kept (hkind (by simp [hk])) _
      (harmless_adjust (S.id p) (·.chosen p) fun _ ↦ ⟨rfl, rfl, rfl⟩)
  | misses hk hsender htarget =>
    apply hself
    intro _ _ _ h
    have := h.target
    simp [htarget] at this
  | acts hk hsender id player htarget hp r s' es hturn =>
    rw [hturn.players]
    unfold Server.acted
    cases hdiff : diff? S c p with
    | none =>
      apply hself
      intro _ _ _ h
      have := h.amount
      simp [hdiff] at this
    | some diff => exact .struck id player diff ⟨hk, hsender, htarget, hp, hdiff⟩

/-! ### Dead means no health left -/

/-- The dead flag says what the health says. -/
def Player.Sound (player : Player) : Prop := player.dead = true ↔ player.health ≤ 0

/-- Every registered player's flag is sound. -/
def Server.Sound (s : Server) : Prop := ∀ id player, s.players.find? id = some player →
  player.Sound

/-- The packet is an action that leaves a dead target with health. -/
def Revives (S : Setup) (c : Chance) (p : Packet) (s : Server) : Prop :=
  ∃ id player diff, Strikes S c p s id player diff ∧ player.dead = true ∧
    0 < int32 (player.health + diff)

/-- A struck player's flag is sound unless the strike leaves a dead player with health. -/
theorem Player.struck_sound (player : Player) (diff : Int) :
    (player.struck diff).Sound ↔
      ¬ (player.dead = true ∧ 0 < int32 (player.health + diff)) := by
  unfold Sound
  simp only [struck, Bool.or_eq_true, decide_eq_true_eq]
  constructor
  · rintro hs ⟨hd, hpos⟩
    have := hs.mp (Or.inl hd)
    omega
  · intro hs
    constructor
    · rintro (hd | hle)
      · by_contra hpos
        exact hs ⟨hd, by omega⟩
      · exact hle
    · exact Or.inr

/-- A packet keeps all flags sound exactly when it does not revive a dead player. -/
theorem Handled.sound_iff {S : Setup} {c : Chance} {p : Packet} {s s' : Server}
    {r : Except Halt Unit} {es : List Effect} (h : Handled S c p s r s' es) (hs : s.Sound) :
    s'.Sound ↔ ¬ Revives S c p s := by
  have hchange := h.playersChange
  unfold Server.Sound
  generalize s'.players = players at hchange
  cases hchange with
  | joined hk =>
    constructor
    · rintro _ ⟨_, _, _, hstrike, _⟩
      simpa [hk] using hstrike.kind
    · intro _ id player hp
      rw [OrdMap.find?_emplace] at hp
      split at hp
      · obtain rfl := Option.some.inj hp
        simp [Player.Sound]
      · exact hs id player hp
  | kept hno g hg =>
    constructor
    · rintro _ ⟨id, player, diff, hstrike, _⟩
      exact hno id player diff hstrike
    · intro _ id player hp
      rw [OrdMap.find?_mapVal, Option.map_eq_some_iff] at hp
      obtain ⟨q, hq, rfl⟩ := hp
      obtain ⟨_, hhealth, hdead⟩ := hg id q
      unfold Player.Sound
      rw [hhealth, hdead]
      exact hs id q hq
  | struck id player diff hstrike =>
    have hrev : Revives S c p s ↔ player.dead = true ∧ 0 < int32 (player.health + diff) := by
      constructor
      · rintro ⟨id', player', diff', hstrike', hd⟩
        obtain ⟨rfl, rfl, rfl⟩ := hstrike.unique hstrike'
        exact hd
      · exact fun hd ↦ ⟨id, player, diff, hstrike, hd⟩
    rw [hrev, ← player.struck_sound diff]
    constructor
    · intro h
      exact h id _ (by simp [hstrike.find])
    · intro hstruck j q hq
      rw [OrdMap.find?_adjust_of_find? _ _ _ _ hstrike.find] at hq
      split at hq
      · obtain rfl := Option.some.inj hq
        exact hstruck
      · exact hs j q hq

/-- Dead means no health left, in every state of a run, exactly when no action of the run
leaves a dead target with health. -/
theorem dead_iff_no_health (S : Setup) (events : List Event) :
    (∀ pre post, events = pre ++ post → (outcome S pre).2.server.Sound) ↔
      ∀ pre e post w, events = pre ++ e :: post → outcome S pre = (.ok (), w) →
        ¬ Revives S e.chance e.packet w.server := by
  refine run_invariant_iff _ (fun w : World ↦ w.server.Sound)
    (fun (e : Event) w ↦ ¬ Revives S e.chance e.packet w.server) events ⟨Server.init, []⟩ ?_ ?_
  · intro id player hp
    simp [Server.init] at hp
  · intro e w hw
    obtain ⟨es, _, hhandled⟩ := handled_of_exec S e.chance e.packet w _ _ rfl
    exact hhandled.sound_iff hw

/-- Three players without names keep to their turns: each attack hits the first of them,
until the second player heals the dead one. -/
def revival : List Event :=
  let round := everybody [1, 2, 3] RRPGId.cActionTaken.byte [2]
  opening [1, 2, 3] ++ round ++ round ++ round ++
    [clientEvent 2 RRPGId.cActionTaken.byte [0]]

/-- The healed player has health left and is dead. -/
theorem revival_unsound : (outcome (.plain 3) revival).1 = .ok () ∧
    ¬ (outcome (.plain 3) revival).2.server.Sound := by
  refine ⟨by decide +kernel, fun hs ↦ ?_⟩
  have hp : (outcome (.plain 3) revival).2.server.players.find? 1 =
      some { name := ⟨[], by simp, by simp⟩, health := 2, ready := true, dead := true } := by
    decide +kernel
  have := hs 1 _ hp
  simp [Player.Sound] at this

end RRPG
