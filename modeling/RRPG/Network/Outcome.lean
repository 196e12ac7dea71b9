import RRPG.Network.Play

/-!
# The end of a game

A game that is over has one survivor, the current player. Where no two peers are registered under
the same name, dead means no health left, and the programs that have heard everything show the same
survivor.
-/

open RRPG.Base RRPG.Base.Handler

namespace RRPG

/-- A game that is over was started, and only the current player lives. -/
def Server.Decided (s : Server) : Prop :=
  s.gameState = .gsGameOver → s.networkState = .nsGameStarted ∧
    ∀ j, Alive s.players j ↔ j = s.currentPlayerTurn

section
variable {S : Setup} {c : Chance} {p : Packet} {s s' : Server} {r : Except Halt Unit}
  {es : List Effect}

/-- `NextTurn` ends a game at the last one who lives. -/
theorem NextTurnDoes.decided (h : NextTurnDoes s r s' es) (hgoing : s.gameState ≠ .gsGameOver)
    (hover : s'.gameState = .gsGameOver) (j : UInt32) :
    Alive s'.players j ↔ j = s'.currentPlayerTurn := by
  cases h with
  | ends hcur id hnext hone =>
    obtain ⟨survivor, hsurvivor⟩ := (living_eq_one s).mp hone
    obtain rfl := (hsurvivor id).mp hnext.living
    exact hsurvivor j
  | _ => exact absurd hover hgoing

/-- An answer that ends a game decides it. -/
theorem Handled.answer_decided (h : Handled S c p s r s' es) (hp : p.isAnswer = true)
    (hsender : S.id p ∈ s.players) (hlive : Live s) : s'.Decided := by
  intro hover
  refine ⟨(h.answer_handsOut hp hlive.2).1.trans hlive.1, ?_⟩
  have hkind : p.kind = some .cJobChosen ∨ p.kind = some .cActionTaken := by
    simpa [Packet.isAnswer] using hp
  cases hkind with
  | inl hk =>
    have hchosen := h.of_job_chosen hk hsender
    cases hchosen with
    | starts hcur hnext r s' es hturn => exact hturn.decided (by simp) hover
    | _ => exact absurd hover hlive.2
  | inr hk =>
    rcases h.of_action_taken hk hsender with ⟨_, _, rfl, _⟩ | ⟨id, player, es', _, _, hturn, _⟩
    · exact absurd hover hlive.2
    · exact hturn.decided (by rw [Server.acted_gameState]; exact hlive.2) hover

/-- A game that is over stays decided. -/
theorem Server.Decided.other (hs : s.Decided) (h : Handled S c p s r s' es)
    (hp : p.isAnswer = false)
    (hseason : s.networkState = .nsGameStarted → p.kind ≠ some .cIntro) : s'.Decided := by
  intro hover
  rcases h.other_cases hp with ⟨_, _, hcur, hnet, hstate⟩ | ⟨_, _, hstart⟩
  · obtain ⟨hstarted, halive⟩ := hs (hstate.symm.trans hover)
    obtain ⟨g, hg, hplayers⟩ := h.harmless hp (hseason hstarted)
    refine ⟨hnet.trans hstarted, fun j ↦ ?_⟩
    rw [hplayers, hcur, alive_mapVal _ g hg]
    exact halive j
  · cases hstart <;> simp [Server.started] at hover

/-- The rows of the living are that of the only one. -/
theorem Server.living_rows {id : UInt32} {player : Player}
    (hp : s.players.find? id = some player) (halive : ∀ j, Alive s.players j ↔ j = id) :
    s.rows.filter (fun row ↦ !row.2.2.2) = [player.row] := by
  have honly : s.players.entries.filter (fun e ↦ !e.2.dead) = [(id, player)] := by
    apply List.perm_singleton.mp
    rw [List.perm_ext_iff_of_nodup (s.players.keys_nodup.of_map.filter _) (List.nodup_singleton _)]
    rintro ⟨j, q⟩
    rw [List.mem_filter, List.mem_singleton, ← OrdMap.find?_eq_some, Bool.not_eq_true']
    constructor
    · rintro ⟨hq, hliving⟩
      obtain rfl := (halive j).mp ⟨q, hq, hliving⟩
      rw [Option.some.inj (hq.symm.trans hp)]
    · intro he
      obtain ⟨rfl, rfl⟩ := Prod.mk.inj he
      obtain ⟨q', hq', hliving⟩ := (halive j).mpr rfl
      exact ⟨hp, Option.some.inj (hp.symm.trans hq') ▸ hliving⟩
  have hrow : (fun row : Row ↦ !row.2.2.2) ∘ (fun e : UInt32 × Player ↦ e.2.row) =
      fun e ↦ !e.2.dead := rfl
  rw [Server.rows, List.filter_map, hrow, honly, List.map_singleton]

end

section
variable {S : Setup} {Peer : Type} {C : StringCodec S.toRakNet} {P : Roster S Peer}
  {n n' : Net Peer}

/-- Peers registered under different names are told apart. -/
theorem Roster.Safe.distinct (h : P.Safe C n) (hnames : Function.Injective P.stored) :
    DistinctNames n.world.server := by
  intro id id' player player' hp hp' hsame
  obtain ⟨k, rfl, hname⟩ := h.registered id player hp
  obtain ⟨k', rfl, hname'⟩ := h.registered id' player' hp'
  rw [hnames ((hname.symm.trans hsame).trans hname')]

/-- A step of orderly clients keeps games decided. -/
theorem Roster.Agreed.decided_step [DecidableEq Peer] (hn : P.Agreed C n)
    (hdecided : n.world.server.Decided) (h : Step P.toPeers (honest C P (InSeason S)) n n') :
    n'.world.server.Decided := by
  cases h with
  | serve hrunning k p rest hup hrule c r s' es hexec =>
    have hhandled := handled_of_step S c p n.world r s' es hexec
    have hmem : p ∈ (n.client k).up := hup ▸ List.mem_cons_self
    cases hp : p.isAnswer with
    | true =>
      exact hhandled.answer_decided hp (hn.sender hup (p.asks_of_isAnswer hp)) (hn.live hmem hp)
    | false => exact hdecided.other hhandled hp fun hs ↦ (hrule hs).1
  | _ => exact hdecided

/-- A step of orderly clients with different names keeps the dead flags sound. -/
theorem Roster.Agreed.sound_step [DecidableEq Peer] (hn : P.Agreed C n)
    (hnames : Function.Injective P.stored) (hsound : n.world.server.Sound)
    (h : Step P.toPeers (honest C P (InSeason S)) n n') : n'.world.server.Sound := by
  cases h with
  | serve hrunning k p rest hup hrule c r s' es hexec =>
    apply ((handled_of_step S c p n.world r s' es hexec).sound_iff hsound).mpr
    rintro ⟨id, player, diff, hstrike, hdead, _⟩
    have hanswer : p.isAnswer = true := by simp [Packet.isAnswer, hstrike.kind]
    have hmem : p ∈ (n.client k).up := hup ▸ List.mem_cons_self
    obtain ⟨id', player', htarget, hp, hliving⟩ := (hn.fitting k p hmem hanswer).2 hstrike.kind c
    obtain rfl := Option.some.inj (hstrike.target.symm.trans htarget)
    obtain rfl := Option.some.inj (hstrike.find.symm.trans hp)
    rw [hliving (hn.steady.safe.distinct hnames)] at hdead
    cases hdead
  | _ => exact hsound

end

namespace System

section
variable {S : Setup} {Peer : Type} [DecidableEq Peer] {P : Roster S Peer}
  {C : StringCodec S.toRakNet} {y : System Peer} {k : Peer}

theorem Refines.decided (h : Refines P C (InSeason S) y) : y.net.world.server.Decided :=
  (h.run.invariant (fun n ↦ P.Agreed C n ∧ n.world.server.Decided)
    (fun _ _ hn hstep ↦ ⟨hn.1.step hstep, hn.1.decided_step hn.2 hstep⟩)
    ⟨.init, fun hover ↦ by simp [Net.init, Server.init] at hover⟩).2

theorem Refines.sound (h : Refines P C (InSeason S) y) (hnames : Function.Injective P.stored) :
    y.net.world.server.Sound :=
  (h.run.invariant (fun n ↦ P.Agreed C n ∧ n.world.server.Sound)
    (fun _ _ hn hstep ↦ ⟨hn.1.step hstep, hn.1.sound_step hnames hn.2 hstep⟩)
    ⟨.init, fun id player hp ↦ by simp [Net.init, Server.init] at hp⟩).2

/-- A client that knows a game to be over shows its survivor. -/
theorem shown_survivor {t : GameClient} {s : Server} (hknows : Knows t s)
    (hstarted : s.networkState = .nsGameStarted) (hover : s.gameState = .gsGameOver)
    (hd : DistinctNames s) {id : UInt32} {player : Player}
    (hp : s.players.find? id = some player) (halive : ∀ j, Alive s.players j ↔ j = id) :
    (t.players.filter fun q ↦ !q.dead).map LocalPlayer.name = [player.name.bytes] := by
  have hplayed : ¬ s.Unplayed := by
    rintro (hno | hselect)
    · exact hno hstarted
    · exact absurd (hselect.symm.trans hover) (by simp)
  have hrows : (t.players.filter fun q ↦ !q.dead).map LocalPlayer.row = [player.row] := by
    rw [← Server.living_rows hp halive, ← hknows.rows hplayed hd, List.filter_map]
    rfl
  have hnames := congrArg (List.map Prod.fst) hrows
  rwa [List.map_map] at hnames

end

variable {S : Setup} {Peer : Type} [DecidableEq Peer] (P : Roster S Peer)
  (C : StringCodec S.toRakNet) (moves : List (SystemMove Peer))
  (horderly : Orderly P C (InSeason S) (init P) moves)
include horderly

/-- Where no two peers are registered under the same name, the programs name only the living, so
dead means no health left in every state. -/
theorem nobody_revived (hnames : Function.Injective P.stored) :
    (run P C (init P) moves).net.world.server.Sound :=
  (Refines.init.run_moves moves horderly).sound hnames

/-- When a game is over exactly one peer's player lives, the current one, and no program is on turn.
The programs that have received everything know that it is over, and where no two peers are
registered under the same name all of them show the same survivor. -/
theorem clients_agree_on_survivor
    (hover : (run P C (init P) moves).net.world.server.gameState = .gsGameOver) :
    let y := run P C (init P) moves
    ∃ survivor, (∀ j, Alive y.net.world.server.players j ↔ j = P.id survivor) ∧
      P.id survivor = y.net.world.server.currentPlayerTurn ∧ (∀ k, (y.client k).myTurn = false) ∧
      ∀ k, (y.net.client k).link = .linked → y.accepted k = true → (y.net.client k).down = [] →
        P.id k ∈ y.net.world.server.players →
        (y.client k).gameState = GameState.gsGameOver.byte ∧
          (Function.Injective P.stored →
            ((y.client k).players.filter fun q ↦ !q.dead).map LocalPlayer.name =
              [(P.stored survivor).bytes]) := by
  intro y
  have h : Refines P C (InSeason S) y := Refines.init.run_moves moves horderly
  obtain ⟨hstarted, halive⟩ := h.decided hover
  obtain ⟨player, hp, _⟩ := (halive _).mpr rfl
  have hsafe := h.agreed.1.steady.safe
  obtain ⟨survivor, hid, hname⟩ := hsafe.registered _ player hp
  refine ⟨survivor, hid ▸ halive, hid, fun k ↦ ?_, fun k hl haccepted hdown hmem ↦ ?_⟩
  · by_contra hturn
    have hpos := h.tokens_pos (k := k) (by simpa using hturn)
    exact (h.agreed.1.steady.tokens.holder k hpos).1.2 hover
  · have hknows := h.knows_all hl haccepted hdown hmem
    refine ⟨(hknows.started hstarted).2.trans (congrArg GameState.byte hover), fun hnames ↦ ?_⟩
    rw [← hname]
    exact shown_survivor hknows hstarted hover (hsafe.distinct hnames) hp halive

omit horderly

/-! ### The pair to the end -/

/-- The first of the pair strikes the second, which strikes itself in its turns. -/
def rounds : Nat → List (SystemMove Bool)
  | 0 => enters false ".atk bob"
  | n + 1 => enters false ".atk bob" ++ enters true ".atk me" ++ rounds n

/-- Nine strikes, and everything is heard. -/
def strikes : List (SystemMove Bool) := wizards ++ rounds 4 ++ hears true ++ hears false

theorem strikes_orderly : Orderly pair pairCodec (InSeason (.counted 2)) (init pair) strikes := by
  decide +kernel

theorem pair_stored_injective : Function.Injective pair.stored := by
  decide +kernel

theorem strikes_sound : (run pair pairCodec (init pair) strikes).net.world.server.Sound :=
  nobody_revived pair pairCodec strikes strikes_orderly pair_stored_injective

/-- The second has heard that the game is over. -/
theorem strikes_heard :
    (run pair pairCodec (init pair) strikes).net.world.server.gameState = .gsGameOver ∧
      ((run pair pairCodec (init pair) strikes).net.client true).link = .linked ∧
      (run pair pairCodec (init pair) strikes).accepted true = true ∧
      ((run pair pairCodec (init pair) strikes).net.client true).down.length = 0 ∧
      pair.id true ∈ (run pair pairCodec (init pair) strikes).net.world.server.players := by
  decide +kernel

theorem strikes_survivor :
    let y := run pair pairCodec (init pair) strikes
    ∃ survivor, (∀ j, Alive y.net.world.server.players j ↔ j = pair.id survivor) ∧
      ((y.client true).players.filter fun q ↦ !q.dead).map LocalPlayer.name =
        [(pair.stored survivor).bytes] := by
  obtain ⟨hover, hl, haccepted, hdown, hmem⟩ := strikes_heard
  obtain ⟨survivor, halive, _, _, hshown⟩ :=
    clients_agree_on_survivor pair pairCodec strikes strikes_orderly hover
  have hempty := List.length_eq_zero_iff.mp hdown
  exact ⟨survivor, halive, (hshown true hl haccepted hempty hmem).2 pair_stored_injective⟩

end System

end RRPG
