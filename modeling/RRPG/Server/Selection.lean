import Mathlib.Data.List.Forall2
import Mathlib.Data.List.TakeWhile
import RRPG.Server.HealthTable

/-!
# Character selection

`StartGame` asks the player with the least id for a job, and each answer passes the question
on to the next id; after the last one the main game starts. Nothing checks who answers, so
this is about runs in which every `S_TAKE_TURN` is answered at most once, by its recipient.
-/

open RRPG.Base RRPG.Base.Handler

namespace RRPG

/-- The players who were sent a turn, oldest first. -/
def recipients (trace : List Effect) : List UInt32 :=
  (turns trace).map fun t ↦ t.2.currentPlayerTurn

/-- `StartMainGame` has run. -/
def MainStarted (trace : List Effect) : Prop := ∃ t, (.startMainGame, t) ∈ entries trace

/-- What a server does for the game proper before `StartMainGame` runs. -/
def selectionOf (trace : List Effect) : List Effect :=
  (core trace).takeWhile fun e ↦ e.act ≠ .enter .startMainGame

/-- The runs of a character selection from the call of `StartGame` in `w₀` up to that of
`StartMainGame`: with the answers so far, how the last handler ended, and where, and what was
done on the way. -/
inductive Selection (S : Setup) (w₀ : World) :
    List (UInt32 × UInt8) → Except Halt Unit → Server → List Effect → Prop
  | starts (r : Except Halt Unit) (s : Server) (es : List Effect)
      (hexec : exec startGame w₀ = (r, ⟨s, w₀.trace ++ es⟩)) : Selection S w₀ [] r s es
  /-- Somebody who has not answered all turns sent to it chooses a job. -/
  | answers (answers : List (UInt32 × UInt8)) (s : Server) (es : List Effect)
      (hrun : Selection S w₀ answers (.ok ()) s es) (hmain : ¬ MainStarted es) (e : Event)
      (hk : e.packet.kind = some .cJobChosen) (job : UInt8) (rest : BitStream)
      (hjob : e.packet.payload.readByte = some (job, rest))
      (hturn : (answers.map Prod.fst).count (S.id e.packet) <
        (recipients es).count (S.id e.packet))
      (r : Except Halt Unit) (s' : Server) (es' : List Effect)
      (hexec : exec (packetHandler S e.chance e.packet) ⟨s, w₀.trace ++ es⟩ =
        (r, ⟨s', w₀.trace ++ es ++ es'⟩)) :
    Selection S w₀ (answers ++ [(S.id e.packet, job)]) r s' (es ++ es')
  /-- Any packet but an introduction, a change of readiness, a choice or an action. -/
  | other (answers : List (UInt32 × UInt8)) (s : Server) (es : List Effect)
      (hrun : Selection S w₀ answers (.ok ()) s es) (hmain : ¬ MainStarted es) (e : Event)
      (hk : e.packet.kind ∉ [some .cIntro, some .cReady, some .cUnready, some .cJobChosen,
        some .cActionTaken])
      (r : Except Halt Unit) (s' : Server) (es' : List Effect)
      (hexec : exec (packetHandler S e.chance e.packet) ⟨s, w₀.trace ++ es⟩ =
        (r, ⟨s', w₀.trace ++ es ++ es'⟩)) :
    Selection S w₀ answers r s' (es ++ es')

/-- What a selection among the players of `s₀` has to look like once `answers` have come. -/
structure SelectionSpec (s₀ : Server) (answers : List (UInt32 × UInt8)) (s : Server)
    (es : List Effect) : Prop where
  /-- Turns go to the ids in order, leaving out none. -/
  asked : recipients (selectionOf es) <+: s₀.players.keys
  ascending : (recipients (selectionOf es)).Pairwise (· < ·)
  addressed : ∀ t ∈ turns (selectionOf es),
    s₀.playerAddresses.find? t.2.currentPlayerTurn = some t.1
  /-- Until the main game starts, who has been asked are those who have answered and the
  current player, whose answer is awaited. -/
  awaited : ¬ MainStarted es →
    recipients (selectionOf es) = answers.map Prod.fst ++ [s.currentPlayerTurn]
  /-- Until the main game starts, the ready players are those who have answered. -/
  ready : ¬ MainStarted es → ∀ id player, s.players.find? id = some player →
    (player.ready = true ↔ id ∈ answers.map Prod.fst)
  below : ¬ MainStarted es → ∀ id ∈ s.players,
    (id ∈ answers.map Prod.fst ↔ id < s.currentPlayerTurn)
  starts : MainStarted es ↔ ∀ id ∈ s₀.players, id ∈ answers.map Prod.fst
  once : ((entries es).map Prod.fst).count .startMainGame ≤ 1
  everybody : MainStarted es → recipients (selectionOf es) = s₀.players.keys
  /-- The snapshot has a record for every player, with the job this player sent. -/
  snapshot : MainStarted es → ∃ records,
    reports es = [.updateGameState .gsMain (some records)] ∧
    List.Forall₂ (fun e record ↦ record.name = e.2.name ∧ (e.1, record.job) ∈ answers)
      s₀.players.entries records

/-! ### The invariant -/

/-- A player as the answers leave it. -/
def Player.answered (answers : List (UInt32 × UInt8)) (id : UInt32) (player : Player) : Player :=
  { player with
    ready := (answers.lookup id).isSome
    job := (answers.lookup id).getD player.job }

/-- Before the main game: those who have answered are the ids below the pointer, and who has
been asked is they and the current player. -/
structure Selecting (s₀ : Server) (answers : List (UInt32 × UInt8)) (s : Server)
    (es : List Effect) : Prop where
  pointer : ∃ rest, s₀.players.keys = answers.map Prod.fst ++ s.currentPlayerTurn :: rest
  players : s.players = s₀.players.mapVal (Player.answered answers)
  addresses : s.playerAddresses = s₀.playerAddresses
  asked : recipients es = answers.map Prod.fst ++ [s.currentPlayerTurn]
  addressed : ∀ t ∈ turns es, s₀.playerAddresses.find? t.2.currentPlayerTurn = some t.1
  unstarted : ¬ MainStarted es
  unreported : reports es = []

/-- Once the main game has started: everybody has answered, and what was done falls into the
selection, the call of `StartMainGame` and the rest. -/
structure Selected (s₀ : Server) (answers : List (UInt32 × UInt8)) (es : List Effect) :
    Prop where
  everybody : answers.map Prod.fst = s₀.players.keys
  split : ∃ pre t post, core es = pre ++ ⟨.enter .startMainGame, t⟩ :: post ∧
    recipients pre = answers.map Prod.fst ∧
    (∀ t ∈ turns pre, s₀.playerAddresses.find? t.2.currentPlayerTurn = some t.1) ∧
    ¬ MainStarted pre ∧ ¬ MainStarted post ∧ reports pre = [] ∧
    reports post = [.updateGameState .gsMain (some t.records)] ∧
    t.players = s₀.players.mapVal (Player.answered answers)

@[simp] theorem recipients_append (t u : List Effect) :
    recipients (t ++ u) = recipients t ++ recipients u := by
  simp [recipients]

@[simp] theorem recipients_core (t : List Effect) : recipients (core t) = recipients t := by
  simp [recipients]

theorem mainStarted_append (t u : List Effect) :
    MainStarted (t ++ u) ↔ MainStarted t ∨ MainStarted u := by
  simp only [MainStarted, entries_append, List.mem_append, exists_or]

theorem mainStarted_core (t : List Effect) : MainStarted (core t) ↔ MainStarted t := by
  simp only [MainStarted, entries_core]

/-- The main game starts with the call of `StartMainGame`. -/
theorem mainStarted_iff (t : List Effect) :
    MainStarted t ↔ ∃ e ∈ t, e.act = .enter .startMainGame := by
  simp only [MainStarted, entries, List.mem_filterMap]
  constructor
  · rintro ⟨s, ⟨act, s'⟩, he, hentry⟩
    unfold Effect.entry? at hentry
    split at hentry
    · next hact =>
      cases hact
      obtain ⟨rfl, rfl⟩ := Prod.mk.inj (Option.some.inj hentry)
      exact ⟨_, he, rfl⟩
    · cases hentry
  · rintro ⟨⟨_, s⟩, he, rfl⟩
    exact ⟨s, _, he, rfl⟩

/-- Before the main game everything belongs to the selection. -/
theorem selectionOf_unstarted (t : List Effect) (h : ¬ MainStarted t) :
    selectionOf t = core t := by
  rw [← mainStarted_core, mainStarted_iff] at h
  unfold selectionOf
  rw [List.takeWhile_eq_self_iff]
  intro e he
  simpa using fun hact ↦ h ⟨e, he, hact⟩

/-- The selection ends where `StartMainGame` is called. -/
theorem selectionOf_split (t pre post : List Effect) (s : Server) (h : ¬ MainStarted pre)
    (ht : core t = pre ++ ⟨.enter .startMainGame, s⟩ :: post) : selectionOf t = pre := by
  rw [mainStarted_iff] at h
  unfold selectionOf
  rw [ht, List.takeWhile_append_of_pos, List.takeWhile_cons_of_neg]
  · simp
  · simp
  · intro e he
    simpa using fun hact ↦ h ⟨e, he, hact⟩

/-! ### Steps -/

/-- `StartGame` begins the selection. -/
theorem selecting_starts (s₀ s : Server) (r : Except Halt Unit) (es : List Effect)
    (hkeys : s₀.playerAddresses.keys = s₀.players.keys) (hne : ∃ id, id ∈ s₀.players)
    (h : StartGameDoes s₀ r s (core es)) : Selecting s₀ [] s es := by
  have hentries := h.entries
  have hreports := h.reports_eq_nil
  have hreg (id : UInt32) : id ∈ s₀.players ↔ id ∈ s₀.playerAddresses := by
    rw [OrdMap.mem_def, OrdMap.mem_def, hkeys]
  obtain ⟨first, systemAddress, hb, haddr, _, rfl, _, hturns⟩ := h.of_registered hreg hne
  rw [turns_core] at hturns
  exact {
    pointer := by
      obtain ⟨rest, hrest⟩ : ∃ rest, s₀.players.keys = first :: rest :=
        List.head?_eq_some_iff.mp hb
      exact ⟨rest, hrest⟩
    players := rfl
    addresses := rfl
    asked := by rw [recipients, hturns]; rfl
    addressed := by
      rw [hturns]
      intro t ht
      obtain rfl := List.mem_singleton.mp ht
      exact haddr
    unstarted := by
      rw [MainStarted, ← entries_core, hentries]
      simp
    unreported := by rwa [← reports_core] }

section
variable {S : Setup} {c : Chance} {p : Packet} {s₀ s s' : Server} {r : Except Halt Unit}
  {es es' : List Effect} {answers : List (UInt32 × UInt8)}

/-- A packet that is no answer leaves the selection where it is. -/
theorem Selecting.other (h : Selecting s₀ answers s es)
    (hhandled : Handled S c p s r s' (core es'))
    (hk : p.kind ∉ [some .cIntro, some .cReady, some .cUnready, some .cJobChosen,
      some .cActionTaken]) : Selecting s₀ answers s' (es ++ es') := by
  obtain ⟨hs, hcore, _⟩ := hhandled.of_other hk
  have hturns : turns (es ++ es') = turns es := by
    rw [turns_append, ← turns_core es', hcore, turns_nil, List.append_nil]
  exact {
    pointer := by rw [hs]; exact h.pointer
    players := by rw [hs]; exact h.players
    addresses := by rw [hs]; exact h.addresses
    asked := by rw [recipients, hturns, hs]; exact h.asked
    addressed := by rw [hturns]; exact h.addressed
    unstarted := by
      rw [mainStarted_append, ← mainStarted_core es', hcore]
      rintro (hmain | ⟨t, ht⟩)
      · exact h.unstarted hmain
      · cases ht
    unreported := by
      rw [reports_append, h.unreported, ← reports_core es', hcore]
      rfl }

/-- Those who have answered are below the current player. -/
theorem Selecting.answered_lt (h : Selecting s₀ answers s es) (id : UInt32)
    (hid : id ∈ answers.map Prod.fst) : id < s.currentPlayerTurn := by
  obtain ⟨rest, hrest⟩ := h.pointer
  have hsorted := s₀.players.keys_sorted
  rw [hrest, List.pairwise_append] at hsorted
  exact hsorted.2.2 id hid _ (by simp)

theorem Selecting.pointer_mem (h : Selecting s₀ answers s es) :
    s.currentPlayerTurn ∈ s.players := by
  obtain ⟨rest, hrest⟩ := h.pointer
  rw [h.players, OrdMap.mem_mapVal, OrdMap.mem_def, hrest]
  simp

/-- Only the current player has a turn left to answer. -/
theorem Selecting.sender_eq (h : Selecting s₀ answers s es) (id : UInt32)
    (hturn : (answers.map Prod.fst).count id < (recipients es).count id) :
    id = s.currentPlayerTurn := by
  rw [h.asked, List.count_append] at hturn
  by_contra hne
  rw [List.count_singleton, if_neg (by simpa using Ne.symm hne)] at hturn
  omega

/-- The players once the current one has answered. -/
theorem Selecting.players_chosen (h : Selecting s₀ answers s es) (job : UInt8)
    (rest : BitStream) (hjob : p.payload.readByte = some (job, rest)) :
    s.players.adjust s.currentPlayerTurn (·.chosen p) =
      s₀.players.mapVal (Player.answered (answers ++ [(s.currentPlayerTurn, job)])) := by
  have hchosen (q : UInt8) : chosenJob p q = job := by rw [chosenJob, hjob]; rfl
  have hnone : answers.lookup s.currentPlayerTurn = none := by
    rw [List.lookup_eq_none_iff]
    intro a ha
    have hlt := h.answered_lt a.1 (List.mem_map_of_mem ha)
    simpa using ne_of_gt hlt
  apply OrdMap.ext_find?
  intro id
  rw [OrdMap.find?_adjust, h.players, OrdMap.find?_mapVal, OrdMap.find?_mapVal, Option.map_map]
  split
  · next hid =>
    subst hid
    congr 1
    funext player
    simp [Player.answered, Player.chosen, List.lookup_append, hnone, hchosen]
  · next hid =>
    congr 1
    funext player
    have hne : (id == s.currentPlayerTurn) = false := by simpa using hid
    simp [Player.answered, List.lookup_append, List.lookup_cons, hne]

/-- Whoever has not been asked yet comes after the current player. -/
theorem Selecting.later (h : Selecting s₀ answers s es) (p : Packet) :
    ∃ later, s₀.players.keys = answers.map Prod.fst ++ s.currentPlayerTurn :: later ∧
      (s.withPlayer s.currentPlayerTurn (·.chosen p)).players.next? s.currentPlayerTurn =
        later.head? := by
  obtain ⟨later, hlater⟩ := h.pointer
  refine ⟨later, hlater, ?_⟩
  rw [Server.withPlayer_players, OrdMap.next?_adjust, h.players, OrdMap.next?_mapVal]
  exact s₀.players.next?_of_keys _ _ _ hlater

/-- The current player answers and the next one is asked. -/
theorem Selecting.passes (h : Selecting s₀ answers s es) (job : UInt8) (rest : BitStream)
    (hjob : p.payload.readByte = some (job, rest)) (id : UInt32) (systemAddress : SystemAddress)
    (hnext : (s.withPlayer s.currentPlayerTurn (·.chosen p)).players.next? s.currentPlayerTurn =
      some id)
    (haddr : s.playerAddresses.find? id = some systemAddress)
    (hcore : core es' = [⟨.send (.system systemAddress) .takeTurn,
      { s.withPlayer s.currentPlayerTurn (·.chosen p) with currentPlayerTurn := id }⟩]) :
    Selecting s₀ (answers ++ [(s.currentPlayerTurn, job)])
      { s.withPlayer s.currentPlayerTurn (·.chosen p) with currentPlayerTurn := id }
      (es ++ es') := by
  obtain ⟨later, hlater, hhead⟩ := h.later p
  obtain ⟨later', rfl⟩ : ∃ later', later = id :: later' :=
    List.head?_eq_some_iff.mp (hhead.symm.trans hnext)
  have hturns : turns es' = [(systemAddress,
      { s.withPlayer s.currentPlayerTurn (·.chosen p) with currentPlayerTurn := id })] := by
    rw [← turns_core, hcore]
    simp
  have hanswered : (answers ++ [(s.currentPlayerTurn, job)]).map Prod.fst =
      answers.map Prod.fst ++ [s.currentPlayerTurn] := by
    simp
  exact {
    pointer := ⟨later', by rw [hanswered, hlater, List.append_assoc]; rfl⟩
    players := h.players_chosen job rest hjob
    addresses := h.addresses
    asked := by
      rw [recipients_append, h.asked, hanswered, recipients, hturns]
      rfl
    addressed := by
      rw [turns_append, hturns]
      intro t ht
      rcases List.mem_append.mp ht with ht | ht
      · exact h.addressed t ht
      · obtain rfl := List.mem_singleton.mp ht
        rw [← h.addresses]
        exact haddr
    unstarted := by
      rw [mainStarted_append, ← mainStarted_core es', hcore]
      rintro (hmain | hmain)
      · exact h.unstarted hmain
      · simp [MainStarted] at hmain
    unreported := by
      rw [reports_append, h.unreported, ← reports_core es', hcore]
      simp [Effect.report?] }

/-- The last player answers and the main game starts. -/
theorem Selecting.finishes (h : Selecting s₀ answers s es) (job : UInt8) (rest : BitStream)
    (hjob : p.payload.readByte = some (job, rest)) (effects : List Effect)
    (hnext : (s.withPlayer s.currentPlayerTurn (·.chosen p)).players.next? s.currentPlayerTurn =
      none)
    (hturn : NextTurnDoes
      { s.withPlayer s.currentPlayerTurn (·.chosen p) with gameState := .gsMain } r s' effects)
    (hcore : core es' =
      ⟨.enter .startMainGame, s.withPlayer s.currentPlayerTurn (·.chosen p)⟩ ::
      ⟨.send .all (.updateGameState .gsMain
          (some (s.withPlayer s.currentPlayerTurn (·.chosen p)).records)),
        { s.withPlayer s.currentPlayerTurn (·.chosen p) with gameState := .gsMain }⟩ ::
      ⟨.enter .nextTurn,
        { s.withPlayer s.currentPlayerTurn (·.chosen p) with gameState := .gsMain }⟩ ::
      effects) :
    Selected s₀ (answers ++ [(s.currentPlayerTurn, job)]) (es ++ es') := by
  obtain ⟨later, hlater, hhead⟩ := h.later p
  obtain rfl : later = [] := List.head?_eq_none_iff.mp (hhead.symm.trans hnext)
  have hreports := hturn.reports_eq_nil
  have hmain := hturn.not_entered .startMainGame (by simp)
  have hanswered : (answers ++ [(s.currentPlayerTurn, job)]).map Prod.fst =
      answers.map Prod.fst ++ [s.currentPlayerTurn] := by
    simp
  refine ⟨by rw [hanswered, hlater], core es, _, _, by rw [core_append, hcore], ?_, ?_, ?_, ?_,
    ?_, ?_, h.players_chosen job rest hjob⟩
  · rw [recipients_core, h.asked, hanswered]
  · rw [turns_core]
    exact h.addressed
  · rw [mainStarted_core]
    exact h.unstarted
  · rintro ⟨t, ht⟩
    simp [hmain] at ht
  · rw [reports_core, h.unreported]
  · simp [Effect.report?, Message.isReport, hreports]

/-- The current player's answer passes the turn to the next id, or starts the main game. -/
theorem Selecting.answer (h : Selecting s₀ answers s es)
    (hkeys : s₀.playerAddresses.keys = s₀.players.keys) (job : UInt8) (rest : BitStream)
    (hjob : p.payload.readByte = some (job, rest))
    (hchosen : ChosenDoes (s.withPlayer s.currentPlayerTurn (·.chosen p)) r s' (core es')) :
    Selecting s₀ (answers ++ [(s.currentPlayerTurn, job)]) s' (es ++ es') ∨
      Selected s₀ (answers ++ [(s.currentPlayerTurn, job)]) (es ++ es') := by
  generalize hcore : core es' = effects at hchosen
  cases hchosen with
  | unset hunset =>
    exact absurd (by simpa using h.pointer_mem) hunset
  | lost hcur id hnext haddr =>
    have hmem := ((OrdMap.next?_eq_some _ _ id).mp hnext).1
    rw [Server.withPlayer_players, OrdMap.mem_adjust, h.players, OrdMap.mem_mapVal,
      OrdMap.mem_def, ← hkeys, ← OrdMap.mem_def, ← h.addresses] at hmem
    exact absurd hmem haddr
  | passes hcur id hnext systemAddress haddr =>
    exact .inl (h.passes job rest hjob id systemAddress hnext haddr hcore)
  | starts hcur hnext r s' effects hturn =>
    exact .inr (h.finishes job rest hjob effects hnext hturn hcore)

end

/-! ### The specification -/

theorem lookup_isSome_iff (answers : List (UInt32 × UInt8)) (id : UInt32) :
    (answers.lookup id).isSome = true ↔ id ∈ answers.map Prod.fst := by
  rw [← Option.ne_none_iff_isSome, ne_eq, List.lookup_eq_none_iff]
  simp

theorem mem_of_lookup (answers : List (UInt32 × UInt8)) (id : UInt32) (job : UInt8)
    (h : answers.lookup id = some job) : (id, job) ∈ answers := by
  obtain ⟨before, after, rfl, _⟩ := List.lookup_eq_some_iff.mp h
  simp

theorem count_eq_zero_of_unstarted (t : List Effect) (h : ¬ MainStarted t) :
    ((entries t).map Prod.fst).count .startMainGame = 0 := by
  rw [List.count_eq_zero]
  intro hmem
  obtain ⟨⟨_, s⟩, hs, rfl⟩ := List.mem_map.mp hmem
  exact h ⟨s, hs⟩

section
variable {s₀ s : Server} {es : List Effect} {answers : List (UInt32 × UInt8)}

theorem Selecting.spec (h : Selecting s₀ answers s es) : SelectionSpec s₀ answers s es := by
  obtain ⟨rest, hrest⟩ := h.pointer
  have hselection := selectionOf_unstarted es h.unstarted
  have hasked : recipients (selectionOf es) <+: s₀.players.keys := by
    rw [hselection, recipients_core, h.asked, hrest]
    exact ⟨rest, by simp⟩
  have hcur : s.currentPlayerTurn ∈ s₀.players := by
    rw [← OrdMap.mem_mapVal, ← h.players]
    exact h.pointer_mem
  exact {
    asked := hasked
    ascending := s₀.players.keys_sorted.sublist hasked.sublist
    addressed := by
      rw [hselection, turns_core]
      exact h.addressed
    awaited := by
      intro _
      rw [hselection, recipients_core]
      exact h.asked
    ready := by
      intro _ id player hp
      rw [h.players, OrdMap.find?_mapVal, Option.map_eq_some_iff] at hp
      obtain ⟨player, _, rfl⟩ := hp
      exact lookup_isSome_iff answers id
    below := by
      intro _ id hid
      constructor
      · exact h.answered_lt id
      · intro hlt
        rw [h.players, OrdMap.mem_mapVal, OrdMap.mem_def, hrest, List.mem_append] at hid
        rcases hid with hid | hid
        · exact hid
        · have hsorted := s₀.players.keys_sorted
          rw [hrest, List.pairwise_append, List.pairwise_cons] at hsorted
          rcases List.mem_cons.mp hid with rfl | hid
          · exact absurd hlt (lt_irrefl _)
          · exact absurd (hsorted.2.1.1 id hid) (not_lt_of_gt hlt)
    starts := by
      constructor
      · exact fun hmain ↦ absurd hmain h.unstarted
      · exact fun hall ↦ absurd (h.answered_lt _ (hall _ hcur)) (lt_irrefl _)
    once := by
      rw [count_eq_zero_of_unstarted es h.unstarted]
      exact Nat.zero_le 1
    everybody := fun hmain ↦ absurd hmain h.unstarted
    snapshot := fun hmain ↦ absurd hmain h.unstarted }

/-- The snapshot of a table everybody in which has answered. -/
theorem forall₂_records (t : Server) (hall : answers.map Prod.fst = s₀.players.keys)
    (ht : t.players = s₀.players.mapVal (Player.answered answers)) :
    List.Forall₂ (fun e record ↦ record.name = e.2.name ∧ (e.1, record.job) ∈ answers)
      s₀.players.entries t.records := by
  have hentries : t.records = s₀.players.entries.map fun e ↦
      ⟨e.2.name, e.2.health, (answers.lookup e.1).isSome, (answers.lookup e.1).getD e.2.job⟩ := by
    unfold Server.records
    rw [ht]
    simp [OrdMap.mapVal, Player.answered, Function.comp_def]
  rw [hentries, List.forall₂_map_right_iff, List.forall₂_same]
  intro e he
  refine ⟨rfl, ?_⟩
  have hmem : e.1 ∈ answers.map Prod.fst := by
    rw [hall]
    exact List.mem_map_of_mem he
  obtain ⟨job, hjob⟩ := Option.isSome_iff_exists.mp ((lookup_isSome_iff answers e.1).mpr hmem)
  rw [hjob]
  exact mem_of_lookup answers e.1 job hjob

theorem Selected.mainStarted (h : Selected s₀ answers es) : MainStarted es := by
  obtain ⟨pre, t, post, hcore, _⟩ := h.split
  rw [← mainStarted_core, hcore, mainStarted_append]
  exact .inr ⟨t, by simp⟩

theorem Selected.spec (h : Selected s₀ answers es) : SelectionSpec s₀ answers s es := by
  obtain ⟨pre, t, post, hcore, hasked, haddressed, hpre, hpost, hnone, hreports, hplayers⟩ :=
    h.split
  have hselection := selectionOf_split es pre post t hpre hcore
  have hmain := h.mainStarted
  have hkeys : recipients (selectionOf es) = s₀.players.keys := by
    rw [hselection, hasked, h.everybody]
  exact {
    asked := hkeys ▸ List.prefix_rfl
    ascending := hkeys ▸ s₀.players.keys_sorted
    addressed := by rwa [hselection]
    awaited := fun hno ↦ absurd hmain hno
    ready := fun hno ↦ absurd hmain hno
    below := fun hno ↦ absurd hmain hno
    starts := by
      refine ⟨fun _ id hid ↦ ?_, fun _ ↦ hmain⟩
      rwa [h.everybody, ← OrdMap.mem_def]
    once := by
      rw [← entries_core, hcore, entries_append, List.map_append, List.count_append,
        count_eq_zero_of_unstarted pre hpre, entries_cons, List.map_append, List.count_append,
        count_eq_zero_of_unstarted post hpost]
      simp
    everybody := fun _ ↦ hkeys
    snapshot := by
      intro _
      refine ⟨t.records, ?_, forall₂_records t h.everybody hplayers⟩
      rw [← reports_core, hcore, reports_append, hnone, reports_cons, hreports]
      rfl }

end

/-- Every run of a selection among a nonempty set of registered players, all of them with an
address, meets the specification at every point. -/
theorem selection_spec (S : Setup) (w₀ : World)
    (hkeys : w₀.server.playerAddresses.keys = w₀.server.players.keys)
    (hne : ∃ id, id ∈ w₀.server.players) (answers : List (UInt32 × UInt8))
    (r : Except Halt Unit) (s : Server) (es : List Effect)
    (h : Selection S w₀ answers r s es) : SelectionSpec w₀.server answers s es := by
  have hinv : Selecting w₀.server answers s es ∨ Selected w₀.server answers es := by
    induction h with
    | starts r s es hexec =>
      left
      obtain ⟨r', s', effects, hstart, hdoes⟩ := startGame_does w₀.server
      obtain ⟨rfl, rfl, es', htrace, rfl⟩ := hdoes.of_exec hexec
      obtain rfl := List.append_cancel_left htrace
      exact selecting_starts _ _ _ _ hkeys hne hstart
    | answers answers s es hrun hmain e hk job rest hjob hturn r s' es' hexec ih =>
      have hselecting := ih.resolve_right fun h ↦ hmain h.mainStarted
      have hsender := hselecting.sender_eq _ hturn
      have hhandled := handled_of_step S e.chance e.packet ⟨s, w₀.trace ++ es⟩ r s' es' hexec
      have hchosen := hhandled.of_job_chosen hk (by rw [hsender]; exact hselecting.pointer_mem)
      rw [hsender] at hchosen ⊢
      exact hselecting.answer hkeys job rest hjob hchosen
    | other answers s es hrun hmain e hk r s' es' hexec ih =>
      left
      have hselecting := ih.resolve_right fun h ↦ hmain h.mainStarted
      exact hselecting.other (handled_of_step S e.chance e.packet _ r s' es' hexec) hk
  rcases hinv with h | h
  · exact h.spec
  · exact h.spec

section
variable {S : Setup} {w₀ w w' : World} {answers : List (UInt32 × UInt8)} {r : Except Halt Unit}

instance (trace : List Effect) : Decidable (MainStarted trace) :=
  decidable_of_iff _ (mainStarted_iff trace).symm

/-- A selection goes on with the next answer, in the world it has reached. -/
theorem Selection.next (htrace : w₀.trace <+: w.trace)
    (hrun : Selection S w₀ answers (.ok ()) w.server (w.trace.drop w₀.trace.length))
    (hmain : ¬ MainStarted (w.trace.drop w₀.trace.length)) (e : Event)
    (hk : e.packet.kind = some .cJobChosen) (job : UInt8) (rest : BitStream)
    (hjob : e.packet.payload.readByte = some (job, rest))
    (hturn : (answers.map Prod.fst).count (S.id e.packet) <
      (recipients (w.trace.drop w₀.trace.length)).count (S.id e.packet))
    (hexec : exec (packetHandler S e.chance e.packet) w = (r, w')) :
    w₀.trace <+: w'.trace ∧ Selection S w₀ (answers ++ [(S.id e.packet, job)]) r w'.server
      (w'.trace.drop w₀.trace.length) := by
  obtain ⟨es, hes⟩ := htrace
  have hdrop : w.trace.drop w₀.trace.length = es := by rw [← hes, List.drop_left]
  have hw : (⟨w.server, w₀.trace ++ es⟩ : World) = w := by rw [hes]
  obtain ⟨es', hes', _⟩ := handled_of_exec S e.chance e.packet w w' r hexec
  have htrace' : w'.trace = w₀.trace ++ (es ++ es') := by rw [hes', ← hes, List.append_assoc]
  rw [hdrop] at hrun hmain hturn
  refine ⟨⟨_, htrace'.symm⟩, ?_⟩
  rw [htrace', List.drop_left]
  exact .answers answers w.server es hrun hmain e hk job rest hjob hturn r w'.server es'
    (by rw [hw, hexec, List.append_assoc, ← htrace'])

end

/-- Two players wait in the lobby. -/
def lobbyOfTwo : World := (outcome (.plain 2)
  [clientEvent 1 DefaultMessageId.idNewIncomingConnection.byte [],
    clientEvent 2 DefaultMessageId.idNewIncomingConnection.byte [],
    clientEvent 2 RRPGId.cIntro.byte (ascii "B"), clientEvent 1 RRPGId.cIntro.byte (ascii "A")]).2

/-- The first of them becomes an assassin. -/
def firstChoice : Event := clientEvent 1 RRPGId.cJobChosen.byte [2]

/-- The second one becomes a wizard. -/
def secondChoice : Event := clientEvent 2 RRPGId.cJobChosen.byte [0]

/-- `StartGame` has asked the first of them. -/
def firstAsked : World := (exec startGame lobbyOfTwo).2

/-- Its answer has passed the question on. -/
def secondAsked : World :=
  (exec (packetHandler (.plain 2) firstChoice.chance firstChoice.packet) firstAsked).2

/-- Both choose, the main game starts, and the selection is as specified. -/
theorem lobbyOfTwo_selection : ∃ r s es,
    Selection (.plain 2) lobbyOfTwo [(1, 2), (2, 0)] r s es ∧ MainStarted es ∧
      SelectionSpec lobbyOfTwo.server [(1, 2), (2, 0)] s es := by
  have hkeys : lobbyOfTwo.server.playerAddresses.keys = lobbyOfTwo.server.players.keys := by
    decide +kernel
  have hne : ∃ id, id ∈ lobbyOfTwo.server.players := ⟨1, by decide +kernel⟩
  have hstart : exec startGame lobbyOfTwo = (.ok (), firstAsked) :=
    Prod.ext (by decide +kernel) rfl
  have hfirst : exec (packetHandler (.plain 2) firstChoice.chance firstChoice.packet)
      firstAsked = (.ok (), secondAsked) :=
    Prod.ext (by decide +kernel) rfl
  obtain ⟨_, _, _, _, hdoes⟩ := startGame_does lobbyOfTwo.server
  obtain ⟨es, hexec, _⟩ := hdoes lobbyOfTwo.trace
  have htrace : firstAsked.trace = lobbyOfTwo.trace ++ es := by
    rw [firstAsked, show exec startGame lobbyOfTwo = _ from hexec]
  have hasked : Selection (.plain 2) lobbyOfTwo [] (.ok ()) firstAsked.server
      (firstAsked.trace.drop lobbyOfTwo.trace.length) :=
    .starts _ _ _ (by rw [htrace, List.drop_left, ← htrace]; exact hstart)
  obtain ⟨htrace, hanswered⟩ := Selection.next ⟨es, htrace.symm⟩ hasked (by decide +kernel)
    firstChoice (by decide +kernel) 2 [] (by decide +kernel) (by decide +kernel) hfirst
  obtain ⟨-, hrun⟩ := Selection.next htrace hanswered (by decide +kernel) secondChoice
    (by decide +kernel) 0 [] (by decide +kernel) (by decide +kernel) (Prod.eta _).symm
  exact ⟨_, _, _, hrun, by decide +kernel,
    selection_spec (.plain 2) lobbyOfTwo hkeys hne _ _ _ _ hrun⟩

end RRPG
