import Mathlib.Data.Fintype.Card
import RRPG.Base.Interleaving
import RRPG.Server.Health
import RRPG.Server.Pointer

/-!
# The lobby

As many clients as the server expects connect, introduce themselves and get ready, in any
interleaving. `OnPlayerReady` starts a game when all connections are there and everybody
introduced so far is ready, which need not be everybody: the connections are counted in one
place and the introductions in another.
-/

open RRPG.Base RRPG.Base.Handler

namespace RRPG

/-- What a client does in the lobby. -/
inductive Stage where
  | connection
  | intro
  | ready
  deriving DecidableEq, Repr

/-- The order in which it does so. -/
def Stage.script : List Stage := [connection, intro, ready]

/-- As many clients as expected, with distinct ids, and their packets. -/
structure Lobby (S : Setup) (Client : Type) [Fintype Client] where
  card : Fintype.card Client = S.expectedPlayers.toNat
  id : Client → UInt32
  id_injective : Function.Injective id
  event : Client → Stage → Event
  id_event : ∀ k stage, S.id (event k stage).packet = id k
  connection : ∀ k, (event k .connection).packet.lowLevel = some .idNewIncomingConnection
  intro : ∀ k, (event k .intro).packet.kind = some .cIntro
  ready : ∀ k, (event k .ready).packet.kind = some .cReady

variable {S : Setup} {Client : Type} [Fintype Client] [DecidableEq Client]

namespace Lobby

variable (L : Lobby S Client)

/-- The packets of a schedule. -/
def events (schedule : List (Client × Stage)) : List Event :=
  schedule.map fun e ↦ L.event e.1 e.2

/-- The clients whose connection was seen. -/
def connected (done : List (Client × Stage)) : Finset Client :=
  Finset.univ.filter fun k ↦ (k, .connection) ∈ done

/-- The `C_READY` of `k` finds every connection made, and everybody introduced so far has
sent a `C_READY`. -/
def Opens (done : List (Client × Stage)) (k : Client) : Prop :=
  (∀ j, (j, .connection) ∈ done) ∧ ∀ j, (j, .intro) ∈ done → (j, .ready) ∈ done ∨ j = k

/-- What the server looks like before a game has started. -/
structure Waiting (done : List (Client × Stage)) (w : World) : Prop where
  valid : w.server.Valid
  total : w.server.totalConnections = UInt16.ofNat (connected done).card
  players : ∀ id player, w.server.players.find? id = some player →
    ∃ k, id = L.id k ∧ (k, .intro) ∈ done ∧ (player.ready = true ↔ (k, .ready) ∈ done)
  introduced : ∀ k, (k, .intro) ∈ done → L.id k ∈ w.server.players
  noEntries : entries w.trace = []

/-- Everybody is registered and ready. -/
structure Complete (t : Server) : Prop where
  ready : ∀ k, ∃ player, t.players.find? (L.id k) = some player ∧ player.ready = true
  only : ∀ id, id ∈ t.players → ∃ k, id = L.id k

/-! ### Counting connections -/

theorem connected_connection (done : List (Client × Stage)) (k : Client)
    (h : (k, Stage.connection) ∉ done) :
    (connected (done ++ [(k, .connection)])).card = (connected done).card + 1 := by
  have : connected (done ++ [(k, .connection)]) = insert k (connected done) := by
    ext j
    simp [connected, or_comm]
  rw [this, Finset.card_insert_of_notMem (by simpa [connected] using h)]

theorem connected_other (done : List (Client × Stage)) (k : Client) (stage : Stage)
    (h : stage ≠ .connection) : connected (done ++ [(k, stage)]) = connected done := by
  ext j
  simp [connected, h.symm]

theorem card_connected_le (L : Lobby S Client) (done : List (Client × Stage)) :
    (connected done).card ≤ S.expectedPlayers.toNat := by
  rw [← L.card]
  exact Finset.card_le_univ _

/-- The counter meets `EXPECTED_PLAYERS` when everybody is connected, if it can at all. -/
theorem total_eq_iff (L : Lobby S Client) (done : List (Client × Stage)) :
    (UInt16.ofNat (connected done).card).toUInt32 = S.expectedPlayers ↔
      S.expectedPlayers.toNat ≤ 65535 ∧ ∀ j, (j, Stage.connection) ∈ done := by
  have hle := L.card_connected_le done
  have hall : (∀ j, (j, Stage.connection) ∈ done) ↔
      (connected done).card = S.expectedPlayers.toNat := by
    rw [← L.card, Finset.card_eq_iff_eq_univ]
    simp [connected, Finset.eq_univ_iff_forall]
  rw [hall, ← UInt32.toNat_inj]
  simp only [UInt16.toNat_toUInt32, UInt16.toNat_ofNat']
  omega

theorem not_over (L : Lobby S Client) (done : List (Client × Stage)) :
    ¬ S.expectedPlayers < (UInt16.ofNat (connected done).card).toUInt32 := by
  have hle := L.card_connected_le done
  rw [UInt32.lt_iff_toNat_lt]
  simp only [UInt16.toNat_toUInt32, UInt16.toNat_ofNat']
  omega

/-! ### One step -/

/-- A `C_READY` starts the game exactly when the lobby opens and the counter can say so. -/
theorem Waiting.canStart_iff {L : Lobby S Client} {done : List (Client × Stage)} {w : World}
    (h : L.Waiting done w) (k : Client) (hk : (k, .intro) ∈ done) :
    (w.server.withPlayer (L.id k) (·.withReady true)).CanStart S ↔
      S.expectedPlayers.toNat ≤ 65535 ∧ Opens done k := by
  have hall : (w.server.withPlayer (L.id k) (·.withReady true)).players.all Player.ready = true ↔
      ∀ j, (j, .intro) ∈ done → (j, .ready) ∈ done ∨ j = k := by
    rw [all_ready_iff]
    constructor
    · intro hready j hj
      obtain ⟨player, hp⟩ := (OrdMap.mem_iff_find? _ _).mp (h.introduced j hj)
      by_cases hjk : j = k
      · exact Or.inr hjk
      · have hne : L.id j ≠ L.id k := fun he ↦ hjk (L.id_injective he)
        obtain ⟨i, hi, _, hiff⟩ := h.players _ player hp
        obtain rfl := L.id_injective hi
        exact Or.inl (hiff.mp (hready (L.id j) player hp hne))
    · intro hdone id player hp hid
      obtain ⟨j, rfl, hj, hiff⟩ := h.players id player hp
      rcases hdone j hj with hready | rfl
      · exact hiff.mpr hready
      · exact absurd rfl hid
  unfold Server.CanStart
  rw [hall, Server.withPlayer_totalConnections, h.total, L.total_eq_iff]
  unfold Opens
  tauto

omit [Fintype Client] in
/-- What a client about to take a stage has done. -/
theorem split_script {done rest : List (Client × Stage)} {k : Client} {stage : Stage}
    (h : Interleaves Stage.script (done ++ (k, stage) :: rest)) :
    ((k, .connection) ∈ done ↔ stage ≠ .connection) ∧ ((k, .intro) ∈ done ↔ stage = .ready) ∧
      (k, .ready) ∉ done := by
  have hsplit := h.split
  simp only [← mem_past]
  generalize past done k = xs at hsplit
  unfold Stage.script at hsplit
  rcases xs with _ | ⟨a, _ | ⟨b, _ | ⟨c, xs⟩⟩⟩ <;>
    simp only [List.nil_append, List.cons_append, List.cons.injEq] at hsplit
  · obtain ⟨rfl, _⟩ := hsplit
    simp
  · obtain ⟨rfl, rfl, _⟩ := hsplit
    simp
  · obtain ⟨rfl, rfl, rfl, _⟩ := hsplit
    simp
  · simp at hsplit

/-- A `C_READY` that opens the lobby starts a game, with everybody who was introduced. -/
theorem Waiting.opens {L : Lobby S Client} {done : List (Client × Stage)} {w w' : World}
    {r : Except Halt Unit} (h : L.Waiting done w) (k : Client) (hk : (k, .intro) ∈ done)
    (hexpected : S.expectedPlayers.toNat ≤ 65535) (hopens : Opens done k)
    (hexec : exec (packetHandler S (L.event k .ready).chance (L.event k .ready).packet) w =
      (r, w')) :
    entries w'.trace =
      [(.startGame, w.server.withPlayer (L.id k) (·.withReady true))] := by
  obtain ⟨es, htrace, hhandled⟩ := handled_of_exec S _ _ w w' r hexec
  have hsender : S.id (L.event k .ready).packet ∈ w.server.players := by
    rw [L.id_event]
    exact h.introduced k hk
  have hready := hhandled.of_ready (L.ready k) hsender
  rw [L.id_event] at hready
  simp only [if_pos ((h.canStart_iff k hk).mpr ⟨hexpected, hopens⟩)] at hready
  rw [htrace, entries_append, h.noEntries, ← entries_core, hready.entries]
  rfl

/-- A handled packet that enters no member function keeps the history free of them. -/
theorem noEntries_of_core {w w' : World} {es : List Effect} (h : entries w.trace = [])
    (htrace : w'.trace = w.trace ++ es) (hes : entries (core es) = []) :
    entries w'.trace = [] := by
  rw [htrace, entries_append, h, ← entries_core es, hes]
  rfl

/-- A connection is counted. -/
theorem Waiting.connects {L : Lobby S Client} {done : List (Client × Stage)} {w w' : World}
    {r : Except Halt Unit} {k : Client} (h : L.Waiting done w) (hk : (k, .connection) ∉ done)
    (hexec : exec (packetHandler S (L.event k .connection).chance
      (L.event k .connection).packet) w = (r, w')) :
    r = .ok () ∧ L.Waiting (done ++ [(k, .connection)]) w' := by
  obtain ⟨es, htrace, hhandled⟩ := handled_of_exec S _ _ w w' r hexec
  obtain ⟨hr, hs, hes⟩ := hhandled.of_low_level _ (L.connection k)
  refine ⟨hr, (hhandled.pointerKept h.valid).valid, ?_, ?_, ?_,
    noEntries_of_core h.noEntries htrace (by simp [hes])⟩
  · rw [hs, connected_connection done k hk, UInt16.ofNat_add, ← h.total]
    rfl
  · simpa [hs] using h.players
  · simpa [hs] using h.introduced

/-- An introduction adds one player, who is not ready. -/
theorem Waiting.introduces {L : Lobby S Client} {done : List (Client × Stage)} {w w' : World}
    {r : Except Halt Unit} {k : Client} (h : L.Waiting done w) (hintro : (k, .intro) ∉ done)
    (hready : (k, .ready) ∉ done)
    (hexec : exec (packetHandler S (L.event k .intro).chance (L.event k .intro).packet) w =
      (r, w')) : r = .ok () ∧ L.Waiting (done ++ [(k, .intro)]) w' := by
  obtain ⟨es, htrace, hhandled⟩ := handled_of_exec S _ _ w w' r hexec
  obtain ⟨hr, hs, hes⟩ := hhandled.of_intro (L.intro k)
  have hover := L.not_over done
  rw [← h.total] at hover
  rw [if_neg hover] at hes
  have hnew : L.id k ∉ w.server.players := by
    intro hk
    obtain ⟨player, hp⟩ := (w.server.players.mem_iff_find? _).mp hk
    obtain ⟨j, hj, hmem, _⟩ := h.players _ player hp
    obtain rfl := L.id_injective hj
    exact hintro hmem
  have hplayers : w'.server.players = w.server.players.emplace (L.id k)
      { name := (S.decodeString 256 (L.event k .intro).packet.payload).1 } := by
    rw [hs, Server.joined, L.id_event]
  refine ⟨hr, (hhandled.pointerKept h.valid).valid, ?_, ?_, ?_,
    noEntries_of_core h.noEntries htrace (by simp [hes])⟩
  · rw [hs, connected_other done k .intro (by simp), ← h.total, Server.joined, if_neg hover]
  · intro id player hp
    rw [hplayers, OrdMap.find?_emplace] at hp
    split at hp
    · next hid =>
      obtain rfl := Option.some.inj hp
      exact ⟨k, hid.1, by simp, by simp [hready]⟩
    · next hid =>
      obtain ⟨j, hj, hmem, hiff⟩ := h.players id player hp
      exact ⟨j, hj, by simp [hmem], by simp [hiff]⟩
  · intro j hj
    rw [hplayers, OrdMap.mem_emplace]
    simp only [List.mem_append, List.mem_singleton, Prod.mk.injEq, and_true] at hj
    rcases hj with hj | rfl
    · exact Or.inr (h.introduced j hj)
    · exact Or.inl rfl

/-- A `C_READY` that does not open the lobby is noted. -/
theorem Waiting.waits {L : Lobby S Client} {done : List (Client × Stage)} {w w' : World}
    {r : Except Halt Unit} {k : Client} (h : L.Waiting done w) (hk : (k, .intro) ∈ done)
    (hno : ¬ (S.expectedPlayers.toNat ≤ 65535 ∧ Opens done k))
    (hexec : exec (packetHandler S (L.event k .ready).chance (L.event k .ready).packet) w =
      (r, w')) : r = .ok () ∧ L.Waiting (done ++ [(k, .ready)]) w' := by
  obtain ⟨es, htrace, hhandled⟩ := handled_of_exec S _ _ w w' r hexec
  have hsender : S.id (L.event k .ready).packet ∈ w.server.players := by
    rw [L.id_event]
    exact h.introduced k hk
  have hready := hhandled.of_ready (L.ready k) hsender
  rw [L.id_event] at hready
  have hcan : ¬ (w.server.withPlayer (L.id k) (·.withReady true)).CanStart S :=
    fun hc ↦ hno ((h.canStart_iff k hk).mp hc)
  simp only [if_neg hcan] at hready
  obtain ⟨hr, hs, hes⟩ := hready
  refine ⟨hr, (hhandled.pointerKept h.valid).valid, ?_, ?_, ?_,
    noEntries_of_core h.noEntries htrace (by simp [hes])⟩
  · rw [hs, connected_other done k .ready (by simp), ← h.total]
    rfl
  · intro id player hp
    rw [hs, Server.withPlayer_players, OrdMap.find?_adjust] at hp
    split at hp
    · next hid =>
      obtain ⟨q, hq, rfl⟩ := Option.map_eq_some_iff.mp hp
      exact ⟨k, hid, by simp [hk], by simp [Player.withReady]⟩
    · next hid =>
      obtain ⟨j, rfl, hmem, hiff⟩ := h.players id player hp
      have hjk : j ≠ k := fun he ↦ hid (he ▸ rfl)
      exact ⟨j, rfl, by simp [hmem], by simp [hiff, hjk]⟩
  · intro j hj
    rw [hs, Server.withPlayer_players, OrdMap.mem_adjust]
    exact h.introduced j (by simpa using hj)

/-- A step that does not open the lobby leaves it waiting. -/
theorem Waiting.step {L : Lobby S Client} {done rest : List (Client × Stage)} {w w' : World}
    {r : Except Halt Unit} {k : Client} {stage : Stage} (h : L.Waiting done w)
    (hsplit : Interleaves Stage.script (done ++ (k, stage) :: rest))
    (hno : ¬ (stage = .ready ∧ S.expectedPlayers.toNat ≤ 65535 ∧ Opens done k))
    (hexec : exec (packetHandler S (L.event k stage).chance (L.event k stage).packet) w =
      (r, w')) : r = .ok () ∧ L.Waiting (done ++ [(k, stage)]) w' := by
  obtain ⟨hconn, hintro, hready⟩ := split_script hsplit
  cases stage with
  | connection => exact h.connects (by simp [hconn]) hexec
  | intro => exact h.introduces (by simp [hintro]) hready hexec
  | ready => exact h.waits (hintro.mpr rfl) (fun hopens ↦ hno ⟨rfl, hopens⟩) hexec

/-! ### Whole schedules -/

/-- After a part of a schedule the lobby is still waiting, or it opened on the way and a game
was started. -/
theorem waiting_or_opened (L : Lobby S Client) (done rest : List (Client × Stage))
    (h : Interleaves Stage.script (done ++ rest)) :
    (∃ w, outcome S (L.events done) = (.ok (), w) ∧ L.Waiting done w) ∨
    (∃ pre k post, done = pre ++ (k, .ready) :: post ∧
        S.expectedPlayers.toNat ≤ 65535 ∧ Opens pre k) ∧
      ∃ t, (.startGame, t) ∈ entries (outcome S (L.events done)).2.trace := by
  induction done using List.reverseRecOn generalizing rest with
  | nil =>
    refine .inl ⟨⟨Server.init, []⟩, rfl, .init, ?_, ?_, by simp, rfl⟩
    · simp [connected, Server.init]
    · simp [Server.init]
  | append_singleton done e ih =>
    obtain ⟨k, stage⟩ := e
    rw [List.append_assoc] at h
    have hevents : L.events (done ++ [(k, stage)]) = L.events done ++ [L.event k stage] := by
      simp [events]
    rw [hevents]
    rcases ih _ h with ⟨w, hw, hwait⟩ | ⟨⟨pre, j, post, hsplit, hopens⟩, t, ht⟩
    · rw [outcome_concat S _ _ w hw]
      rcases hx : exec (packetHandler S (L.event k stage).chance (L.event k stage).packet) w with
        ⟨r, w'⟩
      by_cases ho : stage = .ready ∧ S.expectedPlayers.toNat ≤ 65535 ∧ Opens done k
      · obtain ⟨rfl, hexpected, hopens⟩ := ho
        have hstart := hwait.opens k ((split_script h).2.1.mpr rfl) hexpected hopens hx
        exact .inr ⟨⟨done, k, [], rfl, hexpected, hopens⟩, _, hstart ▸ List.mem_singleton_self _⟩
      · obtain ⟨rfl, hwait'⟩ := hwait.step h ho hx
        exact .inl ⟨w', rfl, hwait'⟩
    · exact .inr ⟨⟨pre, j, post ++ [(k, stage)], by simp [hsplit], hopens⟩, t,
        entries_outcome_append S _ _ _ ht⟩

/-- `StartGame` runs once, on the last `C_READY`, with everybody registered and ready. -/
def StartsOnce (L : Lobby S Client) (schedule : List (Client × Stage)) : Prop :=
  ∃ pre k t, schedule = pre ++ [(k, .ready)] ∧
    (∀ u, (.startGame, u) ∉ entries (outcome S (L.events pre)).2.trace) ∧
    (entries (outcome S (L.events schedule)).2.trace).filter (fun e ↦ e.1 = .startGame) =
      [(.startGame, t)] ∧
    L.Complete t

/-- No `C_READY` before the last event finds every connection made and everybody introduced
so far ready, and the connections can be counted. -/
def NoEarlyStart (S : Setup) (schedule : List (Client × Stage)) : Prop :=
  S.expectedPlayers.toNat ≤ 65535 ∧
    ∀ pre k post, schedule = pre ++ (k, .ready) :: post → post ≠ [] → ¬ Opens pre k

/-- A `C_READY` that opens the lobby starts a game, unless one was started before. -/
theorem opened_starts (L : Lobby S Client) (pre post : List (Client × Stage)) (k : Client)
    (h : Interleaves Stage.script (pre ++ (k, .ready) :: post))
    (hexpected : S.expectedPlayers.toNat ≤ 65535) (hopens : Opens pre k) :
    ∃ t, (.startGame, t) ∈ entries (outcome S (L.events (pre ++ [(k, .ready)]))).2.trace := by
  have hevents : L.events (pre ++ [(k, .ready)]) = L.events pre ++ [L.event k .ready] := by
    simp [events]
  rw [hevents]
  rcases waiting_or_opened L pre _ h with ⟨w, hw, hwait⟩ | ⟨_, t, ht⟩
  · rw [outcome_concat S _ _ w hw]
    rcases hx : exec (packetHandler S (L.event k .ready).chance (L.event k .ready).packet) w with
      ⟨r, w'⟩
    have hstart := hwait.opens k ((split_script h).2.1.mpr rfl) hexpected hopens hx
    exact ⟨_, hstart ▸ List.mem_singleton_self _⟩
  · exact ⟨t, entries_outcome_append S _ _ _ ht⟩

/-- With everybody introduced, the waiting players are complete once the last one is ready. -/
theorem Waiting.complete {L : Lobby S Client} {done : List (Client × Stage)} {w : World}
    (h : L.Waiting done w) (k : Client) (hintro : ∀ j, (j, .intro) ∈ done)
    (hready : ∀ j, (j, .ready) ∈ done ∨ j = k) :
    L.Complete (w.server.withPlayer (L.id k) (·.withReady true)) where
  ready j := by
    obtain ⟨player, hp⟩ := (OrdMap.mem_iff_find? _ _).mp (h.introduced j (hintro j))
    rw [Server.withPlayer_players, OrdMap.find?_adjust]
    by_cases hjk : j = k
    · exact ⟨player.withReady true, by rw [if_pos (by rw [hjk]), hp]; rfl, rfl⟩
    · have hne : L.id j ≠ L.id k := fun he ↦ hjk (L.id_injective he)
      obtain ⟨i, hi, _, hiff⟩ := h.players _ player hp
      obtain rfl := L.id_injective hi
      exact ⟨player, by rw [if_neg hne, hp], hiff.mpr ((hready j).resolve_right hjk)⟩
  only id hid := by
    rw [Server.withPlayer_players, OrdMap.mem_adjust, OrdMap.mem_iff_find?] at hid
    obtain ⟨player, hp⟩ := hid
    obtain ⟨j, hj, _⟩ := h.players id player hp
    exact ⟨j, hj⟩

/-- A game that starts once, at the end, was not started before. -/
theorem StartsOnce.noEarlyStart {L : Lobby S Client} {schedule : List (Client × Stage)}
    (hstarts : L.StartsOnce schedule) (h : Interleaves Stage.script schedule) :
    NoEarlyStart S schedule := by
  obtain ⟨pre, k, t, hschedule, hnone, hstart, _⟩ := hstarts
  have hexpected : S.expectedPlayers.toNat ≤ 65535 := by
    rcases waiting_or_opened L schedule [] (by simpa using h) with
      ⟨w, hw, hwait⟩ | ⟨⟨_, _, _, _, hexpected, _⟩, _⟩
    · rw [hw, hwait.noEntries] at hstart
      simp at hstart
    · exact hexpected
  refine ⟨hexpected, ?_⟩
  intro pre' j post hsplit hpost hopens
  obtain ⟨mid, hpre⟩ : ∃ mid, pre = pre' ++ (j, .ready) :: mid := by
    obtain ⟨mid, e, rfl⟩ := List.eq_nil_or_concat post |>.resolve_left hpost
    refine ⟨mid, ?_⟩
    rw [List.concat_eq_append, ← List.cons_append, ← List.append_assoc] at hsplit
    exact (List.append_inj' (hschedule.symm.trans hsplit) rfl).1
  obtain ⟨u, hu⟩ := opened_starts L pre' post j (hsplit ▸ h) hexpected hopens
  apply hnone u
  have hevents : L.events pre = L.events (pre' ++ [(j, .ready)]) ++ L.events mid := by
    simp [events, hpre]
  rw [hevents]
  exact entries_outcome_append S _ _ _ hu

/-- A schedule ends with a `C_READY`. -/
theorem exists_last_ready (L : Lobby S Client) (hpos : 0 < S.expectedPlayers)
    (schedule : List (Client × Stage)) (h : Interleaves Stage.script schedule) :
    ∃ pre k, schedule = pre ++ [(k, .ready)] := by
  have hcard : 0 < Fintype.card Client := by
    rw [L.card]
    exact UInt32.lt_iff_toNat_lt.mp hpos
  obtain ⟨k₀⟩ := Fintype.card_pos_iff.mp hcard
  have hmem : (k₀, Stage.ready) ∈ schedule := h.mem k₀ (by simp [Stage.script])
  obtain ⟨pre, ⟨k, stage⟩, hsplit⟩ :=
    List.eq_nil_or_concat schedule |>.resolve_left (List.ne_nil_of_mem hmem)
  rw [List.concat_eq_append] at hsplit
  have hlast := (hsplit ▸ h).last
  have hstage := congrArg List.getLast? hlast
  obtain rfl : stage = .ready := by simpa [Stage.script] using hstage.symm
  exact ⟨pre, k, hsplit⟩

/-- Without an early start the game starts once, at the end. -/
theorem NoEarlyStart.startsOnce {pre : List (Client × Stage)} {k : Client}
    (hno : NoEarlyStart S (pre ++ [(k, .ready)])) (L : Lobby S Client)
    (h : Interleaves Stage.script (pre ++ [(k, .ready)])) :
    L.StartsOnce (pre ++ [(k, .ready)]) := by
  obtain ⟨hexpected, hearly⟩ := hno
  have hdone (j : Client) (stage : Stage) (hne : (j, stage) ≠ (k, .ready)) :
      (j, stage) ∈ pre := by
    have hmem := h.mem j (show stage ∈ Stage.script by cases stage <;> simp [Stage.script])
    simpa [hne] using hmem
  rcases waiting_or_opened L pre [(k, .ready)] h with
    ⟨w, hw, hwait⟩ | ⟨⟨pre', j, post, rfl, _, hopens⟩, _⟩
  · have hready (j : Client) : (j, .ready) ∈ pre ∨ j = k := by
      by_cases hjk : j = k
      · exact Or.inr hjk
      · exact Or.inl (hdone j .ready (by simp [hjk]))
    rcases hx : exec (packetHandler S (L.event k .ready).chance (L.event k .ready).packet) w
      with ⟨r, w'⟩
    have hstart := hwait.opens k (hdone k .intro (by simp)) hexpected
      ⟨fun j ↦ hdone j .connection (by simp), fun j _ ↦ hready j⟩ hx
    have hevents : L.events (pre ++ [(k, .ready)]) = L.events pre ++ [L.event k .ready] := by
      simp [events]
    refine ⟨pre, k, _, rfl, ?_, ?_,
      hwait.complete k (fun j ↦ hdone j .intro (by simp)) hready⟩
    · intro u
      rw [hw, hwait.noEntries]
      simp
    · rw [hevents, outcome_concat S _ _ w hw, hx, hstart]
      rfl
  · exact absurd hopens (hearly pre' j (post ++ [(k, .ready)]) (by simp) (by simp))

/-- The game starts once, at the end and with everybody, exactly in the interleavings
without an early start. -/
theorem startsOnce_iff (L : Lobby S Client) (hpos : 0 < S.expectedPlayers)
    (schedule : List (Client × Stage)) (h : Interleaves Stage.script schedule) :
    L.StartsOnce schedule ↔ NoEarlyStart S schedule := by
  constructor
  · intro hstarts
    exact hstarts.noEarlyStart h
  · intro hno
    obtain ⟨pre, k, rfl⟩ := exists_last_ready L hpos schedule h
    exact hno.startsOnce L h

/-! ### An early start -/

/-- The identifier a stage's packet carries. -/
def stageByte : Stage → UInt8
  | .connection => DefaultMessageId.idNewIncomingConnection.byte
  | .intro => RRPGId.cIntro.byte
  | .ready => RRPGId.cReady.byte

/-- Two clients, and a server that expects two. -/
def pair : Lobby (.plain 2) (Fin 2) where
  card := rfl
  id k := UInt32.ofNat (k + 1)
  id_injective := by decide
  event k stage := clientEvent (UInt64.ofNat (k + 1)) (stageByte stage) []
  id_event k stage := by
    revert k
    cases stage <;> decide +kernel
  connection _ := rfl
  intro _ := rfl
  ready _ := rfl

/-- Both connect, and the first one is ready before the second one has introduced itself. -/
def early : List (Fin 2 × Stage) :=
  [(0, .connection), (1, .connection), (0, .intro), (0, .ready), (1, .intro), (1, .ready)]

private theorem early_interleaves : Interleaves Stage.script early := by
  unfold Interleaves
  decide

/-- The game starts without the second client. -/
theorem early_startsEarly : Interleaves Stage.script early ∧ ¬ pair.StartsOnce early := by
  refine ⟨early_interleaves, ?_⟩
  rintro ⟨pre, k, t, hsplit, hnone, _⟩
  have hpre : early.dropLast = pre := by
    rw [hsplit, List.dropLast_concat]
  have hstart : Routine.startGame ∈
      (entries (outcome (.plain 2) (pair.events early.dropLast)).2.trace).map Prod.fst := by
    decide +kernel
  obtain ⟨⟨_, u⟩, hu, rfl⟩ := List.mem_map.mp hstart
  exact hnone u (hpre ▸ hu)

/-- The condition tells this interleaving from the ones the lobby survives. -/
theorem early_startsOnce_iff : pair.StartsOnce early ↔ NoEarlyStart (.plain 2) early :=
  startsOnce_iff pair (by decide) early early_interleaves

end Lobby
end RRPG
