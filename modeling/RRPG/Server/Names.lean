import RRPG.Server.HealthTable

/-!
# Names

Players are stored by id and addressed by name: `GetPlayerWithName` takes the first one in
id order. Registration does not look at names, so whoever is named is meant exactly as long
as no client introduces itself under a name that is taken.
-/

open RRPG.Base RRPG.Base.Handler

namespace RRPG

variable (S : Setup)

/-- A new client introduces itself under the name of a registered player. -/
def TakesName (p : Packet) (s : Server) : Prop :=
  p.kind = some .cIntro ∧ S.id p ∉ s.players ∧
    ∃ id player, s.players.find? id = some player ∧
      player.name = (S.decodeString 256 p.payload).1

/-- Whoever is named is found, and an action strikes nobody else. -/
structure Addressable (s : Server) : Prop where
  found : ∀ id player, s.players.find? id = some player →
    s.getPlayerWithName player.name = some id
  struck : ∀ c p id player diff r w trace, p.kind = some .cActionTaken → S.id p ∈ s.players →
    s.players.find? id = some player → (readAction S c p).2 = player.name →
    diff? S c p = some diff → exec (packetHandler S c p) ⟨s, trace⟩ = (r, w) →
    w.server.players = s.players.adjust id (·.struck diff)

variable {S}

/-- Players are found by their names exactly when the names are distinct. -/
theorem found_iff_distinct (s : Server) :
    (∀ id player, s.players.find? id = some player →
      s.getPlayerWithName player.name = some id) ↔ DistinctNames s := by
  constructor
  · intro hfound i j p q hp hq hname
    have hi := hfound i p hp
    rw [hname, hfound j q hq] at hi
    exact (Option.some.inj hi).symm
  · intro hd id player hp
    refine (OrdMap.findKey?_eq_some _ _ id).mpr ⟨⟨player, hp, by simp⟩, ?_⟩
    intro j q hq hname
    exact le_of_eq (hd id j player q hp hq (of_decide_eq_true hname).symm)

/-- Where the named player is found, an action strikes nobody else. -/
theorem struck_of_found {s : Server} (hfound : ∀ id player, s.players.find? id = some player →
      s.getPlayerWithName player.name = some id)
    (c : Chance) (p : Packet) (id : UInt32) (player : Player) (diff : Int)
    (r : Except Halt Unit) (w : World) (trace : List Effect)
    (hk : p.kind = some .cActionTaken) (hsender : S.id p ∈ s.players)
    (hp : s.players.find? id = some player) (hname : (readAction S c p).2 = player.name)
    (hdiff : diff? S c p = some diff) (hexec : exec (packetHandler S c p) ⟨s, trace⟩ = (r, w)) :
    w.server.players = s.players.adjust id (·.struck diff) := by
  have htarget : target? S c p s = some id := by
    rw [target?, hname]
    exact hfound id player hp
  obtain ⟨es, _, hhandled⟩ := handled_of_exec S c p _ w r hexec
  rcases hhandled.of_action_taken hk hsender with ⟨hnone, _⟩ | ⟨id', _, es', hid', _, hturn, _⟩
  · simp [htarget] at hnone
  · obtain rfl := Option.some.inj (htarget.symm.trans hid')
    rw [hturn.players, Server.acted, hdiff]
    rfl

theorem addressable_iff_distinct (s : Server) : Addressable S s ↔ DistinctNames s := by
  rw [← found_iff_distinct]
  exact ⟨fun h ↦ h.found, fun h ↦ ⟨h, struck_of_found h⟩⟩

/-- A packet keeps the names distinct exactly when it takes nobody's name. -/
theorem Handled.distinct_iff {c : Chance} {p : Packet} {s s' : Server} {r : Except Halt Unit}
    {es : List Effect} (h : Handled S c p s r s' es) (hd : DistinctNames s) :
    DistinctNames s' ↔ ¬ TakesName S p s := by
  by_cases hk : p.kind = some .cIntro
  · obtain ⟨_, rfl, _⟩ := h.of_intro hk
    unfold DistinctNames Server.joined
    simp only [OrdMap.find?_emplace]
    by_cases hnew : S.id p ∉ s.players
    · have hnone (id : UInt32) (player : Player) (hp : s.players.find? id = some player) :
          id ≠ S.id p := by
        rintro rfl
        exact hnew ((OrdMap.mem_iff_find? _ _).mpr ⟨player, hp⟩)
      constructor
      · rintro hd' ⟨_, _, id, player, hp, hname⟩
        apply hnone id player hp
        apply hd' id (S.id p) player { name := (S.decodeString 256 p.payload).1 } _ _ hname
        · rw [if_neg fun hid ↦ hnone id player hp hid.1, hp]
        · rw [if_pos ⟨rfl, hnew⟩]
      · intro hno i j q q' hq hq' hname
        have hclash (k : UInt32) (player : Player) (hp : s.players.find? k = some player) :
            player.name ≠ (S.decodeString 256 p.payload).1 :=
          fun he ↦ hno ⟨hk, hnew, k, player, hp, he⟩
        by_cases hi : i = S.id p <;> by_cases hj : j = S.id p
        · rw [hi, hj]
        · rw [if_pos ⟨hi, hnew⟩] at hq
          rw [if_neg fun h ↦ hj h.1] at hq'
          obtain rfl := Option.some.inj hq
          exact absurd hname.symm (hclash j q' hq')
        · rw [if_neg fun h ↦ hi h.1] at hq
          rw [if_pos ⟨hj, hnew⟩] at hq'
          obtain rfl := Option.some.inj hq'
          exact absurd hname (hclash i q hq)
        · rw [if_neg fun h ↦ hi h.1] at hq
          rw [if_neg fun h ↦ hj h.1] at hq'
          exact hd i j q q' hq hq' hname
    · simp only [hnew, and_false, if_false]
      exact ⟨fun _ htakes ↦ hnew htakes.2.1, fun _ ↦ hd⟩
  · have hback : SameNames s' s := fun id ↦ (h.sameNames hk id).symm
    exact ⟨fun _ htakes ↦ hk htakes.1, fun _ ↦ hback.distinct hd⟩

variable (S)

/-- Whoever is named is meant, in every state of a run, exactly when no client takes a name
that is somebody's. -/
theorem addressable_iff (events : List Event) :
    (∀ pre post, events = pre ++ post → Addressable S (outcome S pre).2.server) ↔
      ∀ pre e post w, events = pre ++ e :: post → outcome S pre = (.ok (), w) →
        ¬ TakesName S e.packet w.server := by
  simp only [addressable_iff_distinct]
  refine run_invariant_iff _ (fun w : World ↦ DistinctNames w.server)
    (fun (e : Event) w ↦ ¬ TakesName S e.packet w.server) events ⟨Server.init, []⟩ ?_ ?_
  · intro i j p q hp
    simp [Server.init] at hp
  · intro e w hw
    obtain ⟨es, _, hhandled⟩ := handled_of_exec S e.chance e.packet w _ _ rfl
    exact hhandled.distinct_iff hw

/-- Two clients introduce themselves under the same name. -/
def namesakes : List Event :=
  everybody [1, 2] DefaultMessageId.idNewIncomingConnection.byte [] ++
    everybody [1, 2] RRPGId.cIntro.byte (ascii "A")

/-- The second one cannot be addressed. -/
theorem namesakes_confused : (outcome (.plain 2) namesakes).1 = .ok () ∧
    ¬ Addressable (.plain 2) (outcome (.plain 2) namesakes).2.server := by
  refine ⟨by decide +kernel, fun h ↦ ?_⟩
  have hp : (outcome (.plain 2) namesakes).2.server.players.find? 2 =
      some { name := ⟨[65], by simp, by simp⟩ } := by
    decide +kernel
  exact absurd (h.found 2 _ hp) (by decide +kernel)

end RRPG
