import Mathlib.Data.Finset.Card
import RRPG.Base.Interleaving
import RRPG.Server.Pointer

/-!
# The lobby does not depend on who was faster

In the lobby every client's packets concern its own player only, and the connections are
merely counted. So what the lobby holds is determined by what each client has sent, in the
client's order; and so is the game that starts from it.
-/

open RRPG.Base RRPG.Base.Handler

namespace RRPG

variable (S : Setup)

/-! ### What clients send -/

/-- The packets of a run with their senders' ids. -/
def schedule (events : List Event) : List (UInt32 × Packet) :=
  events.map fun e ↦ (S.id e.packet, e.packet)

/-- The packets a client has sent. -/
def sent (events : List Event) (id : UInt32) : List Packet := past (schedule S events) id

/-- A packet that tells of a connection. -/
def Packet.Connects (p : Packet) : Prop := p.lowLevel = some .idNewIncomingConnection

instance (p : Packet) : Decidable p.Connects := inferInstanceAs (Decidable (_ = _))

/-- A client connects, introduces itself, and then changes its mind about being ready. -/
def Arrives (packets : List Packet) : Prop :=
  ∃ connection intro moods, packets = connection :: intro :: moods ∧ connection.Connects ∧
    intro.kind = some .cIntro ∧
    ∀ p ∈ moods, p.kind = some .cReady ∨ p.kind = some .cUnready

/-- Everybody who sends anything arrives, and there are no more than expected. -/
structure Gathering (events : List Event) : Prop where
  arrives : ∀ id, sent S events id = [] ∨ Arrives (sent S events id)
  expected : ((events.map fun e ↦ S.id e.packet).toFinset).card ≤ S.expectedPlayers.toNat

/-- `StartGame` has run. -/
def GameStarted (events : List Event) : Prop :=
  ∃ t, (.startGame, t) ∈ entries (outcome S events).2.trace

/-- `StartGame` runs in the last step and not before. -/
def StartsLast (events : List Event) : Prop :=
  ∃ pre e, events = pre ++ [e] ∧ ¬ GameStarted S pre ∧ GameStarted S events

/-! ### What the lobby makes of it -/

/-- What a packet makes of its sender's player. -/
def lobbyPlayer (player : Option Player) (p : Packet) : Option Player :=
  match p.kind with
  | some .cIntro => player.or (some { name := (S.decodeString 256 p.payload).1 })
  | some .cReady => player.map (·.withReady true)
  | some .cUnready => player.map (·.withReady false)
  | _ => player

/-- What a packet makes of its sender's address. -/
def lobbyAddress (address : Option SystemAddress) (p : Packet) : Option SystemAddress :=
  if p.kind = some .cIntro then address.or (some p.systemAddress) else address

/-- How many connections a run tells of. -/
def connections (events : List Event) : Nat := events.countP fun e ↦ e.packet.Connects

/-- The lobby as the clients' packets determine it. -/
structure Settled (events : List Event) (s : Server) : Prop where
  network : s.networkState = .nsLobby
  state : s.gameState = .gsPending
  pointer : s.currentPlayerTurn = 0
  total : s.totalConnections = UInt16.ofNat (connections events)
  players : ∀ id, s.players.find? id = (sent S events id).foldl (lobbyPlayer S) none
  addresses : ∀ id, s.playerAddresses.find? id = (sent S events id).foldl lobbyAddress none

variable {S}

theorem sent_concat_self (done : List Event) (e : Event) :
    sent S (done ++ [e]) (S.id e.packet) = sent S done (S.id e.packet) ++ [e.packet] := by
  rw [sent, schedule, List.map_append]
  exact past_concat_self _ _ _

theorem sent_concat_ne (done : List Event) (e : Event) (id : UInt32)
    (h : id ≠ S.id e.packet) : sent S (done ++ [e]) id = sent S done id := by
  rw [sent, schedule, List.map_append]
  exact past_concat_ne _ _ _ _ h

theorem sent_split (done rest : List Event) (e : Event) :
    sent S (done ++ e :: rest) (S.id e.packet) =
      sent S done (S.id e.packet) ++ e.packet :: sent S rest (S.id e.packet) := by
  simp only [sent, schedule, List.map_append, List.map_cons]
  rw [past_append, past_cons_self]

/-- Runs in which every client sends the same tell of the same number of connections. -/
theorem connections_eq (xs ys : List Event) (h : ∀ id, sent S xs id = sent S ys id) :
    connections xs = connections ys := by
  have hcount (events : List Event) :
      connections events = (schedule S events).countP fun e ↦ e.2.Connects := by
    rw [connections, schedule, List.countP_map]
    rfl
  rw [hcount, hcount]
  exact (perm_of_past _ _ h).countP_eq _

/-- What the packets determine, they determine uniquely. -/
theorem Settled.unique {xs ys : List Event} {s t : Server} (hx : Settled S xs s)
    (hy : Settled S ys t) (h : ∀ id, sent S xs id = sent S ys id) : s = t := by
  have hplayers : s.players = t.players := by
    apply OrdMap.ext_find?
    intro id
    rw [hx.players, hy.players, h id]
  have haddresses : s.playerAddresses = t.playerAddresses := by
    apply OrdMap.ext_find?
    intro id
    rw [hx.addresses, hy.addresses, h id]
  have htotal : s.totalConnections = t.totalConnections := by
    rw [hx.total, hy.total, connections_eq xs ys h]
  have hnetwork := hx.network.trans hy.network.symm
  have hstate := hx.state.trans hy.state.symm
  have hpointer := hx.pointer.trans hy.pointer.symm
  cases s
  cases t
  simp_all

/-! ### One step -/

/-- What a client has done before a packet tells which packet it is. -/
theorem Arrives.split {before after : List Packet} {p : Packet}
    (h : Arrives (before ++ p :: after)) :
    (before = [] ∧ p.Connects) ∨
    (∃ connection, before = [connection] ∧ connection.Connects ∧ p.kind = some .cIntro) ∨
    (∃ connection intro moods, before = connection :: intro :: moods ∧ connection.Connects ∧
      intro.kind = some .cIntro ∧
      (∀ q ∈ moods, q.kind = some .cReady ∨ q.kind = some .cUnready) ∧
      (p.kind = some .cReady ∨ p.kind = some .cUnready)) := by
  obtain ⟨connection, intro, moods, heq, hconnects, hintro, hmoods⟩ := h
  rcases before with _ | ⟨a, _ | ⟨b, before⟩⟩
  · obtain ⟨rfl, _⟩ := List.cons.inj heq
    exact .inl ⟨rfl, hconnects⟩
  · obtain ⟨rfl, htail⟩ := List.cons.inj heq
    obtain ⟨rfl, _⟩ := List.cons.inj htail
    exact .inr (.inl ⟨a, rfl, hconnects, hintro⟩)
  · obtain ⟨rfl, htail⟩ := List.cons.inj heq
    obtain ⟨rfl, rfl⟩ := List.cons.inj htail
    exact .inr (.inr ⟨a, b, before, rfl, hconnects, hintro, fun q hq ↦ hmoods q (by simp [hq]),
      hmoods p (by simp)⟩)

theorem Packet.Connects.kind {p : Packet} (h : p.Connects) : p.kind = none := by
  cases hk : p.kind with
  | none => rfl
  | some k =>
    have := p.lowLevel_of_kind k hk
    rw [h] at this
    cases this

theorem Packet.not_connects {p : Packet} {k : RRPGId} (hk : p.kind = some k) : ¬ p.Connects := by
  intro hconnects
  rw [hconnects.kind] at hk
  cases hk

/-- A client connects once. -/
theorem Arrives.countP_connects {packets : List Packet} (h : Arrives packets) :
    packets.countP (fun p ↦ p.Connects) ≤ 1 := by
  obtain ⟨connection, intro, moods, rfl, hconnects, hintro, hmoods⟩ := h
  have hrest : moods.countP (fun p ↦ p.Connects) = 0 := by
    rw [List.countP_eq_zero]
    intro p hp
    rcases hmoods p hp with hk | hk
    · simpa using Packet.not_connects hk
    · simpa using Packet.not_connects hk
  simp [hrest, Packet.not_connects hintro, hconnects]

/-- There are no more connections than clients. -/
theorem Gathering.connections_le {done rest : List Event} (h : Gathering S (done ++ rest)) :
    connections done ≤ S.expectedPlayers.toNat := by
  let ids (events : List Event) : List UInt32 :=
    (events.filter fun e ↦ e.packet.Connects).map fun e ↦ S.id e.packet
  have hlength : connections (done ++ rest) = (ids (done ++ rest)).length := by
    simp [ids, connections, List.countP_eq_length_filter]
  have hnodup : (ids (done ++ rest)).Nodup := by
    rw [List.nodup_iff_count_le_one]
    intro id
    have hcount : (ids (done ++ rest)).count id =
        (sent S (done ++ rest) id).countP fun p ↦ p.Connects := by
      simp only [ids, sent, past, schedule, List.count, List.countP_map, List.countP_filter,
        List.filter_map, Function.comp_def]
      apply List.countP_congr
      intro e _
      simp [and_comm]
    rw [hcount]
    rcases h.arrives id with hnil | harrives
    · simp [hnil]
    · exact harrives.countP_connects
  have hsubset : (ids (done ++ rest)).toFinset ⊆
      ((done ++ rest).map fun e ↦ S.id e.packet).toFinset := by
    intro id hid
    rw [List.mem_toFinset, List.mem_map] at hid ⊢
    obtain ⟨e, he, rfl⟩ := hid
    exact ⟨e, List.mem_of_mem_filter he, rfl⟩
  have hle : connections done ≤ connections (done ++ rest) := by
    simp [connections]
  have hcard := Finset.card_le_card hsubset
  rw [List.toFinset_card_of_nodup hnodup, ← hlength] at hcard
  exact hle.trans (hcard.trans h.expected)

/-- Who has introduced itself is registered, whatever its moods. -/
theorem foldl_moods (player : Player) (moods : List Packet)
    (h : ∀ p ∈ moods, p.kind = some .cReady ∨ p.kind = some .cUnready) :
    ∃ player', moods.foldl (lobbyPlayer S) (some player) = some player' := by
  induction moods generalizing player with
  | nil => exact ⟨player, rfl⟩
  | cons p rest ih =>
    have hrest := fun q hq ↦ h q (List.mem_cons_of_mem p hq)
    rcases h p (by simp) with hk | hk
    · simpa [lobbyPlayer, hk] using ih (player.withReady true) hrest
    · simpa [lobbyPlayer, hk] using ih (player.withReady false) hrest

/-- The lobby after a packet, if what it holds for the sender is what the packet makes of
it and nothing else changes. -/
theorem Settled.concat {done : List Event} {s s' : Server} {e : Event} (h : Settled S done s)
    (hnetwork : s'.networkState = s.networkState) (hstate : s'.gameState = s.gameState)
    (hpointer : s'.currentPlayerTurn = s.currentPlayerTurn)
    (htotal : s'.totalConnections =
      if e.packet.Connects then s.totalConnections + 1 else s.totalConnections)
    (hplayers : ∀ id, s'.players.find? id = if id = S.id e.packet
      then lobbyPlayer S (s.players.find? id) e.packet else s.players.find? id)
    (haddresses : ∀ id, s'.playerAddresses.find? id = if id = S.id e.packet
      then lobbyAddress (s.playerAddresses.find? id) e.packet
      else s.playerAddresses.find? id) : Settled S (done ++ [e]) s' where
  network := hnetwork.trans h.network
  state := hstate.trans h.state
  pointer := hpointer.trans h.pointer
  total := by
    rw [htotal, h.total, connections, connections, List.countP_append]
    split
    · next hc =>
      simp [hc]
    · next hc => simp [hc]
  players id := by
    rw [hplayers, h.players]
    split
    · next hid => rw [hid, sent_concat_self, List.foldl_append]; rfl
    · next hid => rw [sent_concat_ne _ _ _ hid]
  addresses id := by
    rw [haddresses, h.addresses]
    split
    · next hid => rw [hid, sent_concat_self, List.foldl_append]; rfl
    · next hid => rw [sent_concat_ne _ _ _ hid]

/-- A connection is counted. -/
theorem Settled.connects {done : List Event} {s s' : Server} {e : Event}
    {r : Except Halt Unit} {es : List Effect} (h : Settled S done s)
    (hhandled : Handled S e.chance e.packet s r s' es) (hk : e.packet.Connects) :
    r = .ok () ∧ Settled S (done ++ [e]) s' ∧ es = [] := by
  obtain ⟨hr, hs, hes⟩ := hhandled.of_low_level _ hk
  refine ⟨hr, ?_, hes⟩
  apply h.concat
  case hnetwork | hstate | hpointer => rw [hs]
  case htotal => rw [if_pos hk, hs]; rfl
  case hplayers =>
    intro id
    rw [hs, lobbyPlayer, hk.kind, ite_self]
  case haddresses =>
    intro id
    have hno : ¬ e.packet.kind = some .cIntro := by simp [hk.kind]
    rw [hs, lobbyAddress, if_neg hno, ite_self]

/-- With no more connections than expected, an introduction registers its sender. -/
theorem Settled.introduces {done : List Event} {s s' : Server} {e : Event}
    {r : Except Halt Unit} {es : List Effect} (h : Settled S done s)
    (hle : connections done ≤ S.expectedPlayers.toNat)
    (hhandled : Handled S e.chance e.packet s r s' es) (hk : e.packet.kind = some .cIntro) :
    r = .ok () ∧ Settled S (done ++ [e]) s' ∧ es = [] := by
  have hover : ¬ S.expectedPlayers < s.totalConnections.toUInt32 := by
    rw [h.total, UInt32.lt_iff_toNat_lt, UInt16.toNat_toUInt32, UInt16.toNat_ofNat']
    omega
  have hno := Packet.not_connects hk
  obtain ⟨hr, hs, hes⟩ := hhandled.of_intro hk
  rw [if_neg hover] at hes
  refine ⟨hr, ?_, hes⟩
  apply h.concat
  case hnetwork | hstate | hpointer => rw [hs]; rfl
  case htotal => rw [if_neg hno, hs, Server.joined, if_neg hover]
  case hplayers =>
    intro id
    rw [hs, Server.joined, OrdMap.find?_emplace_or, lobbyPlayer, hk]
  case haddresses =>
    intro id
    rw [hs, Server.joined, OrdMap.find?_emplace_or, lobbyAddress, if_pos hk]

/-- A change of readiness is noted with its sender. -/
theorem Settled.readies {done : List Event} {s : Server} {e : Event} (h : Settled S done s)
    (ready : Bool) (hk : e.packet.kind = some (if ready then .cReady else .cUnready)) :
    Settled S (done ++ [e]) (s.withPlayer (S.id e.packet) (·.withReady ready)) := by
  have hno := Packet.not_connects hk
  apply h.concat
  case hnetwork | hstate | hpointer => rfl
  case htotal => rw [if_neg hno, Server.withPlayer_totalConnections]
  case hplayers =>
    intro id
    rw [Server.withPlayer_players, OrdMap.find?_adjust, lobbyPlayer, hk]
    cases ready <;> rfl
  case haddresses =>
    intro id
    have hintro : ¬ e.packet.kind = some .cIntro := by
      cases ready <;> simp [hk]
    rw [lobbyAddress, if_neg hintro, ite_self, Server.withPlayer_playerAddresses]

/-- What the next packet of a gathering leaves: a settled lobby, unless it starts the game
from one. -/
theorem Settled.step {done rest : List Event} {s s' : Server} {e : Event}
    {r : Except Halt Unit} {es : List Effect} (h : Settled S done s)
    (hgathering : Gathering S (done ++ e :: rest))
    (hhandled : Handled S e.chance e.packet s r s' (core es)) :
    (r = .ok () ∧ Settled S (done ++ [e]) s' ∧ entries es = []) ∨
    (∃ s₁, Settled S (done ++ [e]) s₁ ∧ StartGameDoes s₁ r s' (core es)) := by
  have hscript : Arrives (sent S done (S.id e.packet) ++ e.packet ::
      sent S rest (S.id e.packet)) := by
    rw [← sent_split]
    exact (hgathering.arrives _).resolve_left (by simp [sent_split])
  have hentries (h : core es = []) : entries es = [] := by
    rw [← entries_core, h, entries_nil]
  rcases hscript.split with ⟨hpast, hconnects⟩ | ⟨connection, hpast, hconnects, hintro⟩ |
    ⟨connection, intro, moods, hpast, hconnects, hintro, hmoods, hmood⟩
  · left
    obtain ⟨hr, hs, hes⟩ := h.connects hhandled hconnects
    exact ⟨hr, hs, hentries hes⟩
  · left
    obtain ⟨hr, hs, hes⟩ := h.introduces hgathering.connections_le hhandled hintro
    exact ⟨hr, hs, hentries hes⟩
  · have hsender : S.id e.packet ∈ s.players := by
      obtain ⟨player, hplayer⟩ := foldl_moods (S := S)
        { name := (S.decodeString 256 intro.payload).1 } moods hmoods
      rw [OrdMap.mem_iff_find?, h.players, hpast]
      exact ⟨player, by simpa [lobbyPlayer, hconnects.kind, hintro] using hplayer⟩
    rcases hmood with hk | hk
    · have hs₁ := h.readies true hk
      have hready := hhandled.of_ready hk hsender
      simp only at hready
      split at hready
      · exact .inr ⟨_, hs₁, hready⟩
      · obtain ⟨hr, rfl, hes⟩ := hready
        exact .inl ⟨hr, hs₁, hentries hes⟩
    · left
      obtain ⟨hr, rfl, hes⟩ := hhandled.of_unready hk hsender
      exact ⟨hr, h.readies false hk, hentries hes⟩

/-! ### Whole runs -/

theorem Settled.init : Settled S [] Server.init where
  network := rfl
  state := rfl
  pointer := rfl
  total := rfl
  players id := by simp [Server.init, sent, schedule, past]
  addresses id := by simp [Server.init, sent, schedule, past]

/-- The step of a run that is a gathering so far. -/
theorem settled_concat {done rest : List Event} {e : Event} {w : World}
    (hgathering : Gathering S (done ++ e :: rest)) (hw : outcome S done = (.ok (), w))
    (hsettled : Settled S done w.server) (hentries : entries w.trace = []) :
    (¬ GameStarted S (done ++ [e]) ∧ ∃ w', outcome S (done ++ [e]) = (.ok (), w') ∧
      Settled S (done ++ [e]) w'.server ∧ entries w'.trace = []) ∨
    (GameStarted S (done ++ [e]) ∧ ∃ s₁ es, Settled S (done ++ [e]) s₁ ∧
      StartGameDoes s₁ (outcome S (done ++ [e])).1 (outcome S (done ++ [e])).2.server es) := by
  unfold GameStarted
  rw [outcome_concat S done e w hw]
  rcases hexec : exec (packetHandler S e.chance e.packet) w with ⟨r, w'⟩
  obtain ⟨es, htrace, hhandled⟩ := handled_of_exec S _ _ w w' r hexec
  rcases hsettled.step hgathering hhandled with ⟨rfl, hs, hes⟩ | ⟨s₁, hs₁, hstart⟩
  · have hnone : entries w'.trace = [] := by
      rw [htrace, entries_append, hentries, hes, List.append_nil]
    exact .inl ⟨by simp [hnone], w', rfl, hs, hnone⟩
  · have hone : entries w'.trace = [(.startGame, s₁)] := by
      rw [htrace, entries_append, hentries, ← entries_core es, hstart.entries, List.nil_append]
    exact .inr ⟨⟨s₁, by simp [hone]⟩, s₁, _, hs₁, hstart⟩

/-- Until a game starts, the lobby is settled. -/
theorem settled_of_unstarted (done rest : List Event) (hgathering : Gathering S (done ++ rest))
    (hno : ¬ GameStarted S done) : ∃ w, outcome S done = (.ok (), w) ∧
      Settled S done w.server ∧ entries w.trace = [] := by
  induction done using List.reverseRecOn generalizing rest with
  | nil => exact ⟨_, rfl, .init, rfl⟩
  | append_singleton done e ih =>
    rw [List.append_assoc] at hgathering
    have hno' : ¬ GameStarted S done := by
      rintro ⟨t, ht⟩
      exact hno ⟨t, entries_outcome_append S done [e] _ ht⟩
    obtain ⟨w, hw, hsettled, hentries⟩ := ih _ hgathering hno'
    rcases settled_concat hgathering hw hsettled hentries with ⟨_, h⟩ | ⟨hstarted, _⟩
    · exact h
    · exact absurd hstarted hno

/-- A game that starts in the last step starts from a settled lobby. -/
theorem settled_of_startsLast (events : List Event) (hgathering : Gathering S events)
    (h : StartsLast S events) : ∃ s₁ es, Settled S events s₁ ∧
      StartGameDoes s₁ (outcome S events).1 (outcome S events).2.server es := by
  obtain ⟨pre, e, rfl, hno, hstarted⟩ := h
  obtain ⟨w, hw, hsettled, hentries⟩ := settled_of_unstarted pre [e] hgathering hno
  rcases settled_concat hgathering hw hsettled hentries with ⟨hno', _⟩ | ⟨_, h⟩
  · exact absurd hstarted hno'
  · exact h

/-- Whether a run is a gathering depends on what each client sends only. -/
theorem Gathering.congr {xs ys : List Event} (h : Gathering S xs)
    (hsame : ∀ id, sent S xs id = sent S ys id) : Gathering S ys where
  arrives id := by
    rw [← hsame id]
    exact h.arrives id
  expected := by
    have hperm := (perm_of_past _ _ hsame).map Prod.fst
    simp only [schedule, List.map_map, Function.comp_def] at hperm
    rw [← List.toFinset_eq_of_perm _ _ hperm]
    exact h.expected

variable (S)

/-- Two interleavings of the same clients' packets, neither of which starts a game, or both
of which do in their last step, end in the same way and with the same server; and whatever
packets follow, the two go on alike, turn by turn. -/
theorem lobby_order_irrelevant (xs ys : List Event) (hgathering : Gathering S xs)
    (hsame : ∀ id, sent S xs id = sent S ys id)
    (hstart : (¬ GameStarted S xs ∧ ¬ GameStarted S ys) ∨ (StartsLast S xs ∧ StartsLast S ys)) :
    (outcome S xs).1 = (outcome S ys).1 ∧
    (outcome S xs).2.server = (outcome S ys).2.server ∧
    ∀ zs, ∃ r s es fs,
      exec (serve S zs) (outcome S xs).2 = (r, ⟨s, (outcome S xs).2.trace ++ es⟩) ∧
      exec (serve S zs) (outcome S ys).2 = (r, ⟨s, (outcome S ys).2.trace ++ fs⟩) ∧
      core es = core fs := by
  have hgathering' := hgathering.congr hsame
  have hend : (outcome S xs).1 = (outcome S ys).1 ∧
      (outcome S xs).2.server = (outcome S ys).2.server := by
    rcases hstart with ⟨hx, hy⟩ | ⟨hx, hy⟩
    · obtain ⟨w, hw, hsettled, _⟩ := settled_of_unstarted xs [] (by simpa using hgathering) hx
      obtain ⟨v, hv, hsettled', _⟩ := settled_of_unstarted ys [] (by simpa using hgathering') hy
      rw [hw, hv]
      exact ⟨rfl, hsettled.unique hsettled' hsame⟩
    · obtain ⟨s, es, hsettled, hdoes⟩ := settled_of_startsLast xs hgathering hx
      obtain ⟨t, fs, hsettled', hdoes'⟩ := settled_of_startsLast ys hgathering' hy
      obtain rfl := hsettled.unique hsettled' hsame
      exact hdoes.unique hdoes'
  refine ⟨hend.1, hend.2, fun zs ↦ ?_⟩
  obtain ⟨r, s, effects, hdoes⟩ := serve_does S zs (outcome S xs).2.server
  obtain ⟨es, hes, hcore⟩ := hdoes (outcome S xs).2.trace
  obtain ⟨fs, hfs, hcore'⟩ := hdoes (outcome S ys).2.trace
  rw [hend.2] at hfs
  exact ⟨r, s, es, fs, hes, hfs, hcore.trans hcore'.symm⟩

/-- The first client comes, is ready and waits. -/
def steadyClient : List Event :=
  [clientEvent 1 DefaultMessageId.idNewIncomingConnection.byte [],
    clientEvent 1 RRPGId.cIntro.byte (ascii "A"), clientEvent 1 RRPGId.cReady.byte []]

/-- The second one is ready, has doubts, and is ready again. -/
def doubtfulClient : List Event :=
  [clientEvent 2 DefaultMessageId.idNewIncomingConnection.byte [],
    clientEvent 2 RRPGId.cIntro.byte (ascii "B"), clientEvent 2 RRPGId.cReady.byte [],
    clientEvent 2 RRPGId.cUnready.byte [], clientEvent 2 RRPGId.cReady.byte []]

/-- The first client comes after the doubts, or before them. -/
def lateSteady : List Event := doubtfulClient.take 4 ++ steadyClient ++ doubtfulClient.drop 4

def earlySteady : List Event :=
  steadyClient.take 2 ++ doubtfulClient.take 4 ++ steadyClient.drop 2 ++ doubtfulClient.drop 4

private theorem sent_stranger (events : List Event) (id : UInt32)
    (h : ∀ e ∈ events, (Setup.plain 2).id e.packet = 1 ∨ (Setup.plain 2).id e.packet = 2)
    (h₁ : id ≠ 1) (h₂ : id ≠ 2) : sent (.plain 2) events id = [] := by
  simp only [sent, past, schedule, List.map_eq_nil_iff, List.filter_eq_nil_iff, List.mem_map]
  rintro _ ⟨e, he, rfl⟩
  rcases h e he with hid | hid
  · simpa [hid] using Ne.symm h₁
  · simpa [hid] using Ne.symm h₂

private theorem lateSteady_gathering : Gathering (.plain 2) lateSteady where
  arrives id := by
    by_cases h₁ : id = 1
    · subst h₁
      have hsent : sent (.plain 2) lateSteady 1 = steadyClient.map Event.packet := by
        decide +kernel
      rw [hsent]
      exact .inr ⟨_, _, _, rfl, by decide +kernel, by decide +kernel, by decide +kernel⟩
    · by_cases h₂ : id = 2
      · subst h₂
        have hsent : sent (.plain 2) lateSteady 2 = doubtfulClient.map Event.packet := by
          decide +kernel
        rw [hsent]
        exact .inr ⟨_, _, _, rfl, by decide +kernel, by decide +kernel, by decide +kernel⟩
      · exact .inl (sent_stranger lateSteady id (by decide +kernel) h₁ h₂)
  expected := by decide +kernel

private theorem steady_sent_eq (id : UInt32) :
    sent (.plain 2) lateSteady id = sent (.plain 2) earlySteady id := by
  by_cases h₁ : id = 1
  · subst h₁
    decide +kernel
  · by_cases h₂ : id = 2
    · subst h₂
      decide +kernel
    · rw [sent_stranger lateSteady id (by decide +kernel) h₁ h₂,
        sent_stranger earlySteady id (by decide +kernel) h₁ h₂]

/-- `StartGame` among the functions entered. -/
private theorem gameStarted_iff (S : Setup) (events : List Event) : GameStarted S events ↔
    Routine.startGame ∈ (entries (outcome S events).2.trace).map Prod.fst := by
  simp [GameStarted]

/-- In both orders the game starts in the last step, and from the same server. -/
theorem steady_order_irrelevant : (outcome (.plain 2) lateSteady).2.server =
    (outcome (.plain 2) earlySteady).2.server := by
  refine (lobby_order_irrelevant (.plain 2) lateSteady earlySteady lateSteady_gathering
    steady_sent_eq (.inr ⟨?_, ?_⟩)).2.1
  · exact ⟨lateSteady.dropLast, clientEvent 2 RRPGId.cReady.byte [], rfl,
      by rw [gameStarted_iff]; decide +kernel, by rw [gameStarted_iff]; decide +kernel⟩
  · exact ⟨earlySteady.dropLast, clientEvent 2 RRPGId.cReady.byte [], rfl,
      by rw [gameStarted_iff]; decide +kernel, by rw [gameStarted_iff]; decide +kernel⟩

end RRPG
