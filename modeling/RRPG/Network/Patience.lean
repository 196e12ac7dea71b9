import RRPG.Network.Play

/-!
# Patient users

The server lets a client join a started game and starts a game again if everybody turns out to be
ready. Neither happens where users are patient: they type `.ready` once at most, and not before all
peers are registered. Each `.ready` typed is then on its way, noted with its player, or used up by
the start.
-/

open RRPG.Base RRPG.Base.Handler

namespace RRPG

/-! ### Readiness -/

/-- A player with the id is registered and ready. -/
def Server.flagged (s : Server) (id : UInt32) : Bool := (s.players.find? id).any Player.ready

/-- How many packets of a kind are on their way from a client. -/
def Client.count (kind : RRPGId) (client : Client) : Nat :=
  client.up.countP fun p ↦ p.kind = some kind

section
variable {S : Setup} {c : Chance} {p : Packet} {s s' : Server} {r : Except Halt Unit}
  {es : List Effect}

/-- In the lobby only its own `C_READY` makes a player ready. -/
theorem Handled.flagged_before (h : Handled S c p s r s' es) (hp : p.isAnswer = false)
    (hlobby : s'.networkState ≠ .nsGameStarted) (id : UInt32) (hready : s'.flagged id = true) :
    s.flagged id = true ∨ (p.kind = some .cReady ∧ S.id p = id) := by
  have hkind : p.kind ≠ some .cJobChosen ∧ p.kind ≠ some .cActionTaken := by
    simpa [Packet.isAnswer] using hp
  unfold Server.flagged at *
  cases h with
  | joins hk =>
    left
    rw [Server.joined, OrdMap.find?_emplace] at hready
    split at hready
    · cases hready
    · exact hready
  | readies hk hsender hwait =>
    by_cases hid : id = S.id p
    · exact .inr ⟨hk, hid.symm⟩
    · left
      rwa [Server.withPlayer_players, OrdMap.find?_adjust, if_neg hid] at hready
  | unreadies hk hsender =>
    left
    rw [Server.withPlayer_players, OrdMap.find?_adjust] at hready
    split at hready
    · simp [Option.any_map, Player.withReady] at hready
    · exact hready
  | starts hk hsender hall r s' es hstart => exact absurd hstart.handsOut.1 hlobby
  | chooses hk => exact absurd hk hkind.1
  | acts hk => exact absurd hk hkind.2
  | _ => exact .inl hready

/-- An introduction registers its sender, and no other packet anybody. -/
theorem Handled.mem_players_iff (h : Handled S c p s r s' es) (id : UInt32) :
    id ∈ s'.players ↔ id ∈ s.players ∨ (p.kind = some .cIntro ∧ id = S.id p) := by
  by_cases hk : p.kind = some .cIntro
  · obtain ⟨_, rfl, _⟩ := h.of_intro hk
    simp [Server.joined, hk, or_comm]
  · simp [(h.sameNames hk).mem id, hk]

end

/-- A line introduces nobody, and only `.ready` makes ready. -/
theorem GameClient.Typed.kind_ne {s s' : GameClient} {line : Bytes}
    {packet : ClientPacket} (h : s.Typed line s' (some packet)) :
    packet.kind ≠ .cIntro ∧ (packet.kind = .cReady → line.map tolower = ascii ".ready") := by
  cases h with
  | readies hstate hline => exact ⟨by simp, fun _ ↦ hline⟩
  | answers hstate hturn answer hanswer => cases hanswer <;> simp
  | _ => simp

/-- What holds only where one of two things does counts for no more than both. -/
theorem toNat_le_add {a b c : Bool} (h : a = true → b = true ∨ c = true) :
    a.toNat ≤ b.toNat + c.toNat := by
  cases a with
  | false => exact Nat.zero_le _
  | true =>
    cases h rfl with
    | inl hb => simp [hb]
    | inr hc => simp [hc]

variable {S : Setup} {Peer : Type} [DecidableEq Peer]

/-- What is left of a kind of packet, with the one handled. -/
theorem Net.count_handled (P : Peers S Peer) (n : Net Peer) {k : Peer} {p : Packet}
    {rest : List Packet} (hup : (n.client k).up = p :: rest) (r : Except Halt Unit) (s' : Server)
    (es : List Effect) (kind : RRPGId) (j : Peer) :
    (((n.set k ((n.client k).pop rest)).handled P r s' es).client j).count kind +
      (decide (j = k ∧ p.kind = some kind)).toNat = (n.client j).count kind := by
  simp only [Net.handled, Client.count, Client.after_up, Net.set_client]
  by_cases hj : j = k
  · subst hj
    rw [if_pos rfl, hup, List.countP_cons]
    by_cases hk : p.kind = some kind <;> simp [Client.pop, hk]
  · simp [hj]

/-- Who gets ready with a move. -/
def SystemMove.readied? {Peer : Type} : SystemMove Peer → Option Peer
  | .enter k userInput => if userInput.map tolower = ascii ".ready" then some k else none
  | _ => none

namespace System

section
variable (P : Roster S Peer) (C : StringCodec S.toRakNet)

/-- Nobody gets ready twice, or before all peers are registered; `typed` have got ready so far. -/
def Patient : System Peer → List Peer → List (SystemMove Peer) → Prop
  | _, _, [] => True
  | y, typed, m :: moves =>
    (∀ k ∈ m.readied?, k ∉ typed ∧ ∀ j ∈ P.all, P.id j ∈ y.net.world.server.players) ∧
      Patient (step P C y m) (typed ++ m.readied?.toList) moves

instance decidablePatient : (y : System Peer) → (typed : List Peer) →
    (moves : List (SystemMove Peer)) → Decidable (Patient P C y typed moves)
  | _, _, [] => isTrue trivial
  | y, typed, m :: moves =>
    have := decidablePatient (step P C y m) (typed ++ m.readied?.toList) moves
    inferInstanceAs (Decidable (_ ∧ _))

/-- Every introduction and every `.ready` is on its way, noted with its player, or used up by the
start of the game. -/
structure Waits (typed : List Peer) (y : System Peer) : Prop where
  intros : ∀ k, (y.net.client k).count .cIntro +
    (decide (P.id k ∈ y.net.world.server.players)).toNat ≤ (y.accepted k).toNat
  readies : y.net.world.server.networkState ≠ .nsGameStarted →
    ∀ k, (y.net.client k).count .cReady + (y.net.world.server.flagged (P.id k)).toNat ≤
      (decide (k ∈ typed)).toNat
  early : ∀ k ∈ typed, ∀ j, P.id j ∈ y.net.world.server.players
  started : y.net.world.server.networkState = .nsGameStarted →
    ∀ k, k ∈ typed ∧ (y.net.client k).count .cReady = 0

end

section
variable {P : Roster S Peer} {C : StringCodec S.toRakNet} {n : Net Peer} {k : Peer}
  {typed typed' : List Peer} {y y' : System Peer}

/-! ### What clients send -/

theorem post_world (k : Peer) (n : Net Peer) (data : Bytes) :
    (post P k n data).world = n.world := by
  unfold post
  split
  · split <;> rfl
  · rfl

/-- What is sent adds at most itself. -/
theorem post_count (data : Bytes) (sent : Option RRPGId)
    (hsent : ∀ p : Packet, p.data = data → p.kind = sent) (kind : RRPGId) (j : Peer) :
    ((post P k n data).client j).count kind ≤
      (n.client j).count kind + (decide (j = k ∧ sent = some kind)).toNat := by
  by_cases hj : j = k
  · subst hj
    by_cases hl : (n.client j).link = .linked
    · by_cases hdata : data = []
      · rw [hdata, post_nil]
        exact Nat.le_add_right _ _
      · rw [post_eq hdata hl, Net.set_client_self]
        have hkind := hsent ⟨P.addr j, P.guid j, data, hdata⟩ rfl
        by_cases hk : sent = some kind <;> simp [Client.count, Client.send, hkind, hk]
    · rw [post_closed hl]
      exact Nat.le_add_right _ _
  · rw [post_other j hj]
    exact Nat.le_add_right _ _

/-- What clients do themselves. -/
theorem Waits.sends (h : Waits P typed y) (more : Option Peer)
    (htyped : ∀ k, k ∈ typed' ↔ k ∈ typed ∨ k ∈ more)
    (hmore : ∀ k ∈ more, k ∉ typed ∧ ∀ j, P.id j ∈ y.net.world.server.players)
    (hworld : y'.net.world = y.net.world)
    (hintros : ∀ k, (y'.net.client k).count .cIntro + (y.accepted k).toNat ≤
      (y.net.client k).count .cIntro + (y'.accepted k).toNat)
    (hreadies : ∀ k, (y'.net.client k).count .cReady ≤
      (y.net.client k).count .cReady + (decide (k ∈ more)).toNat) : Waits P typed' y' := by
  refine ⟨fun k ↦ ?_, fun hlobby k ↦ ?_, fun k hk j ↦ ?_, fun hstarted k ↦ ?_⟩
  · have := h.intros k
    have := hintros k
    rw [hworld]
    omega
  · rw [hworld] at hlobby ⊢
    have hwaits := h.readies hlobby k
    have hsent := hreadies k
    by_cases hk : k ∈ more
    · have hnew := (hmore k hk).1
      simp only [htyped, hk, hnew, or_true, decide_true, decide_false, Bool.toNat_true,
        Bool.toNat_false] at hwaits hsent ⊢
      omega
    · simp only [htyped, hk, or_false, decide_false, Bool.toNat_false] at hwaits hsent ⊢
      omega
  · rw [hworld]
    cases (htyped k).mp hk with
    | inl hk => exact h.early k hk j
    | inr hk => exact (hmore k hk).2 j
  · obtain ⟨hk, hnone⟩ := h.started (hworld ▸ hstarted) k
    have hsent := hreadies k
    have hold : k ∉ more := fun hnew ↦ (hmore k hnew).1 hk
    simp only [hold, decide_false, Bool.toNat_false] at hsent
    exact ⟨(htyped k).mpr (.inl hk), by omega⟩

/-! ### What the server does -/

/-- Where users are patient the next packet is in season. -/
theorem Waits.inSeason (h : Waits P typed y) {p : Packet} (hp : p ∈ (y.net.client k).up) :
    InSeason S y.net p := by
  intro hstarted
  obtain ⟨hk, hnone⟩ := h.started hstarted k
  have hcount {kind : RRPGId} (hkind : p.kind = some kind) :
      0 < (y.net.client k).count kind :=
    List.countP_pos_iff.mpr ⟨p, hp, decide_eq_true hkind⟩
  refine ⟨fun hintro ↦ ?_, fun hready ↦ absurd (hcount hready) (by omega)⟩
  have hintros := h.intros k
  have hpos := hcount hintro
  have hle := (y.accepted k).toNat_le
  simp only [h.early k hk k, decide_true, Bool.toNat_true] at hintros
  omega

/-- The packet that starts a game finds everybody registered, ready, and with nothing left to get
ready with. -/
theorem Waits.all_ready (h : Waits P typed y) {p : Packet} {rest : List Packet}
    (hup : (y.net.client k).up = p :: rest) (hsender : S.id p = P.id k)
    (hlobby : y.net.world.server.networkState ≠ .nsGameStarted) (hk : p.kind = some .cReady)
    (hothers : OthersReady S y.net.world.server p) (j : Peer) :
    j ∈ typed ∧ (y.net.client j).count .cReady = (decide (j = k)).toNat := by
  have hwaits := h.readies hlobby
  have hsent : 0 < (y.net.client k).count .cReady :=
    List.countP_pos_iff.mpr ⟨p, by simp [hup], decide_eq_true hk⟩
  have htyped {i : Peer} (hi : 0 < (y.net.client i).count .cReady +
      (y.net.world.server.flagged (P.id i)).toNat) : i ∈ typed := by
    by_contra hno
    have := hwaits i
    simp only [hno, decide_false, Bool.toNat_false] at this
    omega
  have hkt : k ∈ typed := htyped (by omega)
  by_cases hj : j = k
  · subst hj
    have := hwaits j
    simp only [hkt, decide_true, Bool.toNat_true] at this
    exact ⟨hkt, by simp only [decide_true, Bool.toNat_true]; omega⟩
  · obtain ⟨player, hp⟩ := (OrdMap.mem_iff_find? _ _).mp (h.early k hkt j)
    have hready := hothers.1 _ player hp fun hid ↦ hj (P.id_injective (hid.trans hsender))
    have hflagged : y.net.world.server.flagged (P.id j) = true := by
      rw [Server.flagged, hp, Option.any_some, hready]
    have hjt : j ∈ typed := htyped (by rw [hflagged, Bool.toNat_true]; omega)
    have := hwaits j
    simp only [hjt, hflagged, decide_true, Bool.toNat_true] at this
    exact ⟨hjt, by simp only [hj, decide_false, Bool.toNat_false]; omega⟩

/-- The server handles a packet. -/
theorem Waits.handled (h : Waits P typed y) (hagreed : P.Agreed C y.net) {p : Packet}
    {rest : List Packet} (hup : (y.net.client k).up = p :: rest) {c : Chance}
    {r : Except Halt Unit} {s' : Server} {es : List Effect}
    (hhandled : Handled S c p y.net.world.server r s' (core es))
    (hnet : y'.net = (y.net.set k ((y.net.client k).pop rest)).handled P.toPeers r s' es)
    (haccepted : y'.accepted = y.accepted) : Waits P typed y' := by
  have hmem : p ∈ (y.net.client k).up := by simp [hup]
  have hsender : S.id p = P.id k := (hagreed.steady.tokens.sent k p hmem).1
  have hserver : y'.net.world.server = s' := by rw [hnet]; rfl
  have hcount (kind : RRPGId) (j : Peer) : (y'.net.client j).count kind +
      (decide (j = k ∧ p.kind = some kind)).toNat = (y.net.client j).count kind := by
    rw [hnet]
    exact Net.count_handled P.toPeers y.net hup r s' es kind j
  have hanswer (hlobby : y.net.world.server.networkState ≠ .nsGameStarted) :
      p.isAnswer = false := by
    by_contra hanswer
    exact hlobby (hagreed.live hmem (by simpa using hanswer)).1
  refine ⟨fun j ↦ ?_, fun hlobby j ↦ ?_, fun j hj i ↦ ?_, fun hstarted j ↦ ?_⟩
  · have hregistered : (decide (P.id j ∈ s'.players)).toNat ≤
        (decide (P.id j ∈ y.net.world.server.players)).toNat +
          (decide (j = k ∧ p.kind = some .cIntro)).toNat := by
      apply toNat_le_add
      simp only [decide_eq_true_eq, hhandled.mem_players_iff]
      exact Or.imp_right fun hintro ↦ ⟨P.id_injective (hintro.2.trans hsender), hintro.1⟩
    have := h.intros j
    have := hcount .cIntro j
    rw [hserver, haccepted]
    omega
  · rw [hserver] at hlobby ⊢
    have hbefore : y.net.world.server.networkState ≠ .nsGameStarted := fun hs ↦
      hlobby ((hhandled.pointerKept hagreed.steady.valid).started hs).1
    have hflagged : (s'.flagged (P.id j)).toNat ≤
        (y.net.world.server.flagged (P.id j)).toNat +
          (decide (j = k ∧ p.kind = some .cReady)).toNat := by
      apply toNat_le_add
      intro hready
      rw [decide_eq_true_eq]
      exact (hhandled.flagged_before (hanswer hbefore) hlobby _ hready).imp_right fun hk ↦
        ⟨P.id_injective (hk.2.symm.trans hsender), hk.1⟩
    have := h.readies hbefore j
    have := hcount .cReady j
    omega
  · rw [hserver]
    exact hhandled.mem_of_mem (h.early j hj i)
  · have hleft := hcount .cReady j
    by_cases hbefore : y.net.world.server.networkState = .nsGameStarted
    · obtain ⟨hj, hnone⟩ := h.started hbefore j
      exact ⟨hj, by omega⟩
    · rcases hhandled.other_cases (hanswer hbefore) with ⟨_, _, _, hsame, _⟩ | ⟨hk, hall, _⟩
      · exact absurd ((hserver ▸ hstarted : s'.networkState = _).symm.trans hsame).symm hbefore
      · obtain ⟨hj, hone⟩ := h.all_ready hup hsender hbefore hk
          ((othersReady_iff S y.net.world.server p).mpr hall) j
        simp only [hk, and_true] at hleft
        exact ⟨hj, by omega⟩

/-! ### Moves -/

/-- A client changed with nothing sent. -/
theorem count_of_same (client : Client) (hup : client.up = (n.client k).up) (kind : RRPGId)
    (j : Peer) : ((n.set k client).client j).count kind = (n.client j).count kind :=
  Net.set_forall client (fun j c ↦ c.count kind = (n.client j).count kind)
    (congrArg (List.countP _) hup) (fun _ _ ↦ rfl) j

theorem Waits.connects (h : Waits P typed y) (k : Peer) : Waits P typed (y.connected P k) := by
  have hcount := post_count (P := P) (n := y.net.set k (y.net.client k).connect) (k := k)
    _ none fun p hp ↦ (lowLevel_of_notice hp).2.1
  simp only [reduceCtorEq, and_false, decide_false, Bool.toNat_false, Nat.add_zero,
    count_of_same (y.net.client k).connect rfl] at hcount
  apply h.sends none (by simp) (by simp)
  · exact post_world k _ _
  · exact fun j ↦ Nat.add_le_add_right (hcount .cIntro j) _
  · exact fun j ↦ Nat.le_add_right_of_le (hcount .cReady j)

/-- An accepted client introduces itself, once. -/
theorem Waits.introduces (h : Waits P typed y) (hwaits : y.accepted k = false) :
    Waits P typed (y.introduced P C k) := by
  have hcount := post_count (P := P) (n := y.net) (k := k)
    ((ClientPacket.intro (y.client k).player.name
      (y.client k).player.ready).bits C.toStringCompressor).pack (some .cIntro)
    fun p hp ↦ (Packet.payload_of_pack hp).2.1
  apply h.sends none (by simp) (by simp)
  · exact post_world k _ _
  · intro j
    have := hcount .cIntro j
    by_cases hj : j = k
    · subst hj
      simpa [introduced, Function.update_self, hwaits] using this
    · simpa [introduced, Function.update_of_ne hj, hj] using this
  · intro j
    simpa [introduced] using hcount .cReady j

theorem Waits.hears (h : Waits P typed y) (k : Peer) (m : Message × Server)
    (rest : List (Message × Server)) : Waits P typed (y.heard k m rest) := by
  have hcount := count_of_same (n := y.net) (k := k) ((y.net.client k).deliver m rest) rfl
  apply h.sends none (by simp) (by simp)
  · rfl
  · exact fun j ↦ Nat.add_le_add_right (hcount .cIntro j).le _
  · exact fun j ↦ Nat.le_add_right_of_le (hcount .cReady j).le

/-- A line sends a `C_READY` only if its user gets ready with it. -/
theorem Waits.types (h : Waits P typed y) {line : Bytes} {s' : GameClient}
    {sent : Option ClientPacket} (hline : (y.client k).Typed line s' sent)
    (htyped : ∀ j, j ∈ typed' ↔ j ∈ typed ∨ j ∈ (SystemMove.enter k line).readied?)
    (hm : ∀ j ∈ (SystemMove.enter k line).readied?,
      j ∉ typed ∧ ∀ i, P.id i ∈ y.net.world.server.players) :
    Waits P typed' (y.typed P C k s' sent) := by
  cases sent with
  | none =>
    apply h.sends _ htyped hm
    · rfl
    · exact fun j ↦ le_rfl
    · exact fun j ↦ Nat.le_add_right _ _
  | some packet =>
    obtain ⟨hintro, hready⟩ := hline.kind_ne
    have hcount := post_count (P := P) (n := y.net) (k := k)
      (packet.bits C.toStringCompressor).pack (some packet.kind)
      fun p hp ↦ (Packet.payload_of_pack hp).2.1
    rw [System.typed, Option.elim_some]
    apply h.sends _ htyped hm
    · exact post_world k _ _
    · intro j
      have := hcount .cIntro j
      simp only [Option.some_inj, hintro, and_false, decide_false, Bool.toNat_false] at this
      exact Nat.add_le_add_right this _
    · intro j
      apply (hcount .cReady j).trans
      apply Nat.add_le_add_left
      by_cases hk : packet.kind = .cReady
      · rw [hk]
        simp [SystemMove.readied?, hready hk, eq_comm]
      · simp only [Option.some_inj, hk, and_false, decide_false, Bool.toNat_false]
        exact Nat.zero_le _

theorem Waits.serves (h : Waits P typed y) (hagreed : P.Agreed C y.net) (k : Peer) (c : Chance) :
    Waits P typed (y.served P k c) := by
  cases hup : (y.net.client k).up with
  | nil => simpa only [served, Net.move, hup] using h
  | cons p rest =>
    rcases hexec : exec (packetHandler S c p) y.net.world with ⟨r, ⟨s', trace⟩⟩
    obtain ⟨es, htrace, hhandled⟩ := handled_of_exec S c p y.net.world _ r hexec
    obtain rfl : trace = y.net.world.trace ++ es := htrace
    exact h.handled hagreed hup hhandled (by simp [served, Net.move, hup, hexec]) rfl

/-- A move of patient users. -/
theorem Waits.step (h : Waits P typed y) (hplaying : Playing P C y) {m : SystemMove Peer}
    (hstep : StepDoes P C y m y') (hm : ∀ k ∈ m.readied?,
      k ∉ typed ∧ ∀ j ∈ P.all, P.id j ∈ y.net.world.server.players) :
    Waits P (typed ++ m.readied?.toList) y' := by
  have hnone {y' : System Peer} (h : Waits P typed y') : Waits P (typed ++ []) y' := by
    rwa [List.append_nil]
  have htyped (j : Peer) : j ∈ typed ++ m.readied?.toList ↔ j ∈ typed ∨ j ∈ m.readied? := by
    simp [Option.mem_def]
  have hall : ∀ k ∈ m.readied?, k ∉ typed ∧ ∀ j, P.id j ∈ y.net.world.server.players :=
    fun k hk ↦ ⟨(hm k hk).1, fun j ↦ (hm k hk).2 j (P.mem_all j)⟩
  cases hstep with
  | stays => exact h.sends _ htyped hall rfl (fun _ ↦ le_rfl) fun _ ↦ Nat.le_add_right _ _
  | connects k hl => exact hnone (h.connects k)
  | accepts k locals hrunning hl hwaits => exact hnone (h.introduces hwaits)
  | delivers k locals hrunning hl haccepted m rest hdown hm => exact hnone (h.hears k m rest)
  | types k line hrunning s' sent hline => exact h.types hline htyped hall
  | idles k line hrunning hidle => exact absurd hidle hplaying.refines.not_idle
  | serves k c hrunning => exact hnone (h.serves hplaying.refines.agreed.1 k c)

theorem Waits.init : Waits P [] (init P) where
  intros k := by simp [System.init, Net.init, Server.init, Client.count]
  readies _ k := by simp [System.init, Net.init, Server.init, Server.flagged, Client.count]
  early k hk := by cases hk
  started hs := by simp [System.init, Net.init, Server.init] at hs

theorem Waits.admits (h : Waits P typed y) (m : SystemMove Peer) :
    Admits (InSeason S) y m := by
  cases m with
  | serve k c => exact fun p hp ↦ h.inSeason (List.mem_of_mem_head? hp)
  | _ => trivial

/-- Patient users make an orderly run. -/
theorem Waits.run_moves (h : Waits P typed y) (hplaying : Playing P C y)
    (moves : List (SystemMove Peer)) (hpatient : Patient P C y typed moves) :
    Orderly P C (InSeason S) y moves ∧
      Waits P (typed ++ moves.filterMap SystemMove.readied?) (System.run P C y moves) := by
  induction moves generalizing y typed with
  | nil =>
    rw [List.filterMap_nil, List.append_nil]
    exact ⟨trivial, h⟩
  | cons m moves ih =>
    have hadmits := h.admits m
    have hstep := stepDoes hplaying.refines.safe m
    obtain ⟨horderly, hwaits⟩ := ih (h.step hplaying hstep hpatient.1)
      (hplaying.step hstep hadmits) hpatient.2
    refine ⟨⟨hadmits, horderly⟩, ?_⟩
    rw [List.append_assoc] at hwaits
    have hsplit : (m :: moves).filterMap SystemMove.readied? =
        m.readied?.toList ++ moves.filterMap SystemMove.readied? := by
      rw [List.filterMap_cons]
      cases m.readied? <;> rfl
    rwa [hsplit]

end

/-- Where nobody types `.ready` twice, or before all peers are registered, nobody joins a started
game and no started game is started again; and the game starts only when everybody has typed it. -/
theorem orderly_of_patient (P : Roster S Peer) (C : StringCodec S.toRakNet)
    (moves : List (SystemMove Peer)) (hpatient : Patient P C (init P) [] moves) :
    Orderly P C (InSeason S) (init P) moves ∧
      ((run P C (init P) moves).net.world.server.networkState = .nsGameStarted →
        ∀ k, P.id k ∈ (run P C (init P) moves).net.world.server.players ∧
          k ∈ moves.filterMap SystemMove.readied?) := by
  obtain ⟨horderly, hwaits⟩ := Waits.init.run_moves Playing.init moves hpatient
  refine ⟨horderly, fun hstarted k ↦ ?_⟩
  have hk := (hwaits.started hstarted k).1
  exact ⟨hwaits.early k hk k, by simpa using hk⟩

/-- The wizards are patient. -/
theorem wizards_patient :
    Orderly pair pairCodec (InSeason (.counted 2)) (init pair) wizardsOnTurn ∧
      ((run pair pairCodec (init pair) wizardsOnTurn).net.world.server.networkState =
          .nsGameStarted →
        ∀ k, pair.id k ∈ (run pair pairCodec (init pair) wizardsOnTurn).net.world.server.players ∧
          k ∈ wizardsOnTurn.filterMap SystemMove.readied?) :=
  orderly_of_patient pair pairCodec wizardsOnTurn (by decide +kernel)

end System

end RRPG
