import RRPG.Server.Packets

/-!
# The turn pointer

The keys of the two maps agree, and from the first `StartGame` on the pointer is one of
them. Whatever packets arrive, no iterator at the end is advanced or dereferenced after
that, and every lookup of the current player succeeds.
-/

open RRPG.Base RRPG.Base.Handler

namespace RRPG

/-- The maps agree, and a started game has a current player. -/
structure Server.Valid (s : Server) : Prop where
  registered : ∀ id, id ∈ s.players ↔ id ∈ s.playerAddresses
  pointer : s.networkState = .nsGameStarted → s.currentPlayerTurn ∈ s.players

/-- Failures of the pointer: an iterator at the end, or a player without address. -/
def Fault.ofPointer : Fault → Prop
  | advanceEnd | derefEnd | getAddressFromID _ => True
  | getPlayer _ | target | timestamp => False

/-- What holds when a member function is entered. -/
structure EntryOk (e : Routine × Server) : Prop where
  valid : e.2.Valid
  nonempty : e.1 = .startGame → ∃ id, id ∈ e.2.players
  winner : ∀ id, e.1 = .gameOver id → id ∈ e.2.players

/-- What a step from a valid state guarantees. -/
structure PointerKept (s : Server) (r : Except Halt Unit) (s' : Server)
    (es : List Effect) : Prop where
  valid : s'.Valid
  entered : ∀ e ∈ entries es, EntryOk e
  started : s.networkState = .nsGameStarted → s'.networkState = .nsGameStarted ∧
    ∀ e ∈ entries es, e.2.networkState = .nsGameStarted
  starting : ∀ e ∈ entries es, e.1 = .startGame →
    s'.networkState = .nsGameStarted ∧ entries es = [e]
  sound : ∀ fault, r = .error (.abort fault) → s'.networkState = .nsGameStarted →
    ¬ fault.ofPointer

theorem Server.Valid.init : Server.init.Valid where
  registered id := by simp [Server.init]
  pointer h := by cases h

/-- Changes of players that keep the keys keep validity. -/
theorem Server.Valid.withPlayers {s : Server} (h : s.Valid) (players : OrdMap UInt32 Player)
    (hkeys : ∀ id, id ∈ players ↔ id ∈ s.players) : ({ s with players := players }).Valid where
  registered id := by rw [← h.registered id]; exact hkeys id
  pointer hn := (hkeys _).mpr (h.pointer hn)

/-- The pointer may move to any registered player. -/
theorem Server.Valid.withPointer {s : Server} (h : s.Valid) (id : UInt32)
    (hid : id ∈ s.players) : ({ s with currentPlayerTurn := id }).Valid :=
  ⟨h.registered, fun _ ↦ hid⟩

theorem Server.Valid.withGameState {s : Server} (h : s.Valid) (gameState : GameState) :
    ({ s with gameState := gameState }).Valid :=
  ⟨h.registered, h.pointer⟩

theorem Server.Valid.withPlayer {s : Server} (h : s.Valid) (id : UInt32)
    (f : Player → Player) : (s.withPlayer id f).Valid :=
  h.withPlayers _ fun j ↦ s.players.mem_adjust id f j

theorem Server.Valid.acted {s : Server} (S : Setup) (c : Chance) (p : Packet) (h : s.Valid)
    (id : UInt32) : (s.acted S c p id).Valid := by
  unfold Server.acted
  split
  · exact h
  · exact h.withPlayer id _

/-- Whoever comes after somebody has an address. -/
theorem Server.Valid.next_registered {s : Server} (h : s.Valid) {k id : UInt32}
    (hnext : s.players.next? k = some id) : id ∈ s.playerAddresses :=
  (h.registered id).mp ((OrdMap.next?_eq_some _ _ id).mp hnext).1

/-- A step that keeps the network state and enters only `es`, none of them `StartGame`. -/
theorem PointerKept.of_entries {s s' : Server} {r : Except Halt Unit} {effects : List Effect}
    (es : List (Routine × Server)) (hes : entries effects = es) (hv : s'.Valid)
    (hn : s'.networkState = s.networkState)
    (hok : ∀ e ∈ es, EntryOk e ∧ e.1 ≠ .startGame ∧ e.2.networkState = s.networkState)
    (hr : ∀ fault, r = .error (.abort fault) → s'.networkState = .nsGameStarted →
      ¬ fault.ofPointer) : PointerKept s r s' effects where
  valid := hv
  entered e he := (hok e (hes ▸ he)).1
  started h := ⟨hn.trans h, fun e he ↦ (hok e (hes ▸ he)).2.2.trans h⟩
  starting e he hs := absurd hs (hok e (hes ▸ he)).2.1
  sound := hr

theorem entryOk_nextTurn {s : Server} (h : s.Valid) : EntryOk (.nextTurn, s) :=
  ⟨h, by simp, by simp⟩

theorem NextTurnDoes.pointerKept {s s' : Server} {r : Except Halt Unit} {es : List Effect}
    (h : NextTurnDoes s r s' es) (hv : s.Valid) :
    s'.Valid ∧ s'.networkState = s.networkState ∧
      (∀ e ∈ entries es, EntryOk e ∧ e.1 ≠ .startGame ∧ e.2.networkState = s.networkState) ∧
      ∀ fault, r = .error (.abort fault) → s'.networkState = .nsGameStarted →
        ¬ fault.ofPointer := by
  cases h with
  | unset hcur =>
    refine ⟨hv, rfl, by simp, ?_⟩
    intro fault _ hstarted
    exact absurd (hv.pointer hstarted) hcur
  | hangs hcur hdead => exact ⟨hv, rfl, by simp, by simp⟩
  | ends hcur id hnext hone =>
    have hturn := hv.withPointer id hnext.living.mem
    refine ⟨hturn.withGameState _, rfl, ?_, by simp⟩
    simp only [entries_cons, Effect.entry?, Option.toList_some, Option.toList_none,
      entries_nil, List.append_nil, List.mem_singleton]
    rintro e rfl
    refine ⟨⟨hturn, by simp, ?_⟩, by simp, rfl⟩
    rintro _ ⟨rfl⟩
    exact hnext.living.mem
  | passes hcur id hnext hmany systemAddress haddr =>
    exact ⟨hv.withPointer id hnext.living.mem, rfl, by simp, by simp⟩
  | lost hcur id hnext hmany haddr =>
    exact absurd ((hv.registered id).mp hnext.living.mem) haddr

theorem ChosenDoes.pointerKept {s₀ s s' : Server} {r : Except Halt Unit} {es : List Effect}
    (h : ChosenDoes s r s' es) (hv : s.Valid) (hn : s.networkState = s₀.networkState) :
    PointerKept s₀ r s' es := by
  cases h with
  | unset hcur =>
    refine .of_entries [] rfl hv hn (by simp) ?_
    intro fault _ hstarted
    exact absurd (hv.pointer hstarted) hcur
  | passes hcur id hnext systemAddress haddr =>
    have hid := ((s.players.next?_eq_some _ id).mp hnext).1
    exact .of_entries [] (by simp) (hv.withPointer id hid) hn (by simp) (by simp)
  | lost hcur id hnext haddr =>
    have hid := ((s.players.next?_eq_some _ id).mp hnext).1
    exact absurd ((hv.registered id).mp hid) haddr
  | starts hcur hnext r s' es hturn =>
    have hmain := hv.withGameState .gsMain
    obtain ⟨hv', hn', hok, hr⟩ := hturn.pointerKept hmain
    refine .of_entries
      ((.startMainGame, s) :: (.nextTurn, { s with gameState := .gsMain }) :: entries es)
      (by simp) hv' (hn'.trans hn) ?_ hr
    intro e he
    rcases List.mem_cons.mp he with rfl | he
    · exact ⟨⟨hv, by simp, by simp⟩, by simp, hn⟩
    · rcases List.mem_cons.mp he with rfl | he
      · exact ⟨entryOk_nextTurn hmain, by simp, hn⟩
      · obtain ⟨h₁, h₂, h₃⟩ := hok e he
        exact ⟨h₁, h₂, h₃.trans hn⟩

/-- With registered players `StartGame` hands the first turn to the smallest id. -/
theorem StartGameDoes.of_registered {s s' : Server} {r : Except Halt Unit} {es : List Effect}
    (h : StartGameDoes s r s' es) (hreg : ∀ id, id ∈ s.players ↔ id ∈ s.playerAddresses)
    (hne : ∃ id, id ∈ s.players) :
    ∃ first systemAddress, s.players.begin? = some first ∧
      s.playerAddresses.find? first = some systemAddress ∧ r = .ok () ∧
      s' = s.started first ∧ s'.Valid ∧ turns es = [(systemAddress, s.started first)] := by
  obtain ⟨k, hk⟩ := hne
  cases h with
  | empty hb =>
    obtain ⟨b, hb'⟩ := s.players.begin?_isSome hk
    exact absurd (hb.symm.trans hb') (by simp)
  | passes first hb systemAddress haddr =>
    have hfirst := ((s.players.begin?_eq_some first).mp hb).1
    refine ⟨first, systemAddress, hb, haddr, rfl, rfl, ⟨?_, fun _ ↦ ?_⟩, by simp⟩
    · simpa [Server.started] using hreg
    · simpa [Server.started] using hfirst
  | lost first hb haddr =>
    exact absurd ((hreg first).mp ((s.players.begin?_eq_some first).mp hb).1) haddr

theorem StartGameDoes.pointerKept {s₀ s s' : Server} {r : Except Halt Unit} {es : List Effect}
    (h : StartGameDoes s r s' es) (hv : s.Valid) (hne : ∃ id, id ∈ s.players)
    (hn : s.networkState = s₀.networkState) : PointerKept s₀ r s' es := by
  obtain ⟨first, systemAddress, _, _, rfl, rfl, hvalid, _⟩ := h.of_registered hv.registered hne
  have hentries := h.entries
  refine ⟨hvalid, ?_, ?_, ?_, by simp⟩
  · simpa [hentries] using EntryOk.mk (e := (.startGame, s)) hv (fun _ ↦ hne) (by simp)
  · intro hstarted
    exact ⟨rfl, by simp [hentries, hn, hstarted]⟩
  · simp [hentries, Server.started]

/-- Every way through the packet handler keeps the pointer. -/
theorem Handled.pointerKept {S : Setup} {c : Chance} {p : Packet} {s s' : Server}
    {r : Except Halt Unit} {es : List Effect} (h : Handled S c p s r s' es) (hv : s.Valid) :
    PointerKept s r s' es := by
  cases h with
  | malformed hid => exact .of_entries [] rfl hv rfl (by simp) (by simp [Fault.ofPointer])
  | counted i hlow => exact .of_entries [] rfl ⟨hv.registered, hv.pointer⟩ rfl (by simp) (by simp)
  | quiet hlow hk => exact .of_entries [] rfl hv rfl (by simp) (by simp)
  | chats hk hsender => exact .of_entries [] rfl hv rfl (by simp) (by simp)
  | stranger k hk hneeds hsender =>
    exact .of_entries [] rfl hv rfl (by simp) (by simp [Fault.ofPointer])
  | joins hk =>
    refine .of_entries [] (by split <;> simp) ⟨?_, ?_⟩ rfl (by simp) (by simp)
    · intro id
      simp [Server.joined, hv.registered id]
    · intro hstarted
      simp [Server.joined, hv.pointer hstarted]
  | readies hk hsender hwait =>
    exact .of_entries [] rfl (hv.withPlayer _ _) rfl (by simp) (by simp)
  | starts hk hsender hall r s' es hstart =>
    exact hstart.pointerKept (hv.withPlayer _ _) ⟨S.id p, by simpa using hsender⟩ rfl
  | unreadies hk hsender => exact .of_entries [] rfl (hv.withPlayer _ _) rfl (by simp) (by simp)
  | chooses hk hsender r s' es hchosen => exact hchosen.pointerKept (hv.withPlayer _ _) rfl
  | misses hk hsender htarget =>
    exact .of_entries [] rfl hv rfl (by simp) (by simp [Fault.ofPointer])
  | acts hk hsender id player htarget hp r s' es hturn =>
    have hacted := hv.acted S c p id
    have hkeep := s.acted_networkState S c p id
    obtain ⟨hv', hn', hok, hr⟩ := hturn.pointerKept hacted
    refine .of_entries ((.nextTurn, s.acted S c p id) :: entries es) (by simp) hv'
      (hn'.trans hkeep) ?_ hr
    intro e he
    rcases List.mem_cons.mp he with rfl | he
    · exact ⟨entryOk_nextTurn hacted, by simp, hkeep⟩
    · obtain ⟨h₁, h₂, h₃⟩ := hok e he
      exact ⟨h₁, h₂, h₃.trans hkeep⟩

/-! ### Runs -/

/-- What holds of the server and its history in every run. -/
structure PointerHistory (w : World) : Prop where
  valid : w.server.Valid
  entered : ∀ e ∈ entries w.trace, EntryOk e
  started : (∃ t, (.startGame, t) ∈ entries w.trace) →
    w.server.networkState = .nsGameStarted
  order : (entries w.trace).Pairwise fun e₁ e₂ ↦
    e₁.1 = .startGame → e₂.2.networkState = .nsGameStarted

theorem PointerHistory.step {S : Setup} (e : Event) (v v' : World) (r : Except Halt Unit)
    (es : List Effect) (hv : PointerHistory v) (htrace : v'.trace = v.trace ++ es)
    (h : Handled S e.chance e.packet v.server r v'.server (core es)) : PointerHistory v' := by
  have hk := h.pointerKept hv.valid
  have hnew := hk.entered
  have hold := hk.started
  have hstart := hk.starting
  rw [entries_core] at hnew hold hstart
  refine ⟨hk.valid, ?_, ?_, ?_⟩
  · intro e' he'
    rw [htrace, entries_append, List.mem_append] at he'
    exact he'.elim (hv.entered e') (hnew e')
  · rintro ⟨t, ht⟩
    rw [htrace, entries_append, List.mem_append] at ht
    rcases ht with ht | ht
    · exact (hold (hv.started ⟨t, ht⟩)).1
    · exact (hstart _ ht rfl).1
  · rw [htrace, entries_append, List.pairwise_append]
    refine ⟨hv.order, ?_, ?_⟩
    · by_cases hs : ∃ e' ∈ entries es, e'.1 = .startGame
      · obtain ⟨e', he', hs⟩ := hs
        rw [(hstart e' he' hs).2]
        exact List.pairwise_singleton _ _
      · exact List.pairwise_of_forall_mem_list fun e₁ he₁ _ _ hs₁ ↦ absurd ⟨e₁, he₁, hs₁⟩ hs
    · intro e₁ he₁ e₂ he₂ hs₁
      exact (hold (hv.started ⟨e₁.2, hs₁ ▸ he₁⟩)).2 e₂ he₂

/-- Every run from the lobby has such a history, returned or not. -/
theorem pointerHistory (S : Setup) (events : List Event) :
    PointerHistory (outcome S events).2 :=
  serve_invariant S PointerHistory PointerHistory.step events ⟨Server.init, []⟩
    ⟨.init, by simp, by simp, by simp⟩

/-- The turn pointer is always valid. -/
theorem pointer_valid (S : Setup) (events : List Event) :
    let r := (outcome S events).1
    let w := (outcome S events).2
    (∀ id, id ∈ w.server.players ↔ id ∈ w.server.playerAddresses) ∧
    (∀ t, (.startGame, t) ∈ entries w.trace → ∃ id, id ∈ t.players) ∧
    ((∃ t, (.startGame, t) ∈ entries w.trace) →
      w.server.currentPlayerTurn ∈ w.server.players ∧
      w.server.currentPlayerTurn ∈ w.server.playerAddresses ∧
      ∀ fault, r = .error (.abort fault) → ¬ fault.ofPointer) ∧
    (∀ pre t post, entries w.trace = pre ++ (.nextTurn, t) :: post →
      (∃ u, (.startGame, u) ∈ pre) →
      t.currentPlayerTurn ∈ t.players ∧ t.currentPlayerTurn ∈ t.playerAddresses) ∧
    (∀ winner t, (.gameOver winner, t) ∈ entries w.trace → winner ∈ t.players) := by
  intro r w
  have hh : PointerHistory w := pointerHistory S events
  refine ⟨hh.valid.registered, fun t ht ↦ (hh.entered _ ht).nonempty rfl, ?_, ?_,
    fun winner t ht ↦ (hh.entered _ ht).winner winner rfl⟩
  · intro hs
    have hstarted := hh.started hs
    have hcur := hh.valid.pointer hstarted
    refine ⟨hcur, (hh.valid.registered _).mp hcur, ?_⟩
    intro fault hr
    have hrun : exec (serve S events) ⟨Server.init, []⟩ = (.error (.abort fault), w) :=
      Prod.ext hr rfl
    obtain ⟨pre, e, post, v, rfl, hpre, he⟩ := run_stopped _ events _ w _ hrun
    have hv := pointerHistory S pre
    rw [outcome, serve, hpre] at hv
    obtain ⟨es, _, hhandled⟩ := handled_of_exec S e.chance e.packet v w _ he
    exact (hhandled.pointerKept hv.valid).sound fault rfl hstarted
  · rintro pre t post hsplit ⟨u, hu⟩
    have horder := hh.order
    rw [hsplit, List.pairwise_append] at horder
    have hstarted := horder.2.2 _ hu (.nextTurn, t) (by simp) rfl
    have hok := hh.entered (.nextTurn, t) (by simp [hsplit])
    have hcur := hok.valid.pointer hstarted
    exact ⟨hcur, (hok.valid.registered _).mp hcur⟩

end RRPG
