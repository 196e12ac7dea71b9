import RRPG.Network.OneTurn

/-!
# One start of a game

`OnPlayerReady` tests neither the network state nor the game state, and `OnPlayerJobChosen`
sets the ready flags that `StartGame` cleared. A `C_READY` sent before `S_GAME_STARTED` came
in can therefore start a running game again. Where that does not happen, a game is started
once and its phase only moves forward.
-/

open RRPG.Base RRPG.Base.Handler

namespace RRPG

/-! ### Phases -/

/-- How often `StartGame` was entered. -/
def startCount (trace : List Effect) : Nat :=
  (entries trace).countP fun e ↦ e.1 = .startGame

@[simp] theorem startCount_append (t u : List Effect) :
    startCount (t ++ u) = startCount t + startCount u := by
  simp [startCount]

@[simp] theorem startCount_core (t : List Effect) : startCount (core t) = startCount t := by
  simp [startCount]

/-- Between two states of the server the phase never falls, as its effects show. -/
structure Forward (s : Server) (es : List Effect) (s' : Server) : Prop where
  order : es.Pairwise fun a b ↦ a.server.gameState.phase ≤ b.server.gameState.phase
  within : ∀ e ∈ es, s.gameState.phase ≤ e.server.gameState.phase ∧
    e.server.gameState.phase ≤ s'.gameState.phase
  ends : s.gameState.phase ≤ s'.gameState.phase

theorem Forward.trans {s₁ s₂ s₃ : Server} {es fs : List Effect} (h : Forward s₁ es s₂)
    (h' : Forward s₂ fs s₃) : Forward s₁ (es ++ fs) s₃ where
  order := List.pairwise_append.mpr ⟨h.order, h'.order, fun a ha b hb ↦
    (h.within a ha).2.trans (h'.within b hb).1⟩
  within e he := by
    rcases List.mem_append.mp he with he | he
    · exact ⟨(h.within e he).1, (h.within e he).2.trans h'.ends⟩
    · exact ⟨h.ends.trans (h'.within e he).1, (h'.within e he).2⟩
  ends := h.ends.trans h'.ends

/-- While the game state stays the same the phase does not fall. -/
theorem Forward.of_same {s s' : Server} {es : List Effect} (h : s'.gameState = s.gameState)
    (hes : ∀ e ∈ es, e.server.gameState = s.gameState) : Forward s es s' where
  order := List.pairwise_of_forall_mem_list fun a ha b hb ↦ by rw [hes a ha, hes b hb]
  within e he := by rw [hes e he, h]; exact ⟨le_rfl, le_rfl⟩
  ends := by rw [h]

section
variable {S : Setup} {c : Chance} {p : Packet} {s s' : Server} {r : Except Halt Unit}
  {es : List Effect}

theorem NextTurnDoes.forward (h : NextTurnDoes s r s' es) : Forward s es s' := by
  cases h with
  | ends hcur id hnext hone =>
    have hover : s.gameState.phase ≤ GameState.gsGameOver.phase := by
      cases s.gameState <;> decide
    exact ⟨by simpa using hover, by simpa using hover, hover⟩
  | _ => exact .of_same rfl (by simp)

theorem NextTurnDoes.startCount_eq (h : NextTurnDoes s r s' es) : startCount es = 0 := by
  cases h <;> simp [startCount]

/-- Before the game is over a choice moves the phase forward. -/
theorem ChosenDoes.forward (h : ChosenDoes s r s' es)
    (hs : s.gameState.phase ≤ GameState.gsMain.phase) : Forward s es s' := by
  cases h with
  | starts hcur hnext r s' es hturn =>
    have hmain : Forward s [⟨.enter .startMainGame, s⟩,
        ⟨.send .all (.updateGameState .gsMain (some s.records)), { s with gameState := .gsMain }⟩,
        ⟨.enter .nextTurn, { s with gameState := .gsMain }⟩] { s with gameState := .gsMain } :=
      ⟨by simpa using hs, by simpa using hs, hs⟩
    exact hmain.trans hturn.forward
  | _ => exact .of_same rfl (by simp)

theorem ChosenDoes.startCount_eq (h : ChosenDoes s r s' es) : startCount es = 0 := by
  cases h with
  | starts hcur hnext r s' es hturn =>
    have := hturn.startCount_eq
    simpa [startCount] using this
  | _ => simp [startCount]

/-- From the lobby `StartGame` moves the phase forward. -/
theorem StartGameDoes.forward (h : StartGameDoes s r s' es) (hs : s.gameState = .gsPending) :
    Forward s es s' := by
  cases h <;> constructor <;> simp [hs, GameState.phase, Server.started]

/-- A packet moves the phase forward, unless it is a choice after the game or starts a game
again. -/
theorem Handled.forward (h : Handled S c p s r s' es)
    (hjob : p.kind = some .cJobChosen → s.gameState.phase ≤ GameState.gsMain.phase)
    (hstart : p.kind = some .cReady → (s.withPlayer (S.id p) (·.withReady true)).CanStart S →
      s.gameState = .gsPending) : Forward s es s' := by
  cases h with
  | joins hk =>
    refine .of_same rfl ?_
    split <;> simp
  | starts hk hsender hall r s' es hstarts =>
    have := hstarts.forward (hstart hk hall)
    exact ⟨this.order, this.within, this.ends⟩
  | chooses hk hsender r s' es hchosen =>
    have := hchosen.forward (hjob hk)
    exact ⟨this.order, this.within, this.ends⟩
  | acts hk hsender id player htarget hp r s' es hturn =>
    have hreport : Forward s (actionReport S c p s id player ++
        [⟨.enter .nextTurn, s.acted S c p id⟩]) (s.acted S c p id) := by
      refine .of_same (s.acted_gameState S c p id) ?_
      unfold actionReport
      split <;> simp
    simpa using hreport.trans hturn.forward
  | _ => exact .of_same rfl (by simp)

/-- Only a `C_READY` that finds everybody ready enters `StartGame`, and it does so once. -/
theorem Handled.startCount_cases (h : Handled S c p s r s' es) : startCount es = 0 ∨
    (startCount es = 1 ∧ p.kind = some .cReady ∧
      (s.withPlayer (S.id p) (·.withReady true)).CanStart S ∧
      s'.networkState = .nsGameStarted) := by
  cases h with
  | joins hk =>
    left
    split <;> simp [startCount]
  | starts hk hsender hall r s' es hstart =>
    exact .inr ⟨by simp [startCount, hstart.entries], hk, hall, hstart.handsOut.1⟩
  | chooses hk hsender r s' es hchosen => exact .inl hchosen.startCount_eq
  | acts hk hsender id player htarget hp r s' es hturn =>
    left
    simpa [startCount] using hturn.startCount_eq
  | _ => exact .inl rfl

end

/-! ### Runs -/

variable {S : Setup} {Peer : Type} {P : Peers S Peer}

/-- Every player but the sender is ready, and as many as expected are connected. -/
def OthersReady (S : Setup) (s : Server) (p : Packet) : Prop :=
  (∀ id player, s.players.find? id = some player → id ≠ S.id p → player.ready = true) ∧
    s.totalConnections.toUInt32 = S.expectedPlayers

/-- Then, and only then, a `C_READY` starts a game. -/
theorem othersReady_iff (S : Setup) (s : Server) (p : Packet) :
    OthersReady S s p ↔ (s.withPlayer (S.id p) (·.withReady true)).CanStart S := by
  unfold OthersReady Server.CanStart
  rw [all_ready_iff, Server.withPlayer_totalConnections]

instance (S : Setup) (s : Server) (p : Packet) : Decidable (OthersReady S s p) :=
  decidable_of_iff _ (othersReady_iff S s p).symm

/-- Readiness is sent until `S_GAME_STARTED` has come in. Each turn is answered at most once,
with a job while jobs are chosen and with an action on a player registered in `s₀` in the
main game. Other packets are not restricted. -/
def inPhase (S : Setup) (Peer : Type) (s₀ : Server) : Rules Peer where
  send n k p :=
    (p.kind = some .cReady ∨ p.kind = some .cUnready →
      ∀ m ∈ (n.client k).received, m.1 ≠ .gameStarted) ∧
    (p.isAnswer = true →
      (n.client k).answered < turnCount (n.client k).received ∧
      answerKind n.world.server.gameState = p.kind ∧
      (p.kind = some .cActionTaken → target? S .least p s₀ ≠ none))
  serve _ _ := True

/-- The same, where no `C_READY` in a started game finds all the others ready. -/
def inPhaseNoRestart (S : Setup) (Peer : Type) (s₀ : Server) : Rules Peer where
  send := (inPhase S Peer s₀).send
  serve n p := p.kind = some .cReady → n.world.server.networkState = .nsGameStarted →
    ¬ OthersReady S n.world.server p

instance (S : Setup) (s₀ : Server) (n : Net Peer) (k : Peer) (p : Packet) :
    Decidable ((inPhase S Peer s₀).send n k p) :=
  inferInstanceAs (Decidable (_ ∧ _))

instance (S : Setup) (s₀ : Server) (n : Net Peer) (p : Packet) :
    Decidable ((inPhase S Peer s₀).serve n p) :=
  .isTrue trivial

instance (S : Setup) (s₀ : Server) (n : Net Peer) (k : Peer) (p : Packet) :
    Decidable ((inPhaseNoRestart S Peer s₀).send n k p) :=
  inferInstanceAs (Decidable (_ ∧ _))

instance (S : Setup) (s₀ : Server) (n : Net Peer) (p : Packet) :
    Decidable ((inPhaseNoRestart S Peer s₀).serve n p) :=
  inferInstanceAs (Decidable (_ → _ → ¬ _))

/-- What holds in every such run from the lobby `s₀`. -/
structure StartedOnce (P : Peers S Peer) (s₀ : Server) (n : Net Peer) : Prop where
  tokens : Tokens P n
  lobby : n.world.server.networkState ≠ .nsGameStarted →
    n.world.server.gameState = .gsPending ∧ startCount n.world.trace = 0
  once : startCount n.world.trace ≤ 1
  matched : ∀ k, ∀ p ∈ (n.client k).up, p.isAnswer = true →
    answerKind n.world.server.gameState = p.kind
  forward : Forward s₀ (core n.world.trace) n.world.server

theorem inPhaseNoRestart_disciplined (s₀ : Server) :
    Disciplined S (inPhaseNoRestart S Peer s₀) where
  once _ _ _ h hp := (h.2 hp).1
  noRestart n p h hk hnet hcan := h hk hnet ((othersReady_iff S n.world.server p).mpr hcan)

theorem answerKind_job {gameState : GameState}
    (h : answerKind gameState = some .cJobChosen) : gameState = .gsCharacterSelect := by
  cases gameState <;> simp_all [answerKind]

/-- What clients do keeps it. -/
theorem StartedOnce.set [DecidableEq Peer] {s₀ : Server} {n : Net Peer}
    (h : StartedOnce P s₀ n) (k : Peer) (client : Client) (htokens : Tokens P (n.set k client))
    (hup : ∀ p ∈ client.up, p.isAnswer = true →
      answerKind n.world.server.gameState = p.kind) : StartedOnce P s₀ (n.set k client) where
  tokens := htokens
  lobby := h.lobby
  once := h.once
  matched := Net.set_forall _ (fun _ c ↦ ∀ p ∈ c.up, p.isAnswer = true →
    answerKind n.world.server.gameState = p.kind) hup fun j _ ↦ h.matched j
  forward := h.forward

section
variable [DecidableEq Peer] {s₀ s' : Server} {n : Net Peer} {k : Peer} {p : Packet}
  {rest : List Packet} {c : Chance} {r : Except Halt Unit} {es : List Effect}

/-- An answer starts no game, and no other answer is on its way. -/
theorem StartedOnce.answer (hn : StartedOnce P s₀ n) (hup : (n.client k).up = p :: rest)
    (hhandled : Handled S c p n.world.server r s' (core es)) (hp : p.isAnswer = true)
    (htokens : Tokens P ((n.set k ((n.client k).pop rest)).handled P r s' es))
    (hforward : Forward s₀ (core (n.world.trace ++ es)) s') :
    StartedOnce P s₀ ((n.set k ((n.client k).pop rest)).handled P r s' es) := by
  obtain ⟨hlive, _⟩ := hn.tokens.holder k
    ((n.client k).tokens_pos_of_answer p (by simp [hup]) hp)
  have hnet := (hhandled.answer_handsOut hp hlive.2).1.trans hlive.1
  have hcount : startCount es = 0 := by
    rcases hhandled.startCount_cases with h | ⟨_, hk, _⟩
    · rwa [startCount_core] at h
    · simp [Packet.isAnswer, hk] at hp
  refine ⟨htokens, fun h ↦ absurd hnet h, ?_, ?_, hforward⟩
  · simpa [Net.handled, hcount] using hn.once
  · intro j q hq hanswer
    have hpos := Client.tokens_pos_of_answer _ q (Net.mem_up_of_handled j q hq) hanswer
    rw [hn.tokens.spent k p rest hup hp j] at hpos
    exact absurd hpos (lt_irrefl 0)

/-- Any other packet changes nothing that matters, or starts the game from the lobby. -/
theorem StartedOnce.other (hn : StartedOnce P s₀ n) (hup : (n.client k).up = p :: rest)
    (hhandled : Handled S c p n.world.server r s' (core es)) (hp : p.isAnswer = false)
    (hlobby : p.kind = some .cReady →
      (n.world.server.withPlayer (S.id p) (·.withReady true)).CanStart S →
      n.world.server.networkState ≠ .nsGameStarted)
    (htokens : Tokens P ((n.set k ((n.client k).pop rest)).handled P r s' es))
    (hforward : Forward s₀ (core (n.world.trace ++ es)) s') :
    StartedOnce P s₀ ((n.set k ((n.client k).pop rest)).handled P r s' es) := by
  have hleft (j : Peer) (q : Packet)
      (hq : q ∈ (((n.set k ((n.client k).pop rest)).handled P r s' es).client j).up) :
      q ∈ (n.client j).up :=
    Net.mem_up_of_pop hup j q (Net.mem_up_of_handled j q hq)
  rcases hhandled.other_cases hp with ⟨_, hent, _, hnet, hstate⟩ | ⟨hk, hcan, hstart⟩
  · have hcount : startCount es = 0 := by
      rw [← startCount_core]
      simp [startCount, hent]
    refine ⟨htokens, ?_, ?_, ?_, hforward⟩
    · intro h
      obtain ⟨hpending, hbefore⟩ := hn.lobby (hnet ▸ h)
      exact ⟨hstate.trans hpending, by simp [Net.handled, hcount, hbefore]⟩
    · simpa [Net.handled, hcount] using hn.once
    · intro j q hq hanswer
      exact (congrArg answerKind hstate).trans (hn.matched j q (hleft j q hq) hanswer)
  · have hnet := hstart.handsOut.1
    refine ⟨htokens, fun h ↦ absurd hnet h, ?_, ?_, hforward⟩
    · have hbefore := (hn.lobby (hlobby hk hcan)).2
      rcases hhandled.startCount_cases with h | ⟨h, _⟩ <;> rw [startCount_core] at h <;>
        simp [Net.handled, h, hbefore]
    · intro j q hq hanswer
      have hpos := Client.tokens_pos_of_answer _ q (hleft j q hq) hanswer
      exact absurd (hn.tokens.holder j hpos).1.1 (hlobby hk hcan)

end

/-- Every step keeps it and moves the phase forward. -/
theorem StartedOnce.step [DecidableEq Peer] {s₀ : Server} {n n' : Net Peer}
    (hn : StartedOnce P s₀ n) (h : Step P (inPhaseNoRestart S Peer s₀) n n') :
    StartedOnce P s₀ n' ∧
      n.world.server.gameState.phase ≤ n'.world.server.gameState.phase := by
  have htokens := hn.tokens.step (inPhaseNoRestart_disciplined s₀) h
  cases h with
  | connect k hl => exact ⟨hn.set k _ htokens (hn.matched k), le_rfl⟩
  | deliver k hl m rest hdown => exact ⟨hn.set k _ htokens (hn.matched k), le_rfl⟩
  | send k hl p hfrom hrule =>
    refine ⟨hn.set k _ htokens fun q hq hanswer ↦ ?_, le_rfl⟩
    rcases List.mem_append.mp hq with hq | hq
    · exact hn.matched k q hq hanswer
    · obtain rfl := List.mem_singleton.mp hq
      exact (hrule.2 hanswer).2.1
  | serve hrunning k p rest hup hrule c r s' es hexec =>
    have hhandled := handled_of_step S c p n.world r s' es hexec
    have hlobby (hk : p.kind = some .cReady)
        (hcan : (n.world.server.withPlayer (S.id p) (·.withReady true)).CanStart S) :
        n.world.server.networkState ≠ .nsGameStarted := fun hnet ↦
      (inPhaseNoRestart_disciplined s₀).noRestart n p hrule hk hnet hcan
    -- a job is only chosen while jobs are chosen, and a game only started from the lobby
    have hforward := hhandled.forward (fun hk ↦ by
        have hmatch := hn.matched k p (by simp [hup]) (by simp [Packet.isAnswer, hk])
        rw [answerKind_job (hmatch.trans hk)]
        decide) fun hk hcan ↦ (hn.lobby (hlobby hk hcan)).1
    have hall : Forward s₀ (core (n.world.trace ++ es)) s' := by
      rw [core_append]
      exact hn.forward.trans hforward
    refine ⟨?_, hforward.ends⟩
    cases hp : p.isAnswer with
    | true => exact hn.answer hup hhandled hp htokens hall
    | false => exact hn.other hup hhandled hp hlobby htokens hall

theorem StartedOnce.start {s₀ : Server} (hreg : P.Registered s₀)
    (hpending : s₀.gameState = .gsPending) :
    StartedOnce P s₀ (Net.linked s₀) where
  tokens := .linked hreg
  lobby _ := ⟨hpending, rfl⟩
  once := Nat.zero_le 1
  matched k p hp := by simp [Net.linked] at hp
  forward := .of_same rfl (by simp [Net.linked])

theorem startedOnce_run [DecidableEq Peer] {s₀ : Server} (hreg : P.Registered s₀)
    (hpending : s₀.gameState = .gsPending) {n : Net Peer}
    (hrun : Run P (inPhaseNoRestart S Peer s₀) (Net.linked s₀) n) : StartedOnce P s₀ n :=
  hrun.invariant (StartedOnce P s₀) (fun _ _ hn hstep ↦ (hn.step hstep).1)
    (.start hreg hpending)

/-- Where no `C_READY` in a started game finds all the others ready, `StartGame` runs at most
once and the phase only moves forward, within handlers and from step to step. -/
theorem starts_once (S : Setup) {Peer : Type} [DecidableEq Peer] (P : Peers S Peer)
    (s₀ : Server) (hreg : P.Registered s₀) (hpending : s₀.gameState = .gsPending)
    (n n' : Net Peer)
    (hrun : Run P (inPhaseNoRestart S Peer s₀) (Net.linked s₀) n)
    (hrun' : Run P (inPhaseNoRestart S Peer s₀) n n') :
    startCount n.world.trace ≤ 1 ∧ Forward s₀ (core n.world.trace) n.world.server ∧
      n.world.server.gameState.phase ≤ n'.world.server.gameState.phase := by
  have hok := startedOnce_run hreg hpending hrun
  refine ⟨hok.once, hok.forward, ?_⟩
  have hlater := hrun'.invariant (fun m ↦ StartedOnce P s₀ m ∧
      n.world.server.gameState.phase ≤ m.world.server.gameState.phase)
    (fun _ _ hm hstep ↦ ⟨(hm.1.step hstep).1, hm.2.trans (hm.1.step hstep).2⟩) ⟨hok, le_rfl⟩
  exact hlater.2

/-! ### A second start -/

/-- Both get ready, the second one twice, and the first one chooses a job. -/
def readyTwice : List (Move Bool) :=
  [.send false (duoPacket false .cReady []), .send true (duoPacket true .cReady []),
    .send true (duoPacket true .cReady []), .serve false .least, .serve true .least] ++
  List.replicate 4 (.deliver false) ++
  [.send false (duoPacket false .cJobChosen [0]), .serve false .least, .serve true .least]

/-- The second `C_READY` meets the flag the choice has set: the game is started again. -/
theorem readyTwice_restarts : twoSeated.networkState = .nsLobby ∧ twoSeated.gameState = .gsPending ∧
    Run duo (inPhase (.plain 2) Bool twoSeated) (Net.linked twoSeated)
      ((Net.linked twoSeated).moves duo readyTwice) ∧
    startCount ((Net.linked twoSeated).moves duo readyTwice).world.trace = 2 :=
  ⟨rfl, rfl, Run.moves readyTwice .refl (by decide +kernel), by decide +kernel⟩

/-- Without it the game is started once. -/
theorem readyOnce_starts_once :
    startCount ((Net.linked twoSeated).moves duo (readyTwice.eraseIdx 2)).world.trace ≤ 1 :=
  (starts_once (.plain 2) duo twoSeated duo_registered rfl _ _
    (Run.moves (readyTwice.eraseIdx 2) .refl (by decide +kernel)) .refl).1

end RRPG
