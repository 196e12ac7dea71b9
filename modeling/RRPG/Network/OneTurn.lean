import Mathlib.Algebra.BigOperators.Group.Finset.Basic
import RRPG.Network.Token
import RRPG.Server.Match

/-!
# Exactly one turn

After `StartGame`, clients that answer each turn at most once, with whatever kind of answer,
keep exactly one turn token between them until `GameOver`, and none after it. No handler
stops on the way: there are always two players alive, or a single one who is not hurt.
-/

open RRPG.Base RRPG.Base.Handler

namespace RRPG

/-! ### An answer passes the turn on -/

/-- Two players are alive, or a single one unhurt. -/
def Enough (s : Server) : Prop :=
  2 ≤ s.living ∨
    (s.living = 1 ∧ ∀ id player, s.players.find? id = some player → player.health = 100)

/-- A handler returns with the turn passed on or the game over. -/
def GoesOn (r : Except Halt Unit) (s' : Server) (es : List Effect) : Prop :=
  r = .ok () ∧
    ((s'.gameState = .gsGameOver ∧ turns es = [] ∧ ∃ id t, (.gameOver id, t) ∈ entries es) ∨
      (s'.gameState ≠ .gsGameOver ∧ Enough s' ∧ (∀ id t, (.gameOver id, t) ∉ entries es) ∧
        ∃ a, turns es = [(a, s')] ∧
          s'.playerAddresses.find? s'.currentPlayerTurn = some a))

section
variable {S : Setup} {c : Chance} {p : Packet} {s s' : Server} {r : Except Halt Unit}
  {es : List Effect}

theorem NextTurnDoes.goesOn (h : NextTurnDoes s r s' es) (hv : s.Valid)
    (hcur : s.currentPlayerTurn ∈ s.players) (hover : s.gameState ≠ .gsGameOver)
    (hliving : s.living ≠ 0) : GoesOn r s' es := by
  obtain ⟨rfl, id, _, ⟨_, rfl, hent, hno⟩ | ⟨hmany, rfl, a, haddr, hent, htu⟩⟩ :=
    h.of_alive hv hcur (alive_of_living s hliving)
  · exact ⟨rfl, .inl ⟨rfl, hno, id, _, by rw [hent]; exact List.mem_singleton_self _⟩⟩
  · refine ⟨rfl, .inr ⟨hover, .inl ?_, by simp [hent], a, htu, haddr⟩⟩
    show 2 ≤ s.living
    omega

theorem living_congr (h : ∀ id, Alive s.players id ↔ Alive s'.players id) :
    s.living = s'.living := by
  refine le_antisymm (OrdMap.count_le _ _ _ _ fun j hj ↦ ?_)
    (OrdMap.count_le _ _ _ _ fun j hj ↦ ?_)
  · exact (mem_living_iff s' j).mpr ((h j).mp ((mem_living_iff s j).mp hj))
  · exact (mem_living_iff s j).mpr ((h j).mpr ((mem_living_iff s' j).mp hj))

/-- Changes that hurt nobody leave enough players alive. -/
theorem Enough.of_harmless (h : Enough s) (g : UInt32 → Player → Player) (hg : Harmless g)
    (hplayers : s'.players = s.players.mapVal g) : Enough s' := by
  have hliving : s'.living = s.living :=
    living_congr fun id ↦ by rw [hplayers, alive_mapVal s.players g hg id]
  unfold Enough
  rw [hliving]
  refine h.imp_right fun ⟨hone, hall⟩ ↦ ⟨hone, fun id player hp ↦ ?_⟩
  rw [hplayers, OrdMap.find?_mapVal, Option.map_eq_some_iff] at hp
  obtain ⟨q, hq, rfl⟩ := hp
  exact (hg id q).2.1.trans (hall id q hq)

theorem Enough.chosen (h : Enough s) (id : UInt32) (p : Packet) :
    Enough (s.withPlayer id (·.chosen p)) :=
  h.of_harmless _ (harmless_adjust id (·.chosen p) fun _ ↦ ⟨rfl, rfl, rfl⟩) rfl

theorem Enough.started (h : Enough s) (first : UInt32) : Enough (s.started first) :=
  h.of_harmless (fun _ player ↦ { player with ready := false }) (fun _ _ ↦ ⟨rfl, rfl, rfl⟩) rfl

/-- One action leaves somebody alive. -/
theorem Enough.acted (h : Enough s) (S : Setup) (c : Chance) (p : Packet) (id : UInt32)
    (player : Player) (hp : s.players.find? id = some player) :
    (s.acted S c p id).living ≠ 0 := by
  rcases h with hmany | ⟨hone, hall⟩
  · have := living_acted S c p s id player hp
    omega
  · obtain ⟨j, hj⟩ := alive_of_living s (by omega)
    intro hzero
    refine (living_eq_zero _).mp hzero ⟨j, ?_⟩
    rw [alive_acted S c p s id player hp j]
    refine ⟨hj, ?_⟩
    -- an action takes less than a player has
    rintro ⟨_, diff, hdiff, hn⟩
    obtain ⟨a, _, rfl⟩ := Option.map_eq_some_iff.mp hdiff
    have hamount := a.amount_mem c
    have hhealth := hall id player hp
    have hsmall : int32 (player.health + a.amount c) = player.health + a.amount c :=
      Int.bmod_eq_of_le (by omega) (by omega)
    rw [hsmall] at hn
    omega

/-- Whatever the kind of an answer and the state of the game, the turn is passed on. -/
theorem Handled.answer_goesOn (h : Handled S c p s r s' es) (hk : p.isAnswer = true)
    (hsender : S.id p ∈ s.players) (hv : s.Valid) (hstarted : s.networkState = .nsGameStarted)
    (hover : s.gameState ≠ .gsGameOver) (henough : Enough s)
    (htarget : p.kind = some .cActionTaken → target? S c p s ≠ none) : GoesOn r s' es := by
  have hcur := hv.pointer hstarted
  have hkind : p.kind = some .cJobChosen ∨ p.kind = some .cActionTaken := by
    simpa [Packet.isAnswer] using hk
  rcases hkind with hk | hk
  · have henough' := henough.chosen (S.id p) p
    have hv' := hv.withPlayer (S.id p) (·.chosen p)
    cases h.of_job_chosen hk hsender with
    | unset hunset => exact absurd (by simpa using hcur) hunset
    | passes _ id hnext a haddr =>
      exact ⟨rfl, .inr ⟨hover, henough', by simp, a, by simp, haddr⟩⟩
    | lost _ id hnext haddr =>
      exact absurd (hv'.next_registered hnext) haddr
    | starts hcur' hnext r s' es hturn =>
      have hliving : (s.withPlayer (S.id p) (·.chosen p)).living ≠ 0 := by
        unfold Enough at henough'
        omega
      have := hturn.goesOn (hv'.withGameState .gsMain) hcur' (by simp) hliving
      unfold GoesOn at *
      simpa using this
  · rcases h.of_action_taken hk hsender with ⟨hnone, _⟩ | ⟨id, player, es, _, hp, hturn, rfl⟩
    · exact absurd hnone (htarget hk)
    · have hv' := hv.acted S c p id
      have hcur' := hv'.pointer (by rw [Server.acted_networkState, hstarted])
      have := hturn.goesOn hv' hcur' (by rwa [Server.acted_gameState])
        (henough.acted S c p id player hp)
      unfold GoesOn at *
      simpa using this

/-- A request changes nothing. -/
theorem Handled.of_request (h : Handled S c p s r s' es)
    (hk : p.kind = some .cPlayerListRequest ∨ p.kind = some .cPlayerStatsRequest) :
    r = .ok () ∧ s' = s ∧ es = [] := by
  have hlow : p.identifier ≠ none ∧ p.lowLevel = none := by
    rcases hk with hk | hk <;> exact Handled.not_low_level hk
  cases h with
  | quiet => exact ⟨rfl, rfl, rfl⟩
  | stranger k hk' hneeds =>
    rw [hk', Option.some_inj, Option.some_inj] at hk
    rcases hk with rfl | rfl <;> simp at hneeds
  | _ => simp_all

end

/-! ### Runs -/

variable {S : Setup} {Peer : Type} {P : Peers S Peer}

/-- A request, or an answer of any kind whose target, if it has one, is registered. -/
def Allowed (S : Setup) (s₀ : Server) (p : Packet) : Prop :=
  p.kind = some .cPlayerListRequest ∨ p.kind = some .cPlayerStatsRequest ∨
    p.kind = some .cJobChosen ∨
      (p.kind = some .cActionTaken ∧ ∀ c, target? S c p s₀ ≠ none)

/-- Whom an action is aimed at is not left to chance. -/
theorem target?_congr (S : Setup) (c c' : Chance) (p : Packet) (s : Server) :
    target? S c p s = target? S c' p s := by
  unfold target? readAction
  cases p.payload.readByte <;> rfl

instance (S : Setup) (s₀ : Server) (p : Packet) : Decidable (Allowed S s₀ p) :=
  have : Decidable (∀ c, target? S c p s₀ ≠ none) :=
    decidable_of_iff (target? S .least p s₀ ≠ none)
      ⟨fun h c ↦ target?_congr S .least c p s₀ ▸ h, fun h ↦ h .least⟩
  inferInstanceAs (Decidable (_ ∨ _))

/-- Clients of a game started on `s₀` send requests, and answer each turn at most once. -/
def answering (S : Setup) (Peer : Type) (s₀ : Server) : Rules Peer where
  send n k p := Allowed S s₀ p ∧
    (p.isAnswer = true → (n.client k).answered < turnCount (n.client k).received)
  serve _ p := Allowed S s₀ p

instance (S : Setup) (s₀ : Server) (n : Net Peer) (k : Peer) (p : Packet) :
    Decidable ((answering S Peer s₀).send n k p) :=
  inferInstanceAs (Decidable (_ ∧ _))

instance (S : Setup) (s₀ : Server) (n : Net Peer) (p : Packet) :
    Decidable ((answering S Peer s₀).serve n p) :=
  inferInstanceAs (Decidable (Allowed S s₀ p))

/-- What holds in every run after a game was started on `s₀`. -/
structure OneTurn (P : Peers S Peer) (s₀ : Server) (n : Net Peer) : Prop where
  tokens : Tokens P n
  valid : n.world.server.Valid
  started : n.world.server.networkState = .nsGameStarted
  names : SameNames s₀ n.world.server
  running : n.halt = none
  linked : ∀ k, (n.client k).link = .linked
  enough : n.world.server.gameState ≠ .gsGameOver → Enough n.world.server
  ended : n.world.server.gameState = .gsGameOver ↔
    ∃ id t, (.gameOver id, t) ∈ entries n.world.trace
  turn : n.world.server.gameState ≠ .gsGameOver → ∃ k, 0 < (n.client k).tokens

theorem answering_disciplined (s₀ : Server) : Disciplined S (answering S Peer s₀) where
  once _ _ _ h := h.2
  noRestart _ p h hk := by
    rcases h with h | h | h | h <;> simp [h] at hk

/-- Somebody gets the turn handed out, where nobody's connection is closed. -/
theorem exists_token {n : Net Peer} {r : Except Halt Unit} {s' : Server} {es : List Effect}
    (hlinked : ∀ k, ((n.handled P r s' es).client k).link = .linked)
    (hno : NoBroadcastTurn es) (hhomed : Homed P s') (a : SystemAddress)
    (hturns : turns es = [(a, s')])
    (haddr : s'.playerAddresses.find? s'.currentPlayerTurn = some a) :
    ∃ k, 0 < ((n.handled P r s' es).client k).tokens := by
  obtain ⟨k, _, rfl⟩ := hhomed _ a haddr
  refine ⟨k, ?_⟩
  have := ((n.client k).tokens_after (P.addr k) es hno).2 (hlinked k)
  rw [hturns] at this
  simp only [Net.handled, this, List.countP_singleton, decide_true, if_true]
  omega

/-- With enough players a game starts with one turn in flight. -/
theorem enough_of_fresh {s : Server} (h : Fresh s) : Enough s := by
  have halive (id : UInt32) (hid : id ∈ s.players) : Alive s.players id := by
    obtain ⟨player, hp⟩ := (OrdMap.mem_iff_find? _ _).mp hid
    exact ⟨player, hp, (h.fresh id player hp).2⟩
  obtain ⟨k, hk⟩ := h.nonempty
  have hpos : s.living ≠ 0 := fun hzero ↦ (living_eq_zero s).mp hzero ⟨k, halive k hk⟩
  unfold Enough
  by_cases hone : s.living = 1
  · exact .inr ⟨hone, fun id player hp ↦ (h.fresh id player hp).1⟩
  · exact .inl (by omega)

/-- A game starts with one turn in flight. -/
theorem OneTurn.start {s₀ : Server} (hfresh : Fresh s₀) (hreg : P.Registered s₀)
    (r : Except Halt Unit) (s' : Server) (es : List Effect)
    (h : exec startGame ⟨s₀, []⟩ = (r, ⟨s', es⟩)) :
    OneTurn P s₀ ((Net.linked s₀).handled P r s' es) := by
  obtain ⟨r', t, effects, hstart, hdoes⟩ := startGame_does s₀
  obtain ⟨rfl, rfl, es', htrace, rfl⟩ := hdoes.of_exec h
  obtain rfl : es = es' := htrace
  have hno : NoBroadcastTurn es := noBroadcastTurn_of_core es fun e he hact ↦ by
    have := hstart.ofGame e he
    simp [hact, Act.ofGame] at this
  have hclose (a : SystemAddress) : ∀ e ∈ es, e.act ≠ .closeConnection a :=
    noClose_of_core es a fun e he hact ↦ by
      have := hstart.ofGame e he
      simp [hact, Act.ofGame] at this
  obtain ⟨first, a, hb, haddr, rfl, rfl, hvalid, hturns⟩ :=
    hstart.of_registered hfresh.registered hfresh.nonempty
  have hhomed : Homed P (s₀.started first) := hreg.homed
  have hlinked (k : Peer) :
      (((Net.linked s₀).handled P (.ok ()) (s₀.started first) es).client k).link = .linked :=
    Client.after_link _ _ _ (hclose _)
  rw [turns_core] at hturns
  have hentries := hstart.entries
  rw [entries_core] at hentries
  refine ⟨?_, hvalid, rfl, ?_, rfl, hlinked, ?_, ?_, ?_⟩
  · apply (Tokens.linked hreg).handled _ _ _ hhomed
    intro k
    exact hstart.handsOut.2.of_core.tokens_after hno hhomed rfl k _
      (by simp [Net.linked, Client.tokens])
  · intro id
    simp [Server.started, Net.handled, Option.map_map, Function.comp_def]
  · exact fun _ ↦ (enough_of_fresh hfresh).started first
  · simp [Server.started, Net.handled, Net.linked, hentries]
  · exact fun _ ↦ exists_token hlinked hno hhomed a hturns haddr

/-- What clients do keeps it. -/
theorem OneTurn.set [DecidableEq Peer] {s₀ : Server} {n : Net Peer} (h : OneTurn P s₀ n)
    (k : Peer) (client : Client) (htokens : Tokens P (n.set k client))
    (hlink : client.link = .linked) (hkept : client.tokens = (n.client k).tokens) :
    OneTurn P s₀ (n.set k client) := by
  refine ⟨htokens, h.valid, h.started, h.names, h.running, ?_, h.enough, h.ended, fun hover ↦ ?_⟩
  · exact Net.set_forall _ (fun _ c ↦ c.link = .linked) hlink fun j _ ↦ h.linked j
  · obtain ⟨j, hj⟩ := h.turn hover
    exact ⟨j, Net.set_forall _ (fun j c ↦ 0 < (n.client j).tokens → 0 < c.tokens)
      (fun hk ↦ hkept ▸ hk) (fun _ _ hj ↦ hj) j hj⟩

section
variable [DecidableEq Peer] {s₀ s' : Server} {n : Net Peer} {k : Peer} {p : Packet}
  {rest : List Packet} {c : Chance} {r : Except Halt Unit} {es : List Effect}

theorem Allowed.not_intro (h : Allowed S s₀ p) : p.kind ≠ some .cIntro := by
  intro hk
  rcases h with h | h | h | h <;> simp [h] at hk

/-- No connection is closed without an introduction. -/
theorem OneTurn.stays_linked (hn : OneTurn P s₀ n) (k : Peer) (rest : List Packet)
    (hhandled : Handled S c p n.world.server r s' (core es)) (hintro : p.kind ≠ some .cIntro)
    (j : Peer) :
    (((n.set k ((n.client k).pop rest)).handled P r s' es).client j).link = .linked := by
  have hclose := noClose_of_core es (P.addr j) fun e he ↦ hhandled.noClose hintro e he _
  have hset : ((n.set k ((n.client k).pop rest)).client j).link = .linked :=
    Net.set_forall ((n.client k).pop rest) (fun _ c ↦ c.link = .linked)
      (hn.linked k) (fun j _ ↦ hn.linked j) j
  exact (Client.after_link _ _ es hclose).trans hset

/-- An answer passes the turn on or ends the game. -/
theorem OneTurn.answer (hreg : P.Registered s₀) (hn : OneTurn P s₀ n)
    (hup : (n.client k).up = p :: rest)
    (hhandled : Handled S c p n.world.server r s' (core es)) (hrule : Allowed S s₀ p)
    (hp : p.isAnswer = true)
    (htokens : Tokens P ((n.set k ((n.client k).pop rest)).handled P r s' es)) :
    OneTurn P s₀ ((n.set k ((n.client k).pop rest)).handled P r s' es) := by
  have hfrom := hn.tokens.sent k p (by simp [hup])
  have hsender : S.id p ∈ n.world.server.players :=
    (hn.names.mem _).mpr ((hreg.ids _).mpr ⟨k, hfrom.1.symm⟩)
  have hintro := hrule.not_intro
  have hno := noBroadcastTurn_of_core es hhandled.noBroadcastTurn
  have hlinked := hn.stays_linked k rest hhandled hintro
  have hkept := hhandled.pointerKept hn.valid
  have hstarted := (hkept.started hn.started).1
  have hnames : SameNames s₀ s' := fun id ↦ by
    rw [hhandled.sameNames hintro id, hn.names id]
  obtain ⟨hlive, _⟩ := hn.tokens.holder k
    ((n.client k).tokens_pos_of_answer p (by simp [hup]) hp)
  have htarget (hk : p.kind = some .cActionTaken) : target? S c p n.world.server ≠ none := by
    rcases hrule with h | h | h | ⟨_, h⟩
    · simp [hk] at h
    · simp [hk] at h
    · simp [hk] at h
    · rw [hn.names.target?_eq]
      exact h c
  obtain ⟨rfl, hgoes⟩ := hhandled.answer_goesOn hp hsender hn.valid hn.started hlive.2
    (hn.enough hlive.2) htarget
  simp only [turns_core, entries_core] at hgoes
  have hbefore (id : UInt32) (t : Server) : (.gameOver id, t) ∉ entries n.world.trace :=
    fun ht ↦ hlive.2 (hn.ended.mpr ⟨id, t, ht⟩)
  rcases hgoes with ⟨hover, hturns, id, t, ht⟩ | ⟨hover, henough, hnone, a, hturns, haddr⟩
  · refine ⟨htokens, hkept.valid, hstarted, hnames, rfl, hlinked, fun h ↦ absurd hover h, ?_,
      fun h ↦ absurd hover h⟩
    exact ⟨fun _ ↦ ⟨id, t, by simp [Net.handled, ht]⟩, fun _ ↦ hover⟩
  · refine ⟨htokens, hkept.valid, hstarted, hnames, rfl, hlinked, fun _ ↦ henough, ?_, ?_⟩
    · simp [Net.handled, hover, hbefore, hnone]
    · exact fun _ ↦ exists_token hlinked hno (hn.tokens.homed.step hhandled hfrom) a hturns haddr

/-- A request leaves every token where it is. -/
theorem OneTurn.request (hn : OneTurn P s₀ n) (hup : (n.client k).up = p :: rest)
    (hhandled : Handled S c p n.world.server r s' (core es)) (hrule : Allowed S s₀ p)
    (hp : p.isAnswer = false)
    (htokens : Tokens P ((n.set k ((n.client k).pop rest)).handled P r s' es)) :
    OneTurn P s₀ ((n.set k ((n.client k).pop rest)).handled P r s' es) := by
  have hpop := Client.tokens_pop (n.client k) p rest hup
  have hno := noBroadcastTurn_of_core es hhandled.noBroadcastTurn
  have hlinked := hn.stays_linked k rest hhandled hrule.not_intro
  have hk : p.kind = some .cPlayerListRequest ∨ p.kind = some .cPlayerStatsRequest := by
    rcases hrule with h | h | h | h
    · exact .inl h
    · exact .inr h
    all_goals simp [Packet.isAnswer, h] at hp
  obtain ⟨rfl, rfl, hcore⟩ := hhandled.of_request hk
  have hturns : turns es = [] := by rw [← turns_core, hcore]; rfl
  have hentries : entries es = [] := by rw [← entries_core, hcore]; rfl
  refine ⟨htokens, hn.valid, hn.started, hn.names, rfl, hlinked, hn.enough, ?_, fun hover ↦ ?_⟩
  · simpa [Net.handled, hentries] using hn.ended
  · obtain ⟨j, hj⟩ := hn.turn hover
    have hafter := (Client.tokens_after (P.addr j)
      ((n.set k ((n.client k).pop rest)).client j) es hno).2 (hlinked j)
    rw [hturns, List.countP_nil, Nat.add_zero] at hafter
    refine ⟨j, hafter.symm ▸ ?_⟩
    exact Net.set_forall _ (fun j c ↦ 0 < (n.client j).tokens → 0 < c.tokens)
      (fun hk ↦ by rwa [hpop, hp, if_neg (by simp), Nat.add_zero] at hk)
      (fun _ _ hj ↦ hj) j hj

end

/-- Every step keeps it. -/
theorem OneTurn.step [DecidableEq Peer] {s₀ : Server} (hreg : P.Registered s₀)
    {n n' : Net Peer} (hn : OneTurn P s₀ n) (h : Step P (answering S Peer s₀) n n') :
    OneTurn P s₀ n' := by
  have htokens := hn.tokens.step (answering_disciplined s₀) h
  cases h with
  | connect k hl => simp [hn.linked k] at hl
  | deliver k hl m rest hdown =>
    exact hn.set k _ htokens hl (Client.tokens_deliver _ m rest hdown (hn.tokens.answered k))
  | send k hl p hfrom hrule => exact hn.set k _ htokens hl (Client.tokens_send _ p hrule.2)
  | serve hrunning k p rest hup hrule c r s' es hexec =>
    have hhandled := handled_of_step S c p n.world r s' es hexec
    cases hp : p.isAnswer with
    | true => exact hn.answer hreg hup hhandled hrule hp htokens
    | false => exact hn.request hup hhandled hrule hp htokens

/-! ### A concrete run -/

theorem duo_registered : duo.Registered twoSeated where
  ids id := by
    have hkeys : twoSeated.players.keys = [1, 2] := by decide +kernel
    simp [OrdMap.mem_def, hkeys, duo, eq_comm]
  addresses id a := by
    have hentries : twoSeated.playerAddresses.entries = [(1, ⟨1, 60000⟩), (2, ⟨2, 60000⟩)] := by
      decide +kernel
    rw [OrdMap.find?_eq_some, hentries]
    simp [duo, eq_comm]

/-- The two of `twoSeated` when their game starts. -/
def duoStart : Net Bool :=
  let out := exec startGame ⟨twoSeated, []⟩
  (Net.linked twoSeated).handled duo out.1 out.2.server out.2.trace

/-- The first one gets its turn and answers with a job. -/
def relay : List (Move Bool) :=
  [.deliver false, .deliver false, .send false (duoPacket false .cJobChosen [0]),
    .serve false .least]

theorem relay_possible : AllPossible duo (answering (.plain 2) Bool twoSeated) duoStart relay := by
  decide +kernel

/-- In every run after the start of a game there is exactly one turn token as long as
`GameOver` has not run and none afterwards, and it belongs to the current player. -/
theorem one_turn (S : Setup) {Peer : Type} [DecidableEq Peer] [Fintype Peer]
    (P : Peers S Peer) (s₀ : Server) (hfresh : Fresh s₀) (hreg : P.Registered s₀)
    (r : Except Halt Unit) (s' : Server) (es : List Effect)
    (h : exec startGame ⟨s₀, []⟩ = (r, ⟨s', es⟩)) (n : Net Peer)
    (hrun : Run P (answering S Peer s₀) ((Net.linked s₀).handled P r s' es) n) :
    (∀ k, (n.client k).answered ≤ turnCount (n.client k).received) ∧
    ((¬ ∃ id t, (.gameOver id, t) ∈ entries n.world.trace) → ∑ k, (n.client k).tokens = 1) ∧
    ((∃ id t, (.gameOver id, t) ∈ entries n.world.trace) → ∑ k, (n.client k).tokens = 0) ∧
    ∀ k, 0 < (n.client k).tokens → P.id k = n.world.server.currentPlayerTurn := by
  have hok : OneTurn P s₀ n := hrun.invariant (OneTurn P s₀) (fun _ _ hn hstep ↦
    hn.step hreg hstep) (.start hfresh hreg r s' es h)
  refine ⟨hok.tokens.answered, fun hover ↦ ?_, fun hover ↦ ?_,
    fun k hk ↦ (hok.tokens.holder k hk).2⟩
  · obtain ⟨k, hk⟩ := hok.turn fun h ↦ hover (hok.ended.mp h)
    have hone : (n.client k).tokens = 1 := le_antisymm (hok.tokens.single k) hk
    rw [Finset.sum_eq_single k, hone]
    · intro j _ hj
      by_contra hpos
      exact hj (hok.tokens.unique (Nat.pos_of_ne_zero hpos) hk)
    · exact fun hk ↦ absurd (Finset.mem_univ k) hk
  · apply Finset.sum_eq_zero
    intro k _
    by_contra hpos
    exact (hok.tokens.holder k (Nat.pos_of_ne_zero hpos)).1.2 (hok.ended.mpr hover)

private theorem relay_running : ¬ ∃ id t,
    (.gameOver id, t) ∈ entries (duoStart.moves duo relay).world.trace := by
  rintro ⟨id, t, ht⟩
  have hnone : (entries (duoStart.moves duo relay).world.trace).all
      (fun e ↦ !e.1.isOver) = true := by decide +kernel
  simpa [Routine.isOver] using List.all_eq_true.mp hnone _ ht

/-- The second one is next, with the only turn. -/
theorem relay_one_turn : (duoStart.moves duo relay).world.server.currentPlayerTurn = 2 ∧
    ∑ k, ((duoStart.moves duo relay).client k).tokens = 1 :=
  ⟨by decide +kernel, (one_turn (.plain 2) duo twoSeated twoSeated_fresh duo_registered _ _ _ rfl _
    (Run.moves relay .refl relay_possible)).2.1 relay_running⟩

end RRPG
