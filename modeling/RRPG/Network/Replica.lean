import RRPG.Network.Token
import RRPG.Server.HealthTable

/-!
# Replicas of the health table

A client that follows the reports sent to it lags behind the server by what is still in
flight, and by nothing else. Where every answer answers one turn, no report is in flight
behind a turn, so the player on turn sees the table as it is.
-/

open RRPG.Base RRPG.Base.Handler

namespace RRPG

/-- The table of a client that has received some messages. -/
def replica (messages : List (Message × Server)) : Table :=
  Table.follow (fun _ ↦ none) (messages.map Prod.fst)

/-! ### What is on its way to a client -/

/-- Reports go to everybody. -/
def ReportsToAll (es : List Effect) : Prop :=
  ∀ e ∈ es, ∀ a message, e.act = .send (.system a) message → message.isReport = false

theorem Table.update_of_not_report (table : Table) (message : Message)
    (h : message.isReport = false) : table.update message = table := by
  unfold Message.isReport at h
  unfold Table.update
  split <;> simp_all

/-- What is sent to a client changes its table as the reports do. -/
theorem follow_outbox (a : SystemAddress) (es : List Effect) (h : ReportsToAll es)
    (table : Table) :
    table.follow ((outbox a es).map Prod.fst) = table.follow (reports es) := by
  induction es generalizing table with
  | nil => rfl
  | cons e es ih =>
    have hrest := ih fun e he ↦ h e (List.mem_cons_of_mem _ he)
    have hhead (table : Table) : table.follow ((e.to? a).toList.map Prod.fst) =
        table.follow e.report?.toList := by
      have hnot := h e List.mem_cons_self
      obtain ⟨act, s⟩ := e
      unfold Effect.to? Effect.report?
      cases act with
      | send dest message =>
        cases dest with
        | all =>
          by_cases hm : message.isReport = true
          · simp [hm]
          · have := table.update_of_not_report message (by simpa using hm)
            simp [hm, Table.follow, this]
        | system b =>
          have := table.update_of_not_report message (hnot b message rfl)
          by_cases hb : b = a <;> simp [hb, Table.follow, this]
      | _ => rfl
    rw [outbox_cons, List.map_append, Table.follow_append, hhead, hrest, reports_cons,
      Table.follow_append]

theorem Handled.reportsToAll {S : Setup} {c : Chance} {p : Packet} {s s' : Server}
    {r : Except Halt Unit} {es : List Effect} (h : Handled S c p s r s' (core es)) :
    ReportsToAll es := by
  intro e he a message hact
  by_contra hreport
  have hcore : e.act.isCore = true := by
    rw [hact]
    cases message <;> simp_all [Message.isReport]
  have := h.ofGame e (List.mem_filter.mpr ⟨he, hcore⟩)
  simp only [hact, Act.ofGame, reduceCtorEq, and_false, or_false] at this
  subst this
  simp [Message.isReport] at hreport

/-! ### The table of everybody connected -/

variable {S : Setup} {Peer : Type} {P : Peers S Peer}

/-- Nobody introduces himself once `StartMainGame` was entered. -/
def noLateIntro (Peer : Type) : Rules Peer where
  send _ _ _ := True
  serve n p := p.kind = some .cIntro → ∀ t, (.startMainGame, t) ∉ entries n.world.trace

instance (n : Net Peer) (k : Peer) (p : Packet) : Decidable ((noLateIntro Peer).send n k p) :=
  .isTrue trivial

instance (n : Net Peer) (p : Packet) : Decidable ((noLateIntro Peer).serve n p) :=
  have : Decidable (∀ t, (.startMainGame, t) ∉ entries n.world.trace) :=
    decidable_of_iff (.startMainGame ∉ (entries n.world.trace).map Prod.fst) (by simp)
  inferInstanceAs (Decidable (_ → _))

/-- A connected client will know the server's table when everything sent to it has come in. -/
structure Mirrored (P : Peers S Peer) (n : Net Peer) : Prop where
  sent : ∀ k, ∀ p ∈ (n.client k).up, P.From k p ∧ (n.client k).link ≠ .absent
  present : ∀ k, P.id k ∈ n.world.server.players → (n.client k).link ≠ .absent
  table : ∀ k, (n.client k).link = .linked → P.id k ∈ n.world.server.players →
    DistinctNames n.world.server → (∃ t, (.startMainGame, t) ∈ entries n.world.trace) →
    replica ((n.client k).received ++ (n.client k).down) = n.world.server.table

theorem Mirrored.init : Mirrored P (Net.init : Net Peer) where
  sent k p hp := by simp [Net.init] at hp
  present k hk := by simp [Net.init, Server.init] at hk
  table k hl := by simp [Net.init] at hl

/-- A client changed with the same messages sent to it. -/
theorem Mirrored.set [DecidableEq Peer] {n : Net Peer} (h : Mirrored P n) (k : Peer)
    (client : Client) (hlink : client.link ≠ .absent) (hsent : ∀ p ∈ client.up, P.From k p)
    (htable : client.link = .linked → P.id k ∈ n.world.server.players →
      (n.client k).link = .linked ∧
      client.received ++ client.down = (n.client k).received ++ (n.client k).down) :
    Mirrored P (n.set k client) where
  sent := Net.set_forall _ (fun j c ↦ ∀ p ∈ c.up, P.From j p ∧ c.link ≠ .absent)
    (fun p hp ↦ ⟨hsent p hp, hlink⟩) fun j _ ↦ h.sent j
  present := Net.set_forall _ (fun j c ↦ P.id j ∈ n.world.server.players → c.link ≠ .absent)
    (fun _ ↦ hlink) fun j _ ↦ h.present j
  table := Net.set_forall _ (fun j c ↦ c.link = .linked → P.id j ∈ n.world.server.players →
      DistinctNames n.world.server → (∃ t, (.startMainGame, t) ∈ entries n.world.trace) →
      replica (c.received ++ c.down) = n.world.server.table)
    (fun hl hk hd hmain ↦ (htable hl hk).2 ▸ h.table k (htable hl hk).1 hk hd hmain)
    fun j _ ↦ h.table j

/-- What is sent during a packet takes a client's table along. -/
theorem replica_after {c : Chance} {p : Packet} {s s' : Server} {r : Except Halt Unit}
    {es : List Effect} (h : Handled S c p s r s' (core es)) (hk : p.kind ≠ some .cIntro)
    (hd : DistinctNames s') (a : SystemAddress) (messages : List (Message × Server))
    (htable : (∀ t, (.startMainGame, t) ∉ entries es) → DistinctNames s →
      replica messages = s.table) :
    replica (messages ++ outbox a es) = s'.table := by
  have hd₀ := (h.sameNames hk).distinct hd
  have := (h.reported hk).follow hd₀ (replica messages)
    (by rw [entries_core]; exact fun hno ↦ htable hno hd₀)
  rw [reports_core] at this
  unfold replica at *
  rw [List.map_append, Table.follow_append, follow_outbox a es h.reportsToAll, this]

/-- A player registered after a packet was registered before or has sent it. -/
theorem Handled.mem_players {c : Chance} {p : Packet} {s s' : Server} {r : Except Halt Unit}
    {es : List Effect} (h : Handled S c p s r s' es) (id : UInt32) (hid : id ∈ s'.players) :
    id ∈ s.players ∨ id = S.id p := by
  by_cases hk : p.kind = some .cIntro
  · obtain ⟨_, rfl, _⟩ := h.of_intro hk
    simpa [Server.joined, or_comm] using hid
  · exact .inl (((h.sameNames hk).mem id).mp hid)

/-- Every step keeps it. -/
theorem Mirrored.step [DecidableEq Peer] {R : Rules Peer}
    (hR : ∀ n p, R.serve n p → (noLateIntro Peer).serve n p) {n n' : Net Peer}
    (hn : Mirrored P n) (h : Step P R n n') : Mirrored P n' := by
  cases h with
  | connect k hl =>
    refine hn.set k _ (by simp [Client.connect]) (fun p hp ↦ (hn.sent k p hp).1) fun _ hk ↦ ?_
    exact absurd hl (hn.present k hk)
  | deliver k hl m rest hdown =>
    refine hn.set k _ (by simp [Client.deliver, hl]) (fun p hp ↦ (hn.sent k p hp).1)
      fun _ _ ↦ ⟨hl, ?_⟩
    simp [Client.deliver, hdown]
  | send k hl p hfrom hrule =>
    refine hn.set k _ (by simp [Client.send, hl]) (fun q hq ↦ ?_) fun _ _ ↦ ⟨hl, rfl⟩
    rcases List.mem_append.mp hq with hq | hq
    · exact (hn.sent k q hq).1
    · exact List.mem_singleton.mp hq ▸ hfrom
  | serve hrunning k p rest hup hrule c r s' es hexec =>
    obtain ⟨hfrom, hlink⟩ := hn.sent k p (by simp [hup])
    have hhandled := handled_of_step S c p n.world r s' es hexec
    have hn₁ : Mirrored P (n.set k ((n.client k).pop rest)) :=
      hn.set k _ hlink (fun q hq ↦ (hn.sent k q (hup ▸ List.mem_cons_of_mem p hq)).1)
        fun hl _ ↦ ⟨hl, rfl⟩
    refine ⟨fun j q hq ↦ ?_, fun j hj ↦ ?_, fun j hl hj hd hmain ↦ ?_⟩
    · have := hn₁.sent j q (by simpa [Net.handled] using hq)
      simpa [Net.handled, Client.after_absent] using this
    · have hpresent : ((n.set k ((n.client k).pop rest)).client j).link ≠ .absent := by
        rcases hhandled.mem_players _ hj with hj | hj
        · exact hn₁.present j hj
        · obtain rfl := P.id_injective (hj.trans hfrom.1)
          simpa [Client.pop] using hlink
      simpa [Net.handled, Client.after_absent] using hpresent
    · obtain ⟨hlinked, hdown⟩ := (Client.after_down (P.addr j)
        ((n.set k ((n.client k).pop rest)).client j) es).1 hl
      have hmain : (∃ t, (.startMainGame, t) ∈ entries n.world.trace) ∨
          ∃ t, (.startMainGame, t) ∈ entries es := by
        simpa [Net.handled, exists_or] using hmain
      have hintro : p.kind ≠ some .cIntro := by
        intro hk
        obtain ⟨_, _, hcore⟩ := hhandled.of_intro hk
        have hnone : entries es = [] := by
          rw [← entries_core, hcore]
          split <;> simp
        rcases hmain with ⟨t, ht⟩ | ⟨t, ht⟩
        · exact hR n p hrule hk t ht
        · simp [hnone] at ht
      simp only [Net.handled, Client.after_received]
      rw [hdown, ← List.append_assoc]
      apply replica_after hhandled hintro hd
      intro hno hd₀
      exact hn₁.table j hlinked (((hhandled.sameNames hintro).mem _).mp hj) hd₀
        (hmain.resolve_right (not_exists.mpr hno))

/-! ### The table of the player on turn -/

/-- No report comes after a turn. -/
def TurnsLast (messages : List (Message × Server)) : Prop :=
  messages.Pairwise fun x y ↦ x.1 = .takeTurn → y.1.isReport = false

/-- A turn sent to an address was handed out to it. -/
theorem mem_turns_of_outbox (a : SystemAddress) (es : List Effect) (h : NoBroadcastTurn es)
    (s : Server) (hm : (.takeTurn, s) ∈ outbox a es) : (a, s) ∈ turns es := by
  obtain ⟨⟨act, t⟩, he, hto⟩ := List.mem_filterMap.mp hm
  obtain ⟨rfl | rfl, ht⟩ := (Effect.to?_eq_some a _ _).mp hto
  · exact absurd rfl (h _ he)
  · obtain rfl : t = s := ht
    exact List.mem_filterMap.mpr ⟨_, he, rfl⟩

/-- A report sent to an address was made. -/
theorem report?_of_to? (a : SystemAddress) (e : Effect) (m : Message × Server)
    (hall : ∀ b message, e.act = .send (.system b) message → message.isReport = false)
    (hto : e.to? a = some m) (hreport : m.1.isReport = true) : e.report? = some m.1 := by
  obtain ⟨act, t⟩ := e
  obtain ⟨rfl | rfl, rfl⟩ := (Effect.to?_eq_some a _ _).mp hto
  · simp [Effect.report?, hreport]
  · simp [hall a m.1 rfl] at hreport

/-- In what one packet sends to an address no report comes after a turn. -/
theorem Handled.turnsLast {c : Chance} {p : Packet} {s s' : Server} {r : Except Halt Unit}
    {es : List Effect} (h : Handled S c p s r s' (core es)) (a : SystemAddress) :
    TurnsLast (outbox a es) := by
  have hcore : (core es).Pairwise fun x y ↦ x.turn? ≠ none → y.report? = none := by
    obtain ⟨pre, post, hsplit, hpre, hpost⟩ := h.reports_before_turns
    have hpre := List.filterMap_eq_nil_iff.mp hpre
    have hpost := List.filterMap_eq_nil_iff.mp hpost
    rw [hsplit]
    refine List.pairwise_append.mpr ⟨?_, ?_, fun x hx _ _ hturn ↦ absurd (hpre x hx) hturn⟩
    · exact List.pairwise_of_forall_mem_list fun x hx _ _ hturn ↦ absurd (hpre x hx) hturn
    · exact List.pairwise_of_forall_mem_list fun _ _ y hy _ ↦ hpost y hy
  refine List.pairwise_filterMap.mpr ((List.pairwise_filter.mp hcore).imp_of_mem ?_)
  rintro ⟨act, t⟩ y hx hy horder ⟨message, u⟩ hm m hm' rfl
  by_contra hreport
  have hy' := report?_of_to? a y m (h.reportsToAll y hy) hm' (by simpa using hreport)
  have hycore := y.isCore_of_report? (by simp [hy'])
  obtain ⟨rfl | rfl, _⟩ := (Effect.to?_eq_some a _ _).mp hm
  · exact noBroadcastTurn_of_core es h.noBroadcastTurn _ hx rfl
  · exact absurd (horder rfl hycore (by simp)) (by simp [hy'])

/-- A client gives one answer for each turn it has received, nobody changes his readiness in
a started game, and nobody introduces himself late. -/
def inTurnOnly (Peer : Type) : Rules Peer where
  send n k p := p.isAnswer = true → (n.client k).answered < turnCount (n.client k).received
  serve n p := (noLateIntro Peer).serve n p ∧
    (p.kind = some .cReady ∨ p.kind = some .cUnready →
      n.world.server.networkState ≠ .nsGameStarted)

instance (n : Net Peer) (k : Peer) (p : Packet) : Decidable ((inTurnOnly Peer).send n k p) :=
  inferInstanceAs (Decidable (_ → _))

instance (n : Net Peer) (p : Packet) : Decidable ((inTurnOnly Peer).serve n p) :=
  inferInstanceAs (Decidable (_ ∧ (_ → _)))

theorem inTurnOnly_disciplined : Disciplined S (inTurnOnly Peer) where
  once _ _ _ h := h
  noRestart _ _ h hk hnet := absurd hnet (h.2 (.inl hk))

/-- A turn of the main game comes after all reports. -/
structure Timely (P : Peers S Peer) (n : Net Peer) : Prop where
  mirrored : Mirrored P n
  tokens : Tokens P n
  valid : n.world.server.Valid
  main : n.world.server.gameState = .gsMain →
    ∃ t, (.startMainGame, t) ∈ entries n.world.trace
  stamped : ∀ k s, (.takeTurn, s) ∈ (n.client k).down → s.gameState = .gsMain →
    ∃ t, (.startMainGame, t) ∈ entries n.world.trace
  last : ∀ k, TurnsLast (n.client k).down

theorem Timely.init : Timely P (Net.init : Net Peer) where
  mirrored := .init
  tokens := ⟨fun id a ha ↦ by simp [Net.init, Server.init] at ha, by simp [Net.init],
    by simp [Net.init], by simp [Net.init, Client.tokens], by simp [Net.init, Client.tokens]⟩
  valid := .init
  main h := by simp [Net.init, Server.init] at h
  stamped k s hm := by simp [Net.init] at hm
  last k := by simp [Net.init, TurnsLast]

/-- A client changed with no more messages on their way to it. -/
theorem Timely.set [DecidableEq Peer] {n : Net Peer} (h : Timely P n) (k : Peer)
    (client : Client) (hmirrored : Mirrored P (n.set k client))
    (htokens : Tokens P (n.set k client)) (hdown : client.down.Sublist (n.client k).down) :
    Timely P (n.set k client) where
  mirrored := hmirrored
  tokens := htokens
  valid := h.valid
  main := h.main
  stamped := Net.set_forall _ (fun _ c ↦ ∀ s, (.takeTurn, s) ∈ c.down → s.gameState = .gsMain →
      ∃ t, (.startMainGame, t) ∈ entries n.world.trace)
    (fun s hm ↦ h.stamped k s (hdown.subset hm)) fun j _ ↦ h.stamped j
  last := Net.set_forall _ (fun _ c ↦ TurnsLast c.down) ((h.last k).sublist hdown)
    fun j _ ↦ h.last j

/-- Where the main game goes on or is handed a turn, it was entered. -/
theorem Timely.entered {n : Net Peer} {es : List Effect} (hn : Timely P n)
    (h : n.world.server.gameState = .gsMain ∨ ∃ t, (.startMainGame, t) ∈ entries es) :
    ∃ t, (.startMainGame, t) ∈ entries (n.world.trace ++ es) := by
  rw [entries_append]
  rcases h with h | ⟨t, ht⟩
  · obtain ⟨t, ht⟩ := hn.main h
    exact ⟨t, List.mem_append_left _ ht⟩
  · exact ⟨t, List.mem_append_right _ ht⟩

section
variable [DecidableEq Peer] {n : Net Peer} {k : Peer} {p : Packet} {rest : List Packet}
  {c : Chance} {r : Except Halt Unit} {s' : Server} {es : List Effect}

/-- A packet adds to what is on its way to a client a part of what is sent to it. -/
theorem Net.down_of_handled (P : Peers S Peer) (n : Net Peer) (k : Peer) (rest : List Packet)
    (r : Except Halt Unit) (s' : Server) (es : List Effect) (j : Peer) :
    ∃ pre post, es = pre ++ post ∧
      (((n.set k ((n.client k).pop rest)).handled P r s' es).client j).down =
        (n.client j).down ++ outbox (P.addr j) pre := by
  obtain ⟨pre, post, hsplit, h⟩ := (Client.after_down (P.addr j)
    ((n.set k ((n.client k).pop rest)).client j) es).2
  exact ⟨pre, post, hsplit, by rw [← n.down_pop k rest j]; exact h⟩

/-- Turns of the main game on their way come after its start. -/
theorem Timely.stamped_handled (hn : Timely P n)
    (hhandled : Handled S c p n.world.server r s' (core es)) (j : Peer) (s : Server)
    (hm : (.takeTurn, s) ∈ (((n.set k ((n.client k).pop rest)).handled P r s' es).client j).down)
    (hs : s.gameState = .gsMain) :
    ∃ t, (.startMainGame, t) ∈ entries (n.world.trace ++ es) := by
  have hno := noBroadcastTurn_of_core es hhandled.noBroadcastTurn
  have hmain := hhandled.main_entered.2
  rw [turns_core, entries_core] at hmain
  obtain ⟨pre, post, hsplit, heq⟩ := Net.down_of_handled P n k rest r s' es j
  rw [heq, List.mem_append] at hm
  rcases hm with hm | hm
  · obtain ⟨t, ht⟩ := hn.stamped j s hm hs
    exact ⟨t, by simp [ht]⟩
  · have hout : (.takeTurn, s) ∈ outbox (P.addr j) es := by
      rw [hsplit, outbox_append]
      exact List.mem_append_left _ hm
    exact hn.entered (hmain _ (mem_turns_of_outbox _ es hno s hout) hs)

/-- A report answers the only turn, so it is not sent behind another one. -/
theorem Timely.last_handled (hn : Timely P n) (hup : (n.client k).up = p :: rest)
    (hhandled : Handled S c p n.world.server r s' (core es)) (j : Peer) :
    TurnsLast (((n.set k ((n.client k).pop rest)).handled P r s' es).client j).down := by
  obtain ⟨pre, post, hsplit, heq⟩ := Net.down_of_handled P n k rest r s' es j
  have hpre : TurnsLast (outbox (P.addr j) pre) := by
    have := hhandled.turnsLast (P.addr j)
    rw [hsplit, outbox_append] at this
    exact (List.pairwise_append.mp this).1
  rw [heq]
  refine List.pairwise_append.mpr ⟨hn.last j, hpre, ?_⟩
  rintro ⟨message, t⟩ hm m hm' rfl
  by_contra hreport
  have hreports : reports es ≠ [] := by
    obtain ⟨e, he, hto⟩ := List.mem_filterMap.mp hm'
    have he : e ∈ es := hsplit ▸ List.mem_append_left _ he
    have := report?_of_to? _ e m (hhandled.reportsToAll e he) hto (by simpa using hreport)
    exact List.ne_nil_of_mem (List.mem_filterMap.mpr ⟨e, he, this⟩)
  rw [← reports_core] at hreports
  have hanswer : p.isAnswer = true := by
    simpa [Packet.isAnswer] using hhandled.answer_of_reports hreports
  -- the packet was the only token, and the turn still on its way would be another one
  have hturn : 0 < turnCount (n.client j).down :=
    List.countP_pos_iff.mpr ⟨_, hm, by simp⟩
  have hspent := hn.tokens.spent k p rest hup hanswer j
  rw [Client.tokens, n.down_pop k rest j] at hspent
  omega

end

/-- Every step keeps it. -/
theorem Timely.step [DecidableEq Peer] {n n' : Net Peer} (hn : Timely P n)
    (h : Step P (inTurnOnly Peer) n n') : Timely P n' := by
  have hmirrored := hn.mirrored.step (R := inTurnOnly Peer) (fun _ _ hrule ↦ hrule.1) h
  have htokens := hn.tokens.step inTurnOnly_disciplined h
  cases h with
  | connect k hl => exact hn.set k _ hmirrored htokens (.refl _)
  | deliver k hl m rest hdown =>
    exact hn.set k _ hmirrored htokens (hdown ▸ List.sublist_cons_self m rest)
  | send k hl p hfrom hrule => exact hn.set k _ hmirrored htokens (.refl _)
  | serve hrunning k p rest hup hrule c r s' es hexec =>
    have hhandled := handled_of_step S c p n.world r s' es hexec
    have hmain := hhandled.main_entered.1
    rw [entries_core] at hmain
    exact ⟨hmirrored, htokens, (hhandled.pointerKept hn.valid).valid,
      fun h ↦ hn.entered (hmain h), fun j s ↦ hn.stamped_handled hhandled j s,
      hn.last_handled hup hhandled⟩

/-- Messages that are no reports leave a table alone. -/
theorem replica_append (xs ys : List (Message × Server)) (h : ∀ m ∈ ys, m.1.isReport = false) :
    replica (xs ++ ys) = replica xs := by
  unfold replica
  rw [List.map_append, Table.follow_append]
  generalize Table.follow _ (xs.map Prod.fst) = table
  induction ys with
  | nil => rfl
  | cons m ys ih =>
    rw [List.map_cons, Table.follow, List.foldl_cons,
      table.update_of_not_report _ (h m List.mem_cons_self)]
    exact ih fun m hm ↦ h m (List.mem_cons_of_mem _ hm)

/-- With distinct names and no late introduction, a connected registered client that has
received everything sent to it knows the server's healths. Where moreover every answer
answers one turn and readiness does not change in a started game, a client about to receive
a turn of the main game knows them as they are then. -/
theorem replica_true (S : Setup) {Peer : Type} [DecidableEq Peer] (P : Peers S Peer)
    (n : Net Peer) (hdistinct : DistinctNames n.world.server) (k : Peer)
    (hlinked : (n.client k).link = .linked) :
    (Run P (noLateIntro Peer) Net.init n → P.id k ∈ n.world.server.players →
      (∃ t, (.startMainGame, t) ∈ entries n.world.trace) → (n.client k).down = [] →
      replica (n.client k).received = n.world.server.table) ∧
    (Run P (inTurnOnly Peer) Net.init n → ∀ t rest, (n.client k).down = (.takeTurn, t) :: rest →
      t.gameState = .gsMain → replica (n.client k).received = n.world.server.table) := by
  constructor
  · intro hrun hk hmain hdown
    have hok : Mirrored P n := hrun.invariant (Mirrored P)
      (fun _ _ hn hstep ↦ hn.step (fun _ _ hrule ↦ hrule) hstep) .init
    have := hok.table k hlinked hk hdistinct hmain
    rwa [hdown, List.append_nil] at this
  · intro hrun t rest hdown ht
    have hok : Timely P n := hrun.invariant (Timely P) (fun _ _ hn hstep ↦ hn.step hstep) .init
    have hmain := hok.stamped k t (by simp [hdown]) ht
    obtain ⟨hlive, hcur⟩ := hok.tokens.holder k (by
      simp only [Client.tokens, hdown, turnCount_cons, if_pos]
      omega)
    have hk : P.id k ∈ n.world.server.players := hcur ▸ hok.valid.pointer hlive.1
    have hlast := hok.last k
    rw [hdown] at hlast
    have hquiet := (List.pairwise_cons.mp hlast).1
    have := hok.mirrored.table k hlinked hk hdistinct hmain
    rwa [hdown, replica_append _ _ (List.forall_mem_cons.mpr
      ⟨rfl, fun m hm ↦ hquiet m hm rfl⟩)] at this

/-! ### A concrete run -/

/-- One of the two joins with a name and gets ready. -/
def joinAs (k : Bool) (name : Bytes) : List (Move Bool) :=
  [.connect k, .send k (clientEvent (if k then 2 else 1)
      DefaultMessageId.idNewIncomingConnection.byte []).packet,
    .send k (duoPacket k .cIntro name)]

/-- One of the two gets what is on its way, at most twelve messages, and sends a packet. -/
def answerWith (k : Bool) (identifier : RRPGId) (payload : Bytes) : List (Move Bool) :=
  List.replicate 12 (.deliver k) ++ [.send k (duoPacket k identifier payload), .serve k .least]

/-- Two players join, get ready and choose jobs. The first one strikes the second and hears of
it; the second one is about to receive the next turn. -/
def firstBlood : List (Move Bool) :=
  joinAs false [65] ++ joinAs true [66] ++
    [.serve false .least, .serve true .least, .serve false .least, .serve true .least] ++
    answerWith false .cReady [] ++ answerWith true .cReady [] ++
    answerWith false .cJobChosen [0] ++ answerWith true .cJobChosen [0] ++
    answerWith false .cActionTaken [2, 66] ++ List.replicate 3 (.deliver false) ++
    List.replicate 6 (.deliver true)

/-- Where this leads. -/
def struckOnce : Net Bool := Net.init.moves duo firstBlood

/-- Both know the healths 100 and 88. -/
theorem struckOnce_known :
    struckOnce.world.server.players.entries.map (fun e ↦ e.2.health) = [100, 88] ∧
    replica (struckOnce.client false).received = struckOnce.world.server.table ∧
    replica (struckOnce.client true).received = struckOnce.world.server.table := by
  have hdistinct : DistinctNames struckOnce.world.server :=
    distinctNames_of_nodup _ (by decide +kernel)
  refine ⟨by decide +kernel, ?_, ?_⟩
  · refine (replica_true (.plain 2) duo struckOnce hdistinct false (by decide +kernel)).1
      (Run.moves firstBlood .refl (by decide +kernel)) (by decide +kernel) ?_ (by decide +kernel)
    have hmain : Routine.startMainGame ∈ (entries struckOnce.world.trace).map Prod.fst := by
      decide +kernel
    obtain ⟨⟨_, t⟩, ht, rfl⟩ := List.mem_map.mp hmain
    exact ⟨t, ht⟩
  · have hdown : (struckOnce.client true).down.map (fun m ↦ (m.1, m.2.gameState)) =
        [(.takeTurn, .gsMain)] := by decide +kernel
    obtain ⟨⟨_, t⟩, hone, hm⟩ := List.map_eq_singleton_iff.mp hdown
    obtain ⟨rfl, hstate⟩ := Prod.mk.inj hm
    exact (replica_true (.plain 2) duo struckOnce hdistinct true (by decide +kernel)).2
      (Run.moves firstBlood .refl (by decide +kernel)) t [] hone hstate

end RRPG
