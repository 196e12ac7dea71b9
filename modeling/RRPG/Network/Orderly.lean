import RRPG.Network.Honest
import RRPG.Network.Restart

/-!
# Games in season

Honest clients in runs where nobody joins a started game and no started game is started again.
Then each client's packets find their sender registered, and what changes the game is never on
its way to a client behind a turn, nor to a client that owes an answer.
-/

open RRPG.Base RRPG.Base.Handler

namespace RRPG

/-- The packet neither joins a started game nor starts it again. -/
def InSeason {Peer : Type} (S : Setup) (n : Net Peer) (p : Packet) : Prop :=
  n.world.server.networkState = .nsGameStarted →
    p.kind ≠ some .cIntro ∧ (p.kind = some .cReady → ¬ OthersReady S n.world.server p)

instance {Peer : Type} (S : Setup) (n : Net Peer) (p : Packet) : Decidable (InSeason S n p) :=
  inferInstanceAs (Decidable (_ → _ ∧ (_ → ¬ _)))

variable {S : Setup} {Peer : Type}

theorem honest_disciplined (C : StringCodec S.toRakNet) (P : Roster S Peer) :
    Disciplined S (honest C P (InSeason S)) where
  once n k p h hp := by
    rcases h with h | ⟨ready, h⟩ | ⟨_, line, s', packet, htyped, h⟩
    · simp [Packet.isAnswer, (lowLevel_of_notice h).2.1] at hp
    · rw [ClientPacket.isAnswer_of_data _ _ p h] at hp
      cases hp
    · rw [ClientPacket.isAnswer_of_data _ _ p h] at hp
      simpa [Roster.mind] using htyped.turn.1 packet rfl hp
  noRestart n p h hk hnet hcan := (h hnet).2 hk ((othersReady_iff S n.world.server p).mpr hcan)

/-! ### Registered senders -/

/-- The handler of the packet looks its sender up. -/
def Packet.asks (p : Packet) : Bool :=
  p.kind ∈ [some .cReady, some .cUnready, some .cChat, some .cJobChosen, some .cActionTaken]

theorem Packet.asks_of_isAnswer (p : Packet) (hp : p.isAnswer = true) : p.asks = true := by
  have hkind : p.kind = some .cJobChosen ∨ p.kind = some .cActionTaken := by
    simpa [Packet.isAnswer] using hp
  cases hkind with
  | inl hk => simp [Packet.asks, hk]
  | inr hk => simp [Packet.asks, hk]

/-- Packets that look their sender up come after an introduction, if it is not registered. -/
def Prepared : Prop → List Packet → Prop
  | _, [] => True
  | registered, p :: rest =>
    (p.asks = true → registered) ∧ Prepared (registered ∨ p.kind = some .cIntro) rest

theorem Prepared.mono {a b : Prop} (hab : a → b) {up : List Packet} (h : Prepared a up) :
    Prepared b up := by
  induction up generalizing a b with
  | nil => trivial
  | cons p rest ih => exact ⟨fun hp ↦ hab (h.1 hp), ih (Or.imp_left hab) h.2⟩

theorem Prepared.concat {a : Prop} {up : List Packet} (h : Prepared a up) (p : Packet)
    (hp : p.asks = true → a ∨ ∃ q ∈ up, q.kind = some .cIntro) : Prepared a (up ++ [p]) := by
  induction up generalizing a with
  | nil => exact ⟨fun hasks ↦ (hp hasks).resolve_right (by simp), trivial⟩
  | cons q rest ih =>
    refine ⟨h.1, ih h.2 fun hasks ↦ ?_⟩
    simpa [or_assoc] using hp hasks

/-! ### News -/

/-- A message that changes what a client knows of the game. -/
def Message.isNews : Message → Bool
  | .gameStarted | .updateGameState _ _ | .updatePlayerHp _ _ => true
  | .text _ | .replyPlayerListRequest _ | .replyPlayerStatsRequest _ | .takeTurn => false

/-- No news comes after a turn. -/
def NewsFirst (messages : List (Message × Server)) : Prop :=
  messages.Pairwise fun x y ↦ x.1 = .takeTurn → y.1.isNews = false

/-- The effect sends news. -/
def Effect.tells (e : Effect) : Prop := ∃ dest message, e.act = .send dest message ∧
  message.isNews = true

theorem Effect.isCore_of_tells {e : Effect} (h : e.tells) : e.act.isCore = true := by
  obtain ⟨dest, message, hact, hnews⟩ := h
  rw [hact]
  cases message with
  | gameStarted | updateGameState | updatePlayerHp => rfl
  | _ => cases hnews

/-- News sent to an address was told. -/
theorem Effect.tells_of_to? {a : SystemAddress} {e : Effect} {m : Message × Server}
    (hto : e.to? a = some m) (hnews : m.1.isNews = true) : e.tells := by
  cases ((Effect.to?_eq_some a e m).mp hto).1 with
  | inl hact => exact ⟨_, _, hact, hnews⟩
  | inr hact => exact ⟨_, _, hact, hnews⟩

section
variable {c : Chance} {p : Packet} {s s' : Server} {r : Except Halt Unit} {es : List Effect}

/-- `NextTurn` hands out a turn or ends the game. -/
theorem NextTurnDoes.told (h : NextTurnDoes s r s' es) :
    turns es = [] ∨ ∀ e ∈ es, ¬ e.tells := by
  cases h with
  | passes => exact .inr (by simp [Effect.tells, Message.isNews])
  | _ => exact .inl (by simp)

/-- News of a packet comes before the turn it hands out. -/
theorem Handled.news_before_turns (h : Handled S c p s r s' es) :
    ∃ pre post, es = pre ++ post ∧ turns pre = [] ∧ ∀ e ∈ post, ¬ e.tells := by
  have hquiet {es : List Effect} (h : ∀ e ∈ es, ¬ e.tells) :
      ∃ pre post, es = pre ++ post ∧ turns pre = [] ∧ ∀ e ∈ post, ¬ e.tells :=
    ⟨[], es, rfl, rfl, h⟩
  have hbehind (before : List Effect) {es : List Effect} (hbefore : turns before = [])
      (h : turns es = [] ∨ ∀ e ∈ es, ¬ e.tells) :
      ∃ pre post, before ++ es = pre ++ post ∧ turns pre = [] ∧ ∀ e ∈ post, ¬ e.tells := by
    cases h with
    | inl h => exact ⟨before ++ es, [], (List.append_nil _).symm, by simp [hbefore, h], by simp⟩
    | inr h => exact ⟨before, es, rfl, hbefore, h⟩
  cases h with
  | starts hk hsender hall r s' es hstart =>
    cases hstart with
    | passes first hb a haddr =>
      exact ⟨[_, _], [_], rfl, by simp, by simp [Effect.tells, Message.isNews]⟩
    | empty hb => exact ⟨_, [], (List.append_nil _).symm, by simp, by simp⟩
    | lost first hb haddr => exact ⟨_, [], (List.append_nil _).symm, by simp, by simp⟩
  | chooses hk hsender r s' es hchosen =>
    cases hchosen with
    | starts hcur hnext r s' es hturn => exact hbehind [_, _, _] (by simp) hturn.told
    | _ => exact hquiet (by simp [Effect.tells, Message.isNews])
  | acts hk hsender id player htarget hp r s' es hturn =>
    have := hbehind (actionReport S c p s id player ++
      [⟨.enter .nextTurn, s.acted S c p id⟩]) (by simp) hturn.told
    simpa using this
  | joins hk =>
    apply hquiet
    split <;> simp [Effect.tells]
  | _ => exact hquiet (by simp)

/-- Only an answer or a start of the game tells news. -/
theorem Handled.source_of_news (h : Handled S c p s r s' es) {e : Effect} (he : e ∈ es)
    (hnews : e.tells) : p.isAnswer = true ∨
      (p.kind = some .cReady ∧ (s.withPlayer (S.id p) (·.withReady true)).CanStart S) := by
  cases h with
  | starts hk hsender hall => exact .inr ⟨hk, hall⟩
  | chooses hk => exact .inl (by simp [Packet.isAnswer, hk])
  | acts hk => exact .inl (by simp [Packet.isAnswer, hk])
  | joins hk =>
    split at he
    · simp only [List.mem_singleton] at he
      subst he
      simp [Effect.tells] at hnews
    · cases he
  | _ => cases he

/-- In what one packet sends to an address no news comes after a turn. -/
theorem Handled.newsFirst (h : Handled S c p s r s' (core es)) (a : SystemAddress) :
    NewsFirst (outbox a es) := by
  have hcore : (core es).Pairwise fun x y ↦ x.turn? ≠ none → ¬ y.tells := by
    obtain ⟨pre, post, hsplit, hpre, hpost⟩ := h.news_before_turns
    have hpre := List.filterMap_eq_nil_iff.mp hpre
    rw [hsplit]
    refine List.pairwise_append.mpr ⟨?_, ?_, fun x hx _ _ hturn ↦ absurd (hpre x hx) hturn⟩
    · exact List.pairwise_of_forall_mem_list fun x hx _ _ hturn ↦ absurd (hpre x hx) hturn
    · exact List.pairwise_of_forall_mem_list fun _ _ y hy _ ↦ hpost y hy
  refine List.pairwise_filterMap.mpr ((List.pairwise_filter.mp hcore).imp_of_mem ?_)
  intro x y hx hy horder m hm m' hm' hturn
  by_contra hnews
  have htells := Effect.tells_of_to? hm' (by simpa using hnews)
  have hycore := Effect.isCore_of_tells htells
  cases ((Effect.to?_eq_some a x m).mp hm).1 with
  | inl hact =>
    exact noBroadcastTurn_of_core es h.noBroadcastTurn x hx (by rw [hact, hturn])
  | inr hact =>
    rw [hturn] at hact
    refine horder (by rw [hact]; rfl) hycore ?_ htells
    obtain ⟨act, t⟩ := x
    obtain rfl : act = _ := hact
    simp

end

/-! ### Runs -/

/-- What holds in every run in season: turns are tokens, no packet comes before its sender is
registered, and no news comes behind a turn or to a client that owes an answer. -/
structure Roster.Steady (P : Roster S Peer) (C : StringCodec S.toRakNet) (n : Net Peer) : Prop where
  safe : P.Safe C n
  tokens : Tokens P.toPeers n
  valid : n.world.server.Valid
  absent : ∀ k, (n.client k).link = .absent →
    n.client k = {} ∧ P.id k ∉ n.world.server.players
  prepared : ∀ k, Prepared (P.id k ∈ n.world.server.players) (n.client k).up
  last : ∀ k, NewsFirst (n.client k).down
  quiet : ∀ k, (n.client k).answered < turnCount (n.client k).received →
    ∀ m ∈ (n.client k).down, m.1.isNews = false

section
variable {C : StringCodec S.toRakNet} {P : Roster S Peer} {n n' : Net Peer} {k : Peer}
  {p : Packet} {rest : List Packet} {c : Chance} {r : Except Halt Unit} {s' : Server}
  {es es' : List Effect}

theorem Roster.Steady.init : P.Steady C (Net.init : Net Peer) where
  safe := .init
  tokens := Timely.init.tokens
  valid := .init
  absent k _ := ⟨rfl, by simp [Net.init, Server.init]⟩
  prepared k := trivial
  last k := .nil
  quiet k _ m hm := by simp [Net.init] at hm

/-- Only a registered client, or one whose introduction is on its way, asks the server. -/
theorem prepared_of_honest (h : (honest C P (InSeason S)).send n k p) (hasks : p.asks = true) :
    P.id k ∈ n.world.server.players ∨ ∃ q ∈ (n.client k).up, q.kind = some .cIntro := by
  rcases h with h | ⟨ready, h⟩ | ⟨h, _⟩
  · simp [Packet.asks, (lowLevel_of_notice h).2.1] at hasks
  · simp [Packet.asks, (Packet.payload_of_pack h).2.1] at hasks
  · exact h

/-- What a client does itself. -/
theorem Roster.Steady.set [DecidableEq Peer] (h : P.Steady C n) (client : Client)
    (hsafe : P.Safe C (n.set k client)) (htokens : Tokens P.toPeers (n.set k client))
    (hlink : client.link = .linked)
    (hprepared : Prepared (P.id k ∈ n.world.server.players) client.up)
    (hlast : NewsFirst client.down)
    (hquiet : client.answered < turnCount client.received → ∀ m ∈ client.down, m.1.isNews = false) :
    P.Steady C (n.set k client) where
  safe := hsafe
  tokens := htokens
  valid := h.valid
  absent := Net.set_forall _ (fun j c ↦ c.link = .absent →
    c = {} ∧ P.id j ∉ n.world.server.players) (by simp [hlink]) fun j _ ↦ h.absent j
  prepared := Net.set_forall _ (fun j c ↦ Prepared (P.id j ∈ n.world.server.players) c.up)
    hprepared fun j _ ↦ h.prepared j
  last := Net.set_forall _ (fun _ c ↦ NewsFirst c.down) hlast fun j _ ↦ h.last j
  quiet := Net.set_forall _ (fun _ c ↦ c.answered < turnCount c.received →
    ∀ m ∈ c.down, m.1.isNews = false) hquiet fun j _ ↦ h.quiet j

/-- Where news is told there are no turns left. -/
theorem Roster.Steady.spent_of_news [DecidableEq Peer] (hn : P.Steady C n)
    (hup : (n.client k).up = p :: rest) (hrule : InSeason S n p)
    (hhandled : Handled S c p n.world.server r s' (core es)) {e : Effect} (he : e ∈ es)
    (hnews : e.tells) (j : Peer) :
    ((n.set k ((n.client k).pop rest)).client j).tokens = 0 := by
  have he : e ∈ core es := List.mem_filter.mpr ⟨he, Effect.isCore_of_tells hnews⟩
  cases hhandled.source_of_news he hnews with
  | inl hanswer => exact hn.tokens.spent k p rest hup hanswer j
  | inr hstart =>
    by_contra hpos
    have hlive := ((hn.tokens.pop hup).holder j (Nat.pos_of_ne_zero hpos)).1
    exact (honest_disciplined C P).noRestart n p hrule hstart.1 hlive.1 hstart.2

/-- A client that is sent news has no turn, neither in front of it nor to answer. -/
theorem Roster.Steady.turnless [DecidableEq Peer] (hn : P.Steady C n)
    (hup : (n.client k).up = p :: rest) (hrule : InSeason S n p)
    (hhandled : Handled S c p n.world.server r s' (core es)) {pre post : List Effect}
    (hsplit : es = pre ++ post) {j : Peer} {m : Message × Server}
    (hm : m ∈ outbox (P.addr j) pre) (hnews : m.1.isNews = true) :
    turnCount (n.client j).down = 0 ∧
      turnCount (n.client j).received ≤ (n.client j).answered := by
  obtain ⟨e, he, hto⟩ := List.mem_filterMap.mp hm
  have hspent := hn.spent_of_news hup hrule hhandled (hsplit ▸ List.mem_append_left post he)
    (Effect.tells_of_to? hto hnews) j
  obtain ⟨up, hpopped⟩ := n.popped k rest j
  rw [hpopped, Client.tokens] at hspent
  dsimp only at hspent
  omega

/-- Who never connected stays unknown. -/
theorem Roster.Steady.absent_handled [DecidableEq Peer] (hn : P.Steady C n)
    (hup : (n.client k).up = p :: rest) (hhandled : Handled S c p n.world.server r s' es')
    (j : Peer) (hj : (((n.set k ((n.client k).pop rest)).client j).after (P.addr j) es).link =
      .absent) :
    ((n.set k ((n.client k).pop rest)).client j).after (P.addr j) es = {} ∧
      P.id j ∉ s'.players := by
  have hj : ((n.set k ((n.client k).pop rest)).client j).link = .absent :=
    (Client.after_absent _ _ es).mp hj
  rw [Net.set_client] at hj
  split at hj
  · have hclient := (hn.absent k hj).1
    simp [hclient] at hup
  · next hne =>
    obtain ⟨hclient, hnew⟩ := hn.absent j hj
    constructor
    · rw [Net.set_client, if_neg hne, Client.after_not_linked _ _ es (by simp [hj]), hclient]
    · intro hmem
      cases hhandled.mem_players _ hmem with
      | inl hmem => exact hnew hmem
      | inr hmem => exact hne (P.id_injective (hmem.trans (hn.tokens.sent k p (by simp [hup])).1))

/-- A packet handled registers its sender for the packets behind it. -/
theorem Roster.Steady.prepared_handled [DecidableEq Peer] (hn : P.Steady C n)
    (hup : (n.client k).up = p :: rest) (hhandled : Handled S c p n.world.server r s' es')
    (j : Peer) : Prepared (P.id j ∈ s'.players)
      ((n.set k ((n.client k).pop rest)).client j).up := by
  refine Net.set_forall ((n.client k).pop rest)
    (fun j client ↦ Prepared (P.id j ∈ s'.players) client.up) ?_ ?_ j
  · have hprepared := hn.prepared k
    rw [hup] at hprepared
    refine hprepared.2.mono fun h ↦ ?_
    cases h with
    | inl hk => exact hhandled.mem_of_mem hk
    | inr hintro =>
      exact (hn.tokens.sent k p (by simp [hup])).1 ▸ hhandled.mem_of_intro hintro
  · exact fun j _ ↦ (hn.prepared j).mono hhandled.mem_of_mem

/-- What the server does. -/
theorem Roster.Steady.handled [DecidableEq Peer] (hn : P.Steady C n)
    (hup : (n.client k).up = p :: rest) (hrule : InSeason S n p)
    (hhandled : Handled S c p n.world.server r s' (core es))
    (hsafe : P.Safe C ((n.set k ((n.client k).pop rest)).handled P.toPeers r s' es))
    (htokens : Tokens P.toPeers ((n.set k ((n.client k).pop rest)).handled P.toPeers r s' es)) :
    P.Steady C ((n.set k ((n.client k).pop rest)).handled P.toPeers r s' es) := by
  refine ⟨hsafe, htokens, (hhandled.pointerKept hn.valid).valid, hn.absent_handled hup hhandled,
    fun j ↦ ?_, fun j ↦ ?_, fun j hturn m hm ↦ ?_⟩
  · show Prepared _ (((n.set k ((n.client k).pop rest)).client j).after (P.addr j) es).up
    rw [Client.after_up]
    exact hn.prepared_handled hup hhandled j
  · obtain ⟨pre, post, hsplit, hdown⟩ := Net.down_of_handled P.toPeers n k rest r s' es j
    have hpre : NewsFirst (outbox (P.addr j) pre) := by
      have := hhandled.newsFirst (P.addr j)
      rw [hsplit, outbox_append] at this
      exact (List.pairwise_append.mp this).1
    rw [hdown]
    refine List.pairwise_append.mpr ⟨hn.last j, hpre, fun x hx y hy hturn ↦ ?_⟩
    by_contra hnews
    have hnone := (hn.turnless hup hrule hhandled hsplit hy (by simpa using hnews)).1
    exact absurd (List.countP_eq_zero.mp hnone x hx) (by simp [hturn])
  · obtain ⟨pre, post, hsplit, hdown⟩ := Net.down_of_handled P.toPeers n k rest r s' es j
    have hturn : (n.client j).answered < turnCount (n.client j).received := by
      obtain ⟨up, hpopped⟩ := n.popped k rest j
      rwa [Net.handled, Client.after_answered, Client.after_received, hpopped] at hturn
    rw [hdown, List.mem_append] at hm
    cases hm with
    | inl hm => exact hn.quiet j hturn m hm
    | inr hm =>
      by_contra hnews
      have := (hn.turnless hup hrule hhandled hsplit hm (by simpa using hnews)).2
      omega

/-- Every step keeps it. -/
theorem Roster.Steady.step [DecidableEq Peer] (hn : P.Steady C n)
    (h : Step P.toPeers (honest C P (InSeason S)) n n') : P.Steady C n' := by
  have hsafe := hn.safe.step h
  have htokens := hn.tokens.step (honest_disciplined C P) h
  cases h with
  | connect k hl => exact hn.set _ hsafe htokens rfl (hn.prepared k) (hn.last k) (hn.quiet k)
  | deliver k hl m rest hdown =>
    have hlast := hn.last k
    rw [hdown] at hlast
    obtain ⟨hbehind, hrest⟩ := List.pairwise_cons.mp hlast
    refine hn.set _ hsafe htokens hl (hn.prepared k) hrest fun hturn m' hm' ↦ ?_
    by_cases hm : m.1 = .takeTurn
    · exact hbehind m' hm' hm
    · refine hn.quiet k ?_ m' (hdown ▸ List.mem_cons_of_mem m hm')
      simpa [Client.deliver, turnCount_cons, hm] using hturn
  | send k hl p hfrom hrule =>
    refine hn.set _ hsafe htokens hl ((hn.prepared k).concat p (prepared_of_honest hrule))
      (hn.last k) fun hturn ↦ hn.quiet k ?_
    simp only [Client.send] at hturn
    omega
  | serve hrunning k p rest hup hrule c r s' es hexec =>
    exact hn.handled hup hrule (handled_of_step S c p n.world r s' es hexec) hsafe htokens

end

end RRPG
