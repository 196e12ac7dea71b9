import RRPG.Network.Net

/-!
# The turn token

A turn on its way to a client, waiting there, or on its way back as an answer is a token. As
long as clients answer each turn at most once and no running game is started again, there is
at most one token, and it belongs to the current player.
-/

open RRPG.Base RRPG.Base.Handler

namespace RRPG

/-! ### What a packet does to the turns -/

section
variable {S : Setup} {c : Chance} {p : Packet} {s s' : Server} {r : Except Halt Unit}
  {es : List Effect}

/-- Acts of a game: a call, a message to everybody, or a turn. -/
@[simp] def Act.ofGame : Act → Prop
  | .enter _ => True
  | .send .all message => message ≠ .takeTurn
  | .send (.system _) message => message = .takeTurn
  | .closeConnection _ => False
  | .memcpy _ _ _ => False

theorem NextTurnDoes.ofGame (h : NextTurnDoes s r s' es) : ∀ e ∈ es, e.act.ofGame := by
  cases h <;> simp

theorem ChosenDoes.ofGame (h : ChosenDoes s r s' es) : ∀ e ∈ es, e.act.ofGame := by
  cases h with
  | starts hcur hnext r s' es hturn => simpa using hturn.ofGame
  | _ => simp

theorem StartGameDoes.ofGame (h : StartGameDoes s r s' es) : ∀ e ∈ es, e.act.ofGame := by
  cases h <;> simp

/-- Only an introduction does anything else. -/
theorem Handled.ofGame (h : Handled S c p s r s' es) : ∀ e ∈ es, e.act.ofGame ∨
    (p.kind = some .cIntro ∧ e.act = .closeConnection p.systemAddress) := by
  cases h with
  | joins hk =>
    split <;> simp [hk]
  | starts hk hsender hall r s' es hstart => exact fun e he ↦ .inl (hstart.ofGame e he)
  | chooses hk hsender r s' es hchosen => exact fun e he ↦ .inl (hchosen.ofGame e he)
  | acts hk hsender id player htarget hp r s' es hturn =>
    have hreport : ∀ e ∈ actionReport S c p s id player, e.act.ofGame := by
      unfold actionReport
      split <;> simp
    intro e he
    left
    rcases List.mem_append.mp he with he | he
    · exact hreport e he
    · rcases List.mem_cons.mp he with rfl | he
      · trivial
      · exact hturn.ofGame e he
  | _ => simp

theorem Handled.noBroadcastTurn (h : Handled S c p s r s' es) : NoBroadcastTurn es := by
  intro e he hact
  have := h.ofGame e he
  simp [hact] at this

theorem Handled.noClose (h : Handled S c p s r s' es) (hk : p.kind ≠ some .cIntro) (e : Effect)
    (he : e ∈ es) (a : SystemAddress) : e.act ≠ .closeConnection a := by
  intro hact
  have := h.ofGame e he
  simp [hact, hk] at this

theorem noBroadcastTurn_of_core (es : List Effect) (h : NoBroadcastTurn (core es)) :
    NoBroadcastTurn es := by
  intro e he hact
  exact h e (List.mem_filter.mpr ⟨he, by rw [hact]; rfl⟩) hact

theorem noClose_of_core (es : List Effect) (a : SystemAddress)
    (h : ∀ e ∈ core es, e.act ≠ .closeConnection a) (e : Effect) (he : e ∈ es) :
    e.act ≠ .closeConnection a := by
  intro hact
  exact h e (List.mem_filter.mpr ⟨he, by rw [hact]; rfl⟩) hact

/-- What is left of a turn handed out at the end of a handler. -/
def HandsOut (s : Server) (es : List Effect) : Prop :=
  turns es = [] ∨ ∃ a, turns es = [(a, s)] ∧
    s.playerAddresses.find? s.currentPlayerTurn = some a ∧ s.gameState ≠ .gsGameOver

theorem HandsOut.of_core {s : Server} {es : List Effect} (h : HandsOut s (core es)) :
    HandsOut s es := by
  simpa [HandsOut] using h

theorem NextTurnDoes.handsOut (h : NextTurnDoes s r s' es) (hover : s.gameState ≠ .gsGameOver) :
    s'.networkState = s.networkState ∧ s'.playerAddresses = s.playerAddresses ∧
      HandsOut s' es := by
  cases h with
  | passes hcur id hnext hmany a haddr => exact ⟨rfl, rfl, .inr ⟨a, by simp, haddr, hover⟩⟩
  | _ => exact ⟨rfl, rfl, .inl (by simp)⟩

theorem ChosenDoes.handsOut (h : ChosenDoes s r s' es) (hover : s.gameState ≠ .gsGameOver) :
    s'.networkState = s.networkState ∧ s'.playerAddresses = s.playerAddresses ∧
      HandsOut s' es := by
  cases h with
  | passes hcur id hnext a haddr => exact ⟨rfl, rfl, .inr ⟨a, by simp, haddr, hover⟩⟩
  | starts hcur hnext r s' es hturn =>
    obtain ⟨hn, ha, hout⟩ := hturn.handsOut (by simp)
    refine ⟨hn, ha, ?_⟩
    unfold HandsOut at *
    simpa using hout
  | _ => exact ⟨rfl, rfl, .inl (by simp)⟩

/-- An answer hands out at most one turn, to the player it makes the current one. -/
theorem Handled.answer_handsOut (h : Handled S c p s r s' es) (hk : p.isAnswer = true)
    (hover : s.gameState ≠ .gsGameOver) :
    s'.networkState = s.networkState ∧ s'.playerAddresses = s.playerAddresses ∧
      HandsOut s' es := by
  have hkind : p.kind = some .cJobChosen ∨ p.kind = some .cActionTaken := by
    simpa [Packet.isAnswer] using hk
  cases h with
  | malformed | counted | quiet | chats | stranger | misses =>
    exact ⟨rfl, rfl, .inl rfl⟩
  | chooses _ _ r s' es hchosen =>
    exact hchosen.handsOut (s := s.withPlayer (S.id p) (·.chosen p)) hover
  | acts _ _ id player htarget hp r s' es hturn =>
    obtain ⟨hn, ha, hout⟩ := hturn.handsOut (by rwa [Server.acted_gameState])
    rw [Server.acted_networkState] at hn
    rw [Server.acted_playerAddresses] at ha
    refine ⟨hn, ha, ?_⟩
    unfold HandsOut at *
    simpa using hout
  | joins hk' | readies hk' | starts hk' | unreadies hk' => simp_all

/-- The start of a game hands out at most one turn, to the first player. -/
theorem StartGameDoes.handsOut (h : StartGameDoes s r s' es) :
    s'.networkState = .nsGameStarted ∧ HandsOut s' es := by
  cases h with
  | passes first hb a haddr => exact ⟨rfl, .inr ⟨a, by simp, haddr, by simp [Server.started]⟩⟩
  | empty hb => exact ⟨rfl, .inl (by simp)⟩
  | lost first hb haddr => exact ⟨rfl, .inl (by simp)⟩

/-- A packet that is no answer leaves the turns and the pointer alone, or starts a game. -/
theorem Handled.other_cases (h : Handled S c p s r s' es) (hk : p.isAnswer = false) :
    (turns es = [] ∧ entries es = [] ∧ s'.currentPlayerTurn = s.currentPlayerTurn ∧
        s'.networkState = s.networkState ∧ s'.gameState = s.gameState) ∨
      (p.kind = some .cReady ∧ (s.withPlayer (S.id p) (·.withReady true)).CanStart S ∧
        StartGameDoes (s.withPlayer (S.id p) (·.withReady true)) r s' es) := by
  have hkind : p.kind ≠ some .cJobChosen ∧ p.kind ≠ some .cActionTaken := by
    simpa [Packet.isAnswer] using hk
  cases h with
  | starts hk' _ hall r s' es hstart => exact .inr ⟨hk', hall, hstart⟩
  | chooses hk' => exact absurd hk' hkind.1
  | acts hk' => exact absurd hk' hkind.2
  | joins hk' =>
    refine .inl ⟨?_, ?_, rfl, rfl, rfl⟩ <;> split <;> simp
  | _ => exact .inl ⟨rfl, rfl, rfl, rfl, rfl⟩

/-- The addresses only ever gain the sender's. -/
theorem Handled.playerAddresses (h : Handled S c p s r s' es) :
    s'.playerAddresses = s.playerAddresses ∨
      s'.playerAddresses = s.playerAddresses.emplace (S.id p) p.systemAddress := by
  by_cases hk : p.kind = some .cIntro
  · right
    rw [(h.of_intro hk).2.1]
    rfl
  · left
    exact h.keeps_addresses hk

end

/-! ### At most one token -/

variable {S : Setup} {Peer : Type}

/-- A game is going on. -/
def Live (s : Server) : Prop :=
  s.networkState = .nsGameStarted ∧ s.gameState ≠ .gsGameOver

/-- Every stored address is the one of the peer with that id. -/
def Homed (P : Peers S Peer) (s : Server) : Prop :=
  ∀ id a, s.playerAddresses.find? id = some a → ∃ k, P.id k = id ∧ P.addr k = a

/-- Exactly the peers are registered, each at its own address. -/
structure Peers.Registered (P : Peers S Peer) (s : Server) : Prop where
  ids : ∀ id, id ∈ s.players ↔ ∃ k, P.id k = id
  addresses : ∀ id a, s.playerAddresses.find? id = some a ↔ ∃ k, P.id k = id ∧ P.addr k = a

theorem Peers.Registered.homed {P : Peers S Peer} {s : Server} (h : P.Registered s) :
    Homed P s :=
  fun id a ↦ (h.addresses id a).mp

/-- Clients answer every turn they receive at most once, and no running game is started
again. -/
structure Disciplined (S : Setup) (R : Rules Peer) : Prop where
  once : ∀ n k p, R.send n k p → p.isAnswer = true →
    (n.client k).answered < turnCount (n.client k).received
  noRestart : ∀ n p, R.serve n p → p.kind = some .cReady →
    n.world.server.networkState = .nsGameStarted →
    ¬ (n.world.server.withPlayer (S.id p) (·.withReady true)).CanStart S

/-- There is at most one token, and it belongs to the current player of a live game. -/
structure Tokens (P : Peers S Peer) (n : Net Peer) : Prop where
  homed : Homed P n.world.server
  sent : ∀ k p, p ∈ (n.client k).up → P.From k p
  answered : ∀ k, (n.client k).answered ≤ turnCount (n.client k).received
  single : ∀ k, (n.client k).tokens ≤ 1
  holder : ∀ k, 0 < (n.client k).tokens →
    Live n.world.server ∧ P.id k = n.world.server.currentPlayerTurn

/-- Effects add to a client at most the turns handed out to its address, and just these
while it stays linked. -/
theorem Client.tokens_after (a : SystemAddress) (client : Client) (es : List Effect)
    (h : NoBroadcastTurn es) :
    (client.after a es).tokens ≤ client.tokens + (turns es).countP (fun t ↦ t.1 = a) ∧
      ((client.after a es).link = .linked → (client.after a es).tokens =
        client.tokens + (turns es).countP (fun t ↦ t.1 = a)) := by
  have hfields := client.after_eq a es
  obtain ⟨hlinked, pre, post, hsplit, hdown⟩ := client.after_down a es
  have htokens : (client.after a es).tokens = turnCount (client.after a es).down +
      (turnCount client.received - client.answered) + client.up.countP Packet.isAnswer := by
    rw [hfields]
    rfl
  rw [htokens]
  unfold Client.tokens
  constructor
  · have hpre : NoBroadcastTurn pre := fun e he ↦ h e (hsplit ▸ List.mem_append_left _ he)
    rw [hdown, turnCount_append, turnCount_outbox a pre hpre, hsplit, turns_append,
      List.countP_append]
    omega
  · intro hl
    rw [(hlinked hl).2, turnCount_append, turnCount_outbox a es h]
    omega

theorem Homed.step {P : Peers S Peer} {c : Chance} {p : Packet} {s s' : Server}
    {r : Except Halt Unit} {es : List Effect} {k : Peer} (hs : Homed P s)
    (h : Handled S c p s r s' es) (hfrom : P.From k p) : Homed P s' := by
  intro id a ha
  rcases h.playerAddresses with he | he
  · exact hs id a (he ▸ ha)
  · rw [he, OrdMap.find?_emplace] at ha
    split at ha
    · next hid =>
      obtain rfl := Option.some.inj ha
      exact ⟨k, by rw [hid.1, hfrom.1], hfrom.2.symm⟩
    · exact hs id a ha

variable {P : Peers S Peer}

/-- A turn handed out reaches a client without token, who must be the current player. -/
theorem HandsOut.tokens_after {s' : Server} {es : List Effect} (h : HandsOut s' es)
    (hno : NoBroadcastTurn es) (hhomed : Homed P s') (hnet : s'.networkState = .nsGameStarted)
    (k : Peer) (client : Client) (h0 : client.tokens = 0) :
    (client.after (P.addr k) es).tokens ≤ 1 ∧
      (0 < (client.after (P.addr k) es).tokens → Live s' ∧ P.id k = s'.currentPlayerTurn) := by
  have hle := (client.tokens_after (P.addr k) es hno).1
  rw [h0, Nat.zero_add] at hle
  rcases h with hnone | ⟨a, hone, hfind, hover⟩
  · rw [hnone, List.countP_nil] at hle
    omega
  · rw [hone, List.countP_singleton] at hle
    split at hle
    · next ha =>
      obtain ⟨j, hid, haddr⟩ := hhomed _ a hfind
      have hj : j = k := P.addr_injective (haddr.trans (by simpa using ha))
      exact ⟨hle, fun _ ↦ ⟨⟨hnet, hover⟩, hj ▸ hid⟩⟩
    · omega

/-- The tokens once the packet at the front of a queue is taken off. -/
theorem Client.tokens_pop (client : Client) (p : Packet) (rest : List Packet)
    (hup : client.up = p :: rest) : client.tokens =
      (client.pop rest).tokens + if p.isAnswer then 1 else 0 := by
  simp only [Client.tokens, Client.pop, hup, List.countP_cons]
  omega

/-- Only one client can have a token. -/
theorem Tokens.unique {n : Net Peer} (h : Tokens P n) {j k : Peer}
    (hj : 0 < (n.client j).tokens) (hk : 0 < (n.client k).tokens) : j = k :=
  P.id_injective ((h.holder j hj).2.trans (h.holder k hk).2.symm)

@[simp] theorem turnCount_nil : turnCount [] = 0 := rfl

theorem turnCount_cons (m : Message × Server) (rest : List (Message × Server)) :
    turnCount (m :: rest) = turnCount rest + if m.1 = .takeTurn then 1 else 0 := by
  simp [turnCount, List.countP_cons]

/-- Less or equal tokens on the same server are no harm. -/
theorem Tokens.of_le {n n' : Net Peer} (h : Tokens P n) (hworld : n'.world = n.world)
    (hsent : ∀ k p, p ∈ (n'.client k).up → P.From k p)
    (hanswered : ∀ k, (n'.client k).answered ≤ turnCount (n'.client k).received)
    (htokens : ∀ k, (n'.client k).tokens ≤ (n.client k).tokens) : Tokens P n' where
  homed := hworld ▸ h.homed
  sent := hsent
  answered := hanswered
  single k := (htokens k).trans (h.single k)
  holder k hk := hworld ▸ h.holder k (hk.trans_le (htokens k))

/-- A client changed without more tokens. -/
theorem Tokens.set [DecidableEq Peer] {n : Net Peer} (h : Tokens P n) (k : Peer)
    (client : Client) (hsent : ∀ p ∈ client.up, P.From k p)
    (hanswered : client.answered ≤ turnCount client.received)
    (htokens : client.tokens ≤ (n.client k).tokens) : Tokens P (n.set k client) := by
  refine h.of_le rfl ?_ ?_ ?_
  · exact Net.set_forall _ (fun j c ↦ ∀ p ∈ c.up, P.From j p) hsent fun j _ ↦ h.sent j
  · exact Net.set_forall _ (fun _ c ↦ c.answered ≤ turnCount c.received) hanswered
      fun j _ ↦ h.answered j
  · exact Net.set_forall _ (fun j c ↦ c.tokens ≤ (n.client j).tokens) htokens fun _ _ ↦ le_rfl

/-- What the server does with a packet leaves the queues to it and the answers given. -/
theorem Tokens.handled {n : Net Peer} (h : Tokens P n) (r : Except Halt Unit) (s' : Server)
    (es : List Effect) (hhomed : Homed P s')
    (htokens : ∀ k, ((n.client k).after (P.addr k) es).tokens ≤ 1 ∧
      (0 < ((n.client k).after (P.addr k) es).tokens → Live s' ∧
        P.id k = s'.currentPlayerTurn)) : Tokens P (n.handled P r s' es) := by
  refine ⟨hhomed, fun k ↦ ?_, fun k ↦ ?_, fun k ↦ (htokens k).1, fun k ↦ (htokens k).2⟩
  · simpa [Net.handled] using h.sent k
  · simpa [Net.handled] using h.answered k

/-- A message delivered is the same token in another place. -/
theorem Client.tokens_deliver (client : Client) (m : Message × Server)
    (rest : List (Message × Server)) (hdown : client.down = m :: rest)
    (hanswered : client.answered ≤ turnCount client.received) :
    (client.deliver m rest).tokens = client.tokens := by
  have hone : turnCount [m] = if m.1 = .takeTurn then 1 else 0 := by simp [turnCount_cons]
  simp only [Client.tokens, Client.deliver, hdown, turnCount_append, turnCount_cons, hone]
  omega

/-- So is an answer sent. -/
theorem Client.tokens_send (client : Client) (p : Packet)
    (honce : p.isAnswer = true → client.answered < turnCount client.received) :
    (client.send p).tokens = client.tokens := by
  simp only [Client.tokens, Client.send, List.countP_append, List.countP_singleton]
  split
  · next hp =>
    have := honce hp
    omega
  · omega

/-- With nothing in flight there is no token. -/
theorem Tokens.linked {s : Server} (h : P.Registered s) : Tokens P (Net.linked s) :=
  ⟨h.homed, by simp [Net.linked], by simp [Net.linked],
    by simp [Net.linked, Client.tokens], by simp [Net.linked, Client.tokens]⟩

/-- The answer at the front of a queue is the only token. -/
theorem Tokens.spent [DecidableEq Peer] {n : Net Peer} (h : Tokens P n) (k : Peer) (p : Packet)
    (rest : List Packet) (hup : (n.client k).up = p :: rest) (hp : p.isAnswer = true) (j : Peer) :
    ((n.set k ((n.client k).pop rest)).client j).tokens = 0 := by
  have hpop := Client.tokens_pop (n.client k) p rest hup
  rw [hp, if_pos rfl] at hpop
  have hsingle := h.single k
  refine Net.set_forall ((n.client k).pop rest) (fun _ c ↦ c.tokens = 0) (by omega) ?_ j
  intro i hi
  by_contra hpos
  exact hi (h.unique (Nat.pos_of_ne_zero hpos) (by omega))

/-- An answer in flight is a token. -/
theorem Client.tokens_pos_of_answer (client : Client) (p : Packet) (hmem : p ∈ client.up)
    (hp : p.isAnswer = true) : 0 < client.tokens := by
  have : 0 < client.up.countP Packet.isAnswer := List.countP_pos_iff.mpr ⟨p, hmem, hp⟩
  unfold Client.tokens
  omega

section
variable [DecidableEq Peer] {n : Net Peer} {k : Peer} {p : Packet} {rest : List Packet}
  {c : Chance} {r : Except Halt Unit} {s' : Server} {es : List Effect}

/-- A packet taken off a queue is at most a token less. -/
theorem Tokens.pop (hn : Tokens P n) (hup : (n.client k).up = p :: rest) :
    Tokens P (n.set k ((n.client k).pop rest)) := by
  apply hn.set k
  · exact fun q hq ↦ hn.sent k q (hup ▸ List.mem_cons_of_mem p hq)
  · exact hn.answered k
  · rw [Client.tokens_pop (n.client k) p rest hup]
    omega

/-- An answer carries the only token, and the turn it leads to is the only new one. -/
theorem Tokens.answer (hn : Tokens P n) (hup : (n.client k).up = p :: rest)
    (hhandled : Handled S c p n.world.server r s' (core es)) (hp : p.isAnswer = true) :
    Tokens P ((n.set k ((n.client k).pop rest)).handled P r s' es) := by
  have hhomed := hn.homed.step hhandled (hn.sent k p (by simp [hup]))
  have hno := noBroadcastTurn_of_core es hhandled.noBroadcastTurn
  obtain ⟨hlive, _⟩ := hn.holder k ((n.client k).tokens_pos_of_answer p (by simp [hup]) hp)
  obtain ⟨hnet, haddr, hout⟩ := hhandled.answer_handsOut hp hlive.2
  apply (hn.pop hup).handled r s' es hhomed
  intro j
  exact hout.of_core.tokens_after hno hhomed (hnet.trans hlive.1) j _
    (hn.spent k p rest hup hp j)

/-- Any other packet leaves the tokens alone, or starts a game where none is going on. -/
theorem Tokens.other (hn : Tokens P n) (hup : (n.client k).up = p :: rest)
    (hhandled : Handled S c p n.world.server r s' (core es)) (hp : p.isAnswer = false)
    (hstarts : p.kind = some .cReady → n.world.server.networkState = .nsGameStarted →
      ¬ (n.world.server.withPlayer (S.id p) (·.withReady true)).CanStart S) :
    Tokens P ((n.set k ((n.client k).pop rest)).handled P r s' es) := by
  have hhomed := hn.homed.step hhandled (hn.sent k p (by simp [hup]))
  have hno := noBroadcastTurn_of_core es hhandled.noBroadcastTurn
  have hn₁ := hn.pop hup
  apply hn₁.handled r s' es hhomed
  intro j
  rcases hhandled.other_cases hp with ⟨hturns, _, hcur, hnet, hstate⟩ | ⟨hk, hcan, hstart⟩
  · have hle := (Client.tokens_after (P.addr j)
      ((n.set k ((n.client k).pop rest)).client j) es hno).1
    rw [turns_core] at hturns
    rw [hturns, List.countP_nil, Nat.add_zero] at hle
    refine ⟨hle.trans (hn₁.single j), fun hpos ↦ ?_⟩
    have hholder := hn₁.holder j (hpos.trans_le hle)
    unfold Live at *
    rw [hcur, hnet, hstate]
    exact hholder
  · -- a token would belong to a game that is going on
    have hrest : ¬ Live n.world.server := fun hlive ↦ hstarts hk hlive.1 hcan
    obtain ⟨hnet, hout⟩ := hstart.handsOut
    apply hout.of_core.tokens_after hno hhomed hnet j
    by_contra hpos
    exact hrest (hn₁.holder j (Nat.pos_of_ne_zero hpos)).1

end

/-- Every step of disciplined clients keeps the single token. -/
theorem Tokens.step [DecidableEq Peer] {R : Rules Peer} (hR : Disciplined S R)
    {n n' : Net Peer} (hn : Tokens P n) (h : Step P R n n') : Tokens P n' := by
  cases h with
  | connect k hl => exact hn.set k _ (hn.sent k) (hn.answered k) le_rfl
  | deliver k hl m rest hdown =>
    refine hn.set k _ (hn.sent k) ?_
      (Client.tokens_deliver _ m rest hdown (hn.answered k)).le
    have := hn.answered k
    simp only [Client.deliver, turnCount_append]
    omega
  | send k hl p hfrom hrule =>
    have honce := hR.once n k p hrule
    refine hn.set k _ ?_ ?_ (Client.tokens_send _ p honce).le
    · intro q hq
      rcases List.mem_append.mp hq with hq | hq
      · exact hn.sent k q hq
      · exact List.mem_singleton.mp hq ▸ hfrom
    · have := hn.answered k
      simp only [Client.send]
      split
      · next hp => exact honce hp
      · omega
  | serve hrunning k p rest hup hrule c r s' es hexec =>
    have hhandled := handled_of_step S c p n.world r s' es hexec
    cases hp : p.isAnswer with
    | true => exact hn.answer hup hhandled hp
    | false => exact hn.other hup hhandled hp (hR.noRestart n p hrule)

end RRPG
