import RRPG.Network.Agreement
import RRPG.Network.System

/-!
# The programs at play

What the programs keep in every orderly run: the server and the clients go on, one client at most is
on turn, it sees the game as the server does, and while a game goes on somebody is awaited who can
answer.
-/

open RRPG.Base RRPG.Base.Handler

namespace RRPG

variable {S : Setup} {Peer : Type}

/-! ### Somebody is awaited -/

/-- While a game goes on, a turn is out, if no connection has been closed. -/
def Awaited (n : Net Peer) : Prop :=
  (∀ k, (n.client k).link ≠ .closed) → Live n.world.server → ∃ k, 0 < (n.client k).tokens

/-- A turn handed out reaches the one it is meant for, whose connection is up. -/
theorem exists_token_of_linked {P : Peers S Peer} {n : Net Peer} {r : Except Halt Unit}
    {s' : Server} {es : List Effect} (hno : NoBroadcastTurn es) (hhomed : Homed P s')
    (hlinked : ∀ k, P.id k = s'.currentPlayerTurn →
      ((n.handled P r s' es).client k).link = .linked)
    (a : SystemAddress) (hturns : turns es = [(a, s')])
    (haddr : s'.playerAddresses.find? s'.currentPlayerTurn = some a) :
    ∃ k, 0 < ((n.handled P r s' es).client k).tokens := by
  obtain ⟨k, hk, rfl⟩ := hhomed _ a haddr
  refine ⟨k, ?_⟩
  have htokens := ((n.client k).tokens_after (P.addr k) es hno).2 (hlinked k hk)
  rw [hturns] at htokens
  simp only [Net.handled, htokens, List.countP_singleton, decide_true, if_true]
  omega

/-- A turn is only with a client whose connection is up. -/
def Attached (n : Net Peer) : Prop := ∀ k, 0 < (n.client k).tokens → (n.client k).link = .linked

section
variable [DecidableEq Peer] {C : StringCodec S.toRakNet} {P : Roster S Peer} {n n' : Net Peer}
  {k : Peer} {p : Packet} {rest : List Packet} {c : Chance} {r : Except Halt Unit} {s' : Server}
  {es : List Effect}

theorem Attached.set (h : Attached n) (client : Client) (hlink : client.link = .linked) :
    Attached (n.set k client) :=
  Net.set_forall _ (fun _ client ↦ 0 < client.tokens → client.link = .linked) (fun _ ↦ hlink)
    fun j _ ↦ h j

/-- A connection is closed only at an introduction, when there is no game and no turn. -/
theorem Attached.step (h : Attached n) (hn : P.Agreed C n)
    (hstep : Step P.toPeers (honest C P (InSeason S)) n n') : Attached n' := by
  have hn' := hn.step hstep
  cases hstep with
  | connect k hl => exact h.set _ rfl
  | deliver k hl m rest hdown => exact h.set _ hl
  | send k hl p hfrom hrule => exact h.set _ hl
  | serve hrunning k p rest hup hrule c r s' es hexec =>
    have hhandled := handled_of_step S c p n.world r s' es hexec
    intro j hpos
    by_cases hintro : p.kind = some .cIntro
    · obtain ⟨hlive, _⟩ := hn'.steady.tokens.holder j hpos
      have hnet : s'.networkState = n.world.server.networkState := by
        obtain ⟨_, rfl, _⟩ := hhandled.of_intro hintro
        rfl
      exact absurd hintro (hrule (hnet ▸ hlive.1)).1
    · have hclose := noClose_of_core es (P.addr j) fun e he ↦ hhandled.noClose hintro e he _
      have hlink : ((n.set k ((n.client k).pop rest)).client j).link = (n.client j).link := by
        obtain ⟨up, hpopped⟩ := n.popped k rest j
        rw [hpopped]
      refine (Client.after_link _ _ es hclose).trans ?_
      by_contra hclosed
      have hpos : 0 < (((n.set k ((n.client k).pop rest)).client j).after (P.addr j) es).tokens :=
        hpos
      rw [Client.after_not_linked _ _ es hclosed] at hpos
      have hpop := Client.tokens_pop (n.client k) p rest hup
      refine hclosed (hlink.trans (h j ?_))
      exact Net.set_forall ((n.client k).pop rest)
        (fun j client ↦ 0 < client.tokens → 0 < (n.client j).tokens)
        (fun hpos ↦ by omega) (fun _ _ hpos ↦ hpos) j hpos

theorem Awaited.set (h : Awaited n) (client : Client) (hlink : (n.client k).link ≠ .closed)
    (htokens : client.tokens = (n.client k).tokens) : Awaited (n.set k client) := by
  intro hopen hlive
  obtain ⟨j, hj⟩ := h (fun j ↦ by
    by_cases hjk : j = k
    · exact hjk ▸ hlink
    · have := hopen j
      rwa [Net.set_client, if_neg hjk] at this) hlive
  refine ⟨j, ?_⟩
  rw [Net.set_client]
  split
  · next hjk => rwa [htokens, ← hjk]
  · exact hj

omit [DecidableEq Peer] in
/-- Where no connection has been closed that of the current player is up. -/
theorem Roster.Agreed.linked (hn : P.Agreed C n) (hopen : ∀ k, (n.client k).link ≠ .closed)
    (hlive : Live n.world.server) (j : Peer) (hj : P.id j = n.world.server.currentPlayerTurn) :
    (n.client j).link = .linked := by
  have hmem : P.id j ∈ n.world.server.players := hj ▸ hn.steady.valid.pointer hlive.1
  cases hl : (n.client j).link with
  | linked => rfl
  | absent => exact absurd hmem (hn.steady.absent j hl).2
  | closed => exact absurd hl (hopen j)

/-- An answer passes the turn on. -/
theorem Awaited.answer (hn : P.Agreed C n) (hup : (n.client k).up = p :: rest)
    (hp : p.isAnswer = true) (hhandled : Handled S c p n.world.server r s' (core es))
    (hn' : P.Agreed C ((n.set k ((n.client k).pop rest)).handled P.toPeers r s' es)) :
    Awaited ((n.set k ((n.client k).pop rest)).handled P.toPeers r s' es) := by
  intro hopen hlive
  have hmem : p ∈ (n.client k).up := hup ▸ List.mem_cons_self
  have hlive₀ := hn.live hmem hp
  have htarget (hk : p.kind = some .cActionTaken) : target? S c p n.world.server ≠ none := by
    obtain ⟨_, _, htarget, _⟩ := (hn.fitting k p hmem hp).2 hk c
    simp [htarget]
  have hgoes := (hhandled.answer_goesOn hp (hn.sender hup (p.asks_of_isAnswer hp))
    hn.steady.valid hlive₀.1 hlive₀.2 (hn.playable.enough hlive₀) htarget).2
  rw [turns_core] at hgoes
  cases hgoes with
  | inl hover => exact absurd hover.1 hlive.2
  | inr hgoes =>
    obtain ⟨_, _, _, a, hturns, haddr⟩ := hgoes
    exact exists_token_of_linked (noBroadcastTurn_of_core es hhandled.noBroadcastTurn)
      hn'.steady.tokens.homed (hn'.linked hopen hlive) a hturns haddr

/-- A packet that neither answers nor starts a game leaves the turn where it is. -/
theorem Awaited.kept (h : Awaited n) (hn : P.Agreed C n) (hup : (n.client k).up = p :: rest)
    (hp : p.isAnswer = false) (hno : NoBroadcastTurn es) (hturns : turns es = [])
    (hcur : s'.currentPlayerTurn = n.world.server.currentPlayerTurn)
    (hlive : Live s' → Live n.world.server)
    (hn' : P.Agreed C ((n.set k ((n.client k).pop rest)).handled P.toPeers r s' es)) :
    Awaited ((n.set k ((n.client k).pop rest)).handled P.toPeers r s' es) := by
  intro hopen hlive'
  -- a closed connection would stay closed
  have hopen₀ (i : Peer) (hclosed : (n.client i).link = .closed) : False := by
    obtain ⟨up, hpopped⟩ := n.popped k rest i
    apply hopen i
    show (((n.set k ((n.client k).pop rest)).client i).after (P.addr i) es).link = .closed
    rw [hpopped, Client.after_not_linked _ _ es (by simp [hclosed])]
    exact hclosed
  obtain ⟨j, hj⟩ := h hopen₀ (hlive hlive')
  have hholder := (hn.steady.tokens.holder j hj).2
  have hafter := (Client.tokens_after (P.addr j) ((n.set k ((n.client k).pop rest)).client j) es
    hno).2 (hn'.linked hopen hlive' j (hholder.trans hcur.symm))
  rw [hturns, List.countP_nil, Nat.add_zero] at hafter
  refine ⟨j, hafter.symm ▸ ?_⟩
  have hpop := Client.tokens_pop (n.client k) p rest hup
  rw [hp, if_neg (by simp), Nat.add_zero] at hpop
  exact Net.set_forall ((n.client k).pop rest)
    (fun j client ↦ 0 < (n.client j).tokens → 0 < client.tokens)
    (fun hpos ↦ hpop ▸ hpos) (fun _ _ hpos ↦ hpos) j hj

/-- A packet handled in season passes the turn on, or leaves it where it is. -/
theorem Awaited.handled (h : Awaited n) (hn : P.Agreed C n) (hup : (n.client k).up = p :: rest)
    (hhandled : Handled S c p n.world.server r s' (core es))
    (hn' : P.Agreed C ((n.set k ((n.client k).pop rest)).handled P.toPeers r s' es)) :
    Awaited ((n.set k ((n.client k).pop rest)).handled P.toPeers r s' es) := by
  have hno := noBroadcastTurn_of_core es hhandled.noBroadcastTurn
  cases hp : p.isAnswer with
  | true => exact .answer hn hup hp hhandled hn'
  | false =>
    rcases hhandled.other_cases hp with ⟨hturns, _, hcur, hnet, hstate⟩ | ⟨hk, hall, hstart⟩
    · rw [turns_core] at hturns
      exact h.kept hn hup hp hno hturns hcur (by rw [Live, Live, hnet, hstate]; exact id) hn'
    · intro hopen hlive
      obtain ⟨first, a, _, haddr, _, rfl, _, hturns⟩ := hstart.of_registered
        (hn.steady.valid.withPlayer _ _).registered
        ⟨S.id p, by simpa using hn.sender hup (by simp [Packet.asks, hk])⟩
      rw [turns_core] at hturns
      exact exists_token_of_linked hno hn'.steady.tokens.homed (hn'.linked hopen hlive) a hturns
        haddr

theorem Awaited.step (h : Awaited n) (hn : P.Agreed C n)
    (hstep : Step P.toPeers (honest C P (InSeason S)) n n') : Awaited n' := by
  have hn' := hn.step hstep
  have htokens := hn.steady.tokens
  cases hstep with
  | connect k hl => exact h.set _ (by simp [hl]) rfl
  | deliver k hl m rest hdown =>
    exact h.set _ (by simp [hl]) (Client.tokens_deliver _ m rest hdown (htokens.answered k))
  | send k hl p hfrom hrule =>
    have honce := (honest_disciplined C P).once n k p hrule
    exact h.set _ (by simp [hl]) (Client.tokens_send _ p honce)
  | serve hrunning k p rest hup hrule c r s' es hexec =>
    exact h.handled hn hup (handled_of_step S c p n.world r s' es hexec) hn'

end

namespace System

/-! ### The program that owes an answer -/

section
variable [DecidableEq Peer] {C : StringCodec S.toRakNet} {P : Roster S Peer} {k : Peer}

/-- A linked client that owes an answer is on turn. -/
def Owing (y : System Peer) : Prop := ∀ k, (y.net.client k).link = .linked →
  (y.net.client k).answered < turnCount (y.net.client k).received → (y.client k).myTurn = true

theorem Refines.agreed {y : System Peer} (h : Refines P C (InSeason S) y) :
    P.Agreed C y.net ∧ Awaited y.net :=
  h.run.invariant (fun n ↦ P.Agreed C n ∧ Awaited n)
    (fun _ _ hn hstep ↦ ⟨hn.1.step hstep, hn.2.step hn.1 hstep⟩)
    ⟨.init, fun _ hlive ↦ by simp [Live, Net.init, Server.init] at hlive⟩

theorem Refines.attached {y : System Peer} (h : Refines P C (InSeason S) y) : Attached y.net := by
  have hinv := h.run.invariant (fun n ↦ P.Agreed C n ∧ Attached n)
    (fun _ _ hn hstep ↦ ⟨hn.1.step hstep, hn.2.step hn.1 hstep⟩)
    ⟨.init, fun k hpos ↦ by simp [Net.init, Client.tokens] at hpos⟩
  exact hinv.2

/-- A linked client on turn sees a live game, and sees it as the server does. -/
theorem Refines.knows {y : System Peer} (h : Refines P C (InSeason S) y)
    (hl : (y.net.client k).link = .linked) (hturn : (y.client k).myTurn = true) :
    Live y.net.world.server ∧ P.id k = y.net.world.server.currentPlayerTurn ∧
      Knows (y.client k) y.net.world.server := by
  obtain ⟨hlive, hcur, hknows⟩ := h.agreed.1.known hl ((h.follows k).turn hturn)
  have haccepted : y.accepted k = true := by
    by_contra hwaits
    rw [((h.follows k).waiting (by simpa using hwaits)).1] at hturn
    cases hturn
  exact ⟨hlive, hcur, hknows.alike ((h.follows k).alike haccepted)⟩

/-- A linked client that has received all that was sent to it sees the game as the server does. -/
theorem Refines.knows_all {y : System Peer} (h : Refines P C (InSeason S) y)
    (hl : (y.net.client k).link = .linked) (haccepted : y.accepted k = true)
    (hdown : (y.net.client k).down = []) (hmem : P.id k ∈ y.net.world.server.players) :
    Knows (y.client k) y.net.world.server := by
  have hknows := h.agreed.1.knows k hl fun _ ↦ hmem
  rw [hdown, List.append_nil] at hknows
  exact hknows.alike ((h.follows k).alike haccepted)

/-- A program on turn holds a token. -/
theorem Refines.tokens_pos {y : System Peer} (h : Refines P C (InSeason S) y)
    (hturn : (y.client k).myTurn = true) : 0 < (y.net.client k).tokens := by
  have := (h.follows k).turn hturn
  rw [Client.tokens]
  omega

/-- Its phase is one that asks for answers. -/
theorem Refines.phase {y : System Peer} (h : Refines P C (InSeason S) y)
    (hturn : (y.client k).myTurn = true) :
    (y.client k).networkState = .nsGameStarted ∧
      ((y.client k).gameState = GameState.gsCharacterSelect.byte ∨
        (y.client k).gameState = GameState.gsMain.byte) := by
  obtain ⟨hlive, _, hknows⟩ := h.knows (h.attached k (h.tokens_pos hturn)) hturn
  obtain ⟨hnetwork, hstate⟩ := hknows.started hlive.1
  refine ⟨hnetwork, ?_⟩
  rw [hstate]
  have hbegun := h.agreed.1.playable.begun hlive.1
  have hover := hlive.2
  cases hphase : y.net.world.server.gameState with
  | gsPending => exact absurd hphase hbegun
  | gsGameOver => exact absurd hphase hover
  | gsCharacterSelect => exact .inl rfl
  | gsMain => exact .inr rfl

/-- So a program on turn is never asked for nothing. -/
theorem Refines.not_idle {y : System Peer} (h : Refines P C (InSeason S) y) :
    ¬ (y.client k).Idle :=
  fun hidle ↦ (h.phase hidle.turn).2.elim hidle.select hidle.main

/-- A change to one client. -/
theorem Owing.update {y : System Peer} (ho : Owing y) {n' : Net Peer} {accepted' : Peer → Bool}
    {client' : Peer → GameClient}
    (hother : ∀ j, j ≠ k → client' j = y.client j ∧ n'.client j = y.net.client j)
    (hk : (n'.client k).link = .linked → (n'.client k).answered < turnCount (n'.client k).received →
      (client' k).myTurn = true) :
    Owing { y with net := n', accepted := accepted', client := client' } := by
  intro j hl hanswered
  by_cases hj : j = k
  · subst hj
    exact hk hl hanswered
  · obtain ⟨hclient, hnet⟩ := hother j hj
    show (client' j).myTurn = true
    rw [hclient]
    exact ho j (hnet ▸ hl) (hnet ▸ hanswered)

/-- A line takes the turn only if it answers. -/
theorem Owing.types {y : System Peer} (ho : Owing y) (h : Refines P C (InSeason S) y)
    {line : Bytes} {s' : GameClient} {sent : Option ClientPacket}
    (htyped : (y.client k).Typed line s' sent) : Owing (y.typed P C k s' sent) := by
  have hkeeps (hturn : (y.client k).myTurn = true)
      (hno : ∀ packet, sent = some packet → packet.isAnswer = false) : s'.myTurn = true := by
    rcases htyped.loses_turn hturn with hmine | ⟨packet, hsent, hanswer⟩
    · exact hmine
    · exact absurd ((hno packet hsent).symm.trans hanswer) Bool.false_ne_true
  cases sent with
  | none =>
    apply ho.update (k := k)
    · exact fun j hj ↦ ⟨Function.update_of_ne hj _ _, rfl⟩
    · intro hl hanswered
      rw [Function.update_self]
      exact hkeeps (ho k hl hanswered) (by simp)
  | some packet =>
    rw [typed, Option.elim_some]
    apply ho.update (k := k)
    · exact fun j hj ↦ ⟨Function.update_of_ne hj _ _, post_other j hj⟩
    · intro hl hanswered
      have hl := (post_keeps k).1.symm.trans hl
      have hne := BitStream.pack_ne _ (packet.bits_ne C.toStringCompressor)
      have hsame := packet.isAnswer_of_data C.toStringCompressor
        ⟨P.addr k, P.guid k, _, hne⟩ rfl
      rw [post_eq hne hl, Net.set_client_self] at hanswered
      simp only [Client.send, hsame] at hanswered
      rw [Function.update_self]
      cases hanswer : packet.isAnswer with
      | true =>
        -- it was the only turn there was to answer
        have hsingle := h.agreed.1.steady.tokens.single k
        rw [Client.tokens] at hsingle
        rw [hanswer, if_pos rfl] at hanswered
        omega
      | false =>
        rw [hanswer, if_neg (by simp), Nat.add_zero] at hanswered
        refine hkeeps (ho k hl hanswered) fun packet' hsent ↦ ?_
        obtain rfl := Option.some.inj hsent
        exact hanswer

/-- Every orderly move leaves the turn with the program that owes an answer. -/
theorem Owing.step {y y' : System Peer} (ho : Owing y) (h : Refines P C (InSeason S) y)
    {m : SystemMove Peer} (hstep : StepDoes P C y m y') : Owing y' := by
  cases hstep with
  | stays => exact ho
  | connects k hl =>
    apply ho.update (k := k)
    · exact fun j hj ↦
        ⟨rfl, (post_other j hj).trans ((Net.set_client _ _ _ _).trans (if_neg hj))⟩
    · intro _ hanswered
      rw [post_received, Net.set_client_self, Client.connect,
        (h.agreed.1.steady.absent k hl).1] at hanswered
      simp at hanswered
  | accepts k locals hrunning hl hwaits =>
    apply ho.update (k := k)
    · exact fun j hj ↦ ⟨Function.update_of_ne hj _ _, post_other j hj⟩
    · intro _ hanswered
      rw [post_received, ((h.follows k).waiting hwaits).2] at hanswered
      simp at hanswered
  | delivers k locals hrunning hl haccepted m rest hdown hm =>
    apply ho.update (k := k)
    · exact fun j hj ↦
        ⟨Function.update_of_ne hj _ _, (Net.set_client _ _ _ _).trans (if_neg hj)⟩
    · intro _ hanswered
      rw [Net.set_client_self] at hanswered
      rw [Function.update_self, GameClient.heard_myTurn, Bool.or_eq_true, decide_eq_true_eq]
      by_cases hturn : m.1 = .takeTurn
      · exact .inr hturn
      · refine .inl (ho k hl ?_)
        simpa [Client.deliver, turnCount_cons, hturn] using hanswered
  | types k line hrunning s' sent htyped => exact ho.types h htyped
  | idles k line hrunning hidle => exact absurd hidle h.not_idle
  | serves k c hrunning =>
    intro j hl hanswered
    obtain ⟨hlink, hreceived, hsame⟩ := Net.move_serve P.toPeers y.net k c j
    exact ho j (hlink hl) (by rwa [served, hreceived, hsame] at hanswered)

/-- What holds at every point of an orderly run: the programs make honest clients, none has stopped,
and the one that owes an answer is on turn. -/
structure Playing (P : Roster S Peer) (C : StringCodec S.toRakNet) (y : System Peer) : Prop where
  refines : Refines P C (InSeason S) y
  running : ∀ k, y.fault k = none
  owing : Owing y

theorem Playing.init : Playing P C (System.init P) where
  refines := .init
  running _ := rfl
  owing k hl := by simp [System.init, Net.init] at hl

theorem Playing.step {y y' : System Peer} (h : Playing P C y) {m : SystemMove Peer}
    (hstep : StepDoes P C y m y') (hm : Admits (InSeason S) y m) : Playing P C y' where
  refines := h.refines.step hstep hm
  running k := by
    cases hstep.fault k with
    | inl hsame => exact hsame.trans (h.running k)
    | inr hidle => exact absurd hidle.2 h.refines.not_idle
  owing := h.owing.step h.refines hstep

theorem Playing.run_moves {y : System Peer} (h : Playing P C y) (moves : List (SystemMove Peer))
    (hmoves : Orderly P C (InSeason S) y moves) : Playing P C (System.run P C y moves) := by
  induction moves generalizing y with
  | nil => exact h
  | cons m moves ih => exact ih (h.step (stepDoes h.refines.safe m) hmoves.1) hmoves.2

/-- A client on turn has a line to answer with: `.1` for a class, `.1 me` for an action. -/
theorem Refines.exists_answer {y : System Peer} (h : Refines P C (InSeason S) y)
    (hturn : (y.client k).myTurn = true) :
    ∃ line packet, GameClient.Performs (GameClient.inputHandler C.toStringCompressor line)
        (y.client k) () { y.client k with myTurn := false }
        [.send (ClientPacket.bits C.toStringCompressor packet)] ∧ packet.isAnswer = true := by
  obtain ⟨hnetwork, hselect | hmain⟩ := h.phase hturn
  · refine ⟨ascii ".1", .jobChosen .wizard, GameClient.performs_answer _ _ _ hnetwork hturn
      (by decide) _ ?_, rfl⟩
    have hclass : CharacterClass.ofInput? ((ascii ".1").map tolower) = some .wizard := by decide
    rw [GameClient.gameInput?, if_pos hselect, hclass]
    rfl
  · refine ⟨ascii ".1 me", .actionTaken .heal (y.client k).player.name,
      GameClient.performs_answer _ _ _ hnetwork hturn (by decide) _ ?_, rfl⟩
    have hwords : words isspace ((ascii ".1 me").map tolower) = [ascii ".1", ascii "me"] := by
      decide
    have haction : Action.ofInput? (ascii ".1") = some .heal := by decide
    have htarget : (y.client k).target? (ascii "me") = some (y.client k).player.name :=
      if_pos rfl
    have hother : (y.client k).gameState ≠ GameState.gsCharacterSelect.byte := by
      rw [hmain]
      decide
    rw [GameClient.gameInput?, if_neg hother, if_pos hmain, hwords]
    simp only [haction, htarget, Option.bind_some, Option.map_some]
    rfl

/-- Its answer goes out, and fits. -/
theorem Playing.can_answer {y : System Peer} (hplaying : Playing P C y)
    (hturn : (y.client k).myTurn = true) :
    ∃ line p, ((System.step P C y (.enter k line)).net.client k).up = (y.net.client k).up ++ [p] ∧
      p.isAnswer = true ∧ Fitting S y.net.world.server p := by
  have h := hplaying.refines
  have hl := h.attached k (h.tokens_pos hturn)
  obtain ⟨line, packet, hperforms, hanswer⟩ := h.exists_answer hturn
  have hne := BitStream.pack_ne _ (packet.bits_ne C.toStringCompressor)
  have hstep : (System.step P C y (.enter k line)).net =
      y.net.set k ((y.net.client k).send ⟨P.addr k, P.guid k, _, hne⟩) := by
    rw [System.step, runClient_eq (hplaying.running k) hperforms, posted_send]
    exact post_eq hne hl
  have hp := (packet.isAnswer_of_data C.toStringCompressor ⟨P.addr k, P.guid k, _, hne⟩ rfl).trans
    hanswer
  have hup : ((System.step P C y (.enter k line)).net.client k).up =
      (y.net.client k).up ++ [⟨P.addr k, P.guid k, _, hne⟩] := by
    rw [hstep, Net.set_client_self]
    rfl
  have hafter := h.step (stepDoes h.safe (.enter k line)) trivial
  have hnext := hafter.agreed.1.fitting k _ (by rw [hup]; simp) hp
  rw [hstep] at hnext
  exact ⟨line, ⟨P.addr k, P.guid k, _, hne⟩, hup, hp, hnext⟩

end

/-! ### Orderly runs -/

section
variable [DecidableEq Peer] (P : Roster S Peer) (C : StringCodec S.toRakNet)
  (moves : List (SystemMove Peer)) (horderly : Orderly P C (InSeason S) (init P) moves)
include horderly

/-- Served in order, the clients' programs never stop the server: it finds every sender, every
target, and somebody to pass the turn to. -/
theorem server_goes_on : (run P C (init P) moves).net.halt = none :=
  (Refines.init.run_moves moves horderly).agreed.1.running

/-- Nor does any line stop a client's program. -/
theorem clients_go_on (k : Peer) : (run P C (init P) moves).fault k = none :=
  (Playing.init.run_moves moves horderly).running k

/-- A program is on turn only in a game that goes on, as the current player, who lives. No other is
on turn then, no turn is on its way to anybody, and no answer to the server. -/
theorem one_on_turn (k : Peer) (hturn : ((run P C (init P) moves).client k).myTurn = true) :
    let y := run P C (init P) moves
    Live y.net.world.server ∧ P.id k = y.net.world.server.currentPlayerTurn ∧
    Alive y.net.world.server.players (P.id k) ∧
    ∀ j, ((y.client j).myTurn = true → j = k) ∧ turnCount (y.net.client j).down = 0 ∧
      ∀ p ∈ (y.net.client j).up, p.isAnswer = false := by
  intro y
  have h : Refines P C (InSeason S) y := Refines.init.run_moves moves horderly
  have hagreed := h.agreed.1
  have htokens := hagreed.steady.tokens
  obtain ⟨hlive, hcur⟩ := htokens.holder k (h.tokens_pos hturn)
  refine ⟨hlive, hcur, hcur ▸ hagreed.playable.awake hlive, fun j ↦ ?_⟩
  have hunique (hj : 0 < (y.net.client j).tokens) : j = k :=
    htokens.unique hj (h.tokens_pos hturn)
  -- the turn that is answered is the only token
  have hother :
      turnCount (y.net.client j).down + (y.net.client j).up.countP Packet.isAnswer = 0 := by
    by_contra hpos
    have hjk := hunique (by rw [Client.tokens]; omega)
    subst hjk
    have hmine := (h.follows j).turn hturn
    have hsingle := htokens.single j
    rw [Client.tokens] at hsingle
    omega
  refine ⟨fun hj ↦ hunique (h.tokens_pos hj), by omega, fun p hp ↦ ?_⟩
  have hnone := List.countP_eq_zero.mp (Nat.eq_zero_of_add_eq_zero_left hother) p hp
  simpa using hnone

/-- The server tests neither whose turn it is nor the phase of the game, and need not: an answer in
flight is the current player's, of the kind the phase asks for, and an action finds a target, one
who lives where no two names are the same. -/
theorem answers_in_turn (k : Peer) (p : Packet)
    (hp : p ∈ ((run P C (init P) moves).net.client k).up) (hanswer : p.isAnswer = true) :
    let s := (run P C (init P) moves).net.world.server
    Live s ∧ P.id k = s.currentPlayerTurn ∧ answerKind s.gameState = p.kind ∧
      (p.kind = some .cActionTaken → Aimed S s p) := by
  have hagreed := (Refines.init.run_moves moves horderly).agreed.1
  obtain ⟨hlive, hcur⟩ := hagreed.steady.tokens.holder k
    (Client.tokens_pos_of_answer _ p hp hanswer)
  exact ⟨hlive, hcur, hagreed.fitting k p hp hanswer⟩

/-- A program that is on turn, or that has received all that was sent to it, sees the game as the
server does. -/
theorem clients_agree (k : Peer) (hl : ((run P C (init P) moves).net.client k).link = .linked)
    (hknown : ((run P C (init P) moves).client k).myTurn = true ∨
      ((run P C (init P) moves).accepted k = true ∧
        ((run P C (init P) moves).net.client k).down = [] ∧
        P.id k ∈ (run P C (init P) moves).net.world.server.players)) :
    Knows ((run P C (init P) moves).client k) (run P C (init P) moves).net.world.server := by
  have h := Refines.init.run_moves moves horderly
  cases hknown with
  | inl hturn => exact (h.knows hl hturn).2.2
  | inr hall => exact h.knows_all hl hall.1 hall.2.1 hall.2.2

/-- While a game goes on and no connection has been closed the current player is awaited: its turn
or its answer is on its way, or its program is on turn and some line makes it answer. -/
theorem turn_is_somewhere (hopen : ∀ k, ((run P C (init P) moves).net.client k).link ≠ .closed)
    (hlive : Live (run P C (init P) moves).net.world.server) :
    let y := run P C (init P) moves
    ∃ k, P.id k = y.net.world.server.currentPlayerTurn ∧
      (turnCount (y.net.client k).down = 1 ∨ (∃ p ∈ (y.net.client k).up, p.isAnswer = true) ∨
        ((y.client k).myTurn = true ∧ ∃ line p,
          ((step P C y (.enter k line)).net.client k).up = (y.net.client k).up ++ [p] ∧
          p.isAnswer = true ∧ Fitting S y.net.world.server p)) := by
  intro y
  have hplaying : Playing P C y := Playing.init.run_moves moves horderly
  obtain ⟨hagreed, hawaited⟩ := hplaying.refines.agreed
  obtain ⟨k, hk⟩ := hawaited hopen hlive
  have hsingle := hagreed.steady.tokens.single k
  have hcur := (hagreed.steady.tokens.holder k hk).2
  refine ⟨k, hcur, ?_⟩
  rw [Client.tokens] at hk hsingle
  by_cases hdown : turnCount (y.net.client k).down = 1
  · exact .inl hdown
  by_cases hup : (y.net.client k).up.countP Packet.isAnswer = 0
  · have hl : (y.net.client k).link = .linked := by
      cases hl : (y.net.client k).link with
      | linked => rfl
      | absent => simp [(hagreed.steady.absent k hl).1] at hk
      | closed => exact absurd hl (hopen k)
    have hturn := hplaying.owing k hl (by omega)
    exact .inr (.inr ⟨hturn, hplaying.can_answer hturn⟩)
  · obtain ⟨p, hp, hanswer⟩ := List.countP_pos_iff.mp (Nat.pos_of_ne_zero hup)
    exact .inr (.inl ⟨p, hp, hanswer⟩)

end

/-! ### The pair at play -/

/-- The wizards, the first of whom has heard of its turn. -/
def wizardsOnTurn : List (SystemMove Bool) := wizards ++ hears false

theorem wizardsOnTurn_orderly :
    Orderly pair pairCodec (InSeason (.counted 2)) (init pair) wizardsOnTurn := by
  decide +kernel

theorem wizards_served : (run pair pairCodec (init pair) wizardsOnTurn).net.halt = none :=
  server_goes_on pair pairCodec wizardsOnTurn wizardsOnTurn_orderly

theorem wizards_go_on : (run pair pairCodec (init pair) wizardsOnTurn).fault false = none :=
  clients_go_on pair pairCodec wizardsOnTurn wizardsOnTurn_orderly false

theorem wizards_on_turn :
    let y := run pair pairCodec (init pair) wizardsOnTurn
    Live y.net.world.server ∧ pair.id false = y.net.world.server.currentPlayerTurn ∧
    Alive y.net.world.server.players (pair.id false) ∧
    ∀ j, ((y.client j).myTurn = true → j = false) ∧ turnCount (y.net.client j).down = 0 ∧
      ∀ p ∈ (y.net.client j).up, p.isAnswer = false :=
  one_on_turn pair pairCodec wizardsOnTurn wizardsOnTurn_orderly false (by decide +kernel)

theorem wizards_agree :
    Knows ((run pair pairCodec (init pair) wizardsOnTurn).client false)
      (run pair pairCodec (init pair) wizardsOnTurn).net.world.server :=
  clients_agree pair pairCodec wizardsOnTurn wizardsOnTurn_orderly false (by decide +kernel)
    (.inl (by decide +kernel))

theorem wizards_awaited :
    let y := run pair pairCodec (init pair) wizardsOnTurn
    ∃ k, pair.id k = y.net.world.server.currentPlayerTurn ∧
      (turnCount (y.net.client k).down = 1 ∨ (∃ p ∈ (y.net.client k).up, p.isAnswer = true) ∨
        ((y.client k).myTurn = true ∧ ∃ line p,
          ((step pair pairCodec y (.enter k line)).net.client k).up = (y.net.client k).up ++ [p] ∧
          p.isAnswer = true ∧ Fitting (.counted 2) y.net.world.server p)) :=
  turn_is_somewhere pair pairCodec wizardsOnTurn wizardsOnTurn_orderly (by decide +kernel)
    ⟨by decide +kernel, by decide +kernel⟩

/-- The first has typed `.atk Bob`. -/
def wizardsAnswering : List (SystemMove Bool) :=
  wizardsOnTurn ++ [.enter false (ascii ".atk Bob")]

def blow : Packet := ⟨⟨1, 60000⟩, ⟨1⟩,
  RRPGId.cActionTaken.byte :: Action.attack.byte :: 0 :: 0 :: 0 :: 3 :: ascii "bob", by simp⟩

theorem blow_in_turn :
    let s := (run pair pairCodec (init pair) wizardsAnswering).net.world.server
    Live s ∧ pair.id false = s.currentPlayerTurn ∧ answerKind s.gameState = blow.kind ∧
      (blow.kind = some .cActionTaken → Aimed (.counted 2) s blow) :=
  answers_in_turn pair pairCodec wizardsAnswering (by decide +kernel) false blow
    (by decide +kernel) (by decide +kernel)

end System

end RRPG
