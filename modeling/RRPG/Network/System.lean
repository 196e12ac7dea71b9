import RRPG.Network.Honest

/-!
# The system

The server and its clients as one program each, with the network between them. What a peer sends
is what its program sends for the lines typed and the messages received; so a move lets a peer
connect, hands its program the next packet or a line, or lets the server handle a packet. Every
run of the programs is a run of the network with honest clients. A client's program stops only
where it sends a stream without bits, and that is possible only after the game.
-/

open RRPG.Base RRPG.Base.Handler

namespace RRPG

/-- The server with its network, and the clients' programs. -/
structure System (Peer : Type) where
  net : Net Peer
  accepted : Peer → Bool
  client : Peer → GameClient
  fault : Peer → Option ClientFault

/-- The notice of an accepted connection. -/
def acceptance : Packet :=
  ⟨⟨0, 0⟩, ⟨0⟩, [ClientMessageId.idConnectionRequestAccepted.byte], by simp⟩

/-- The packet a message reaches a client in. -/
def Message.packet {R : RakNet} (C : StringCompressor R) (m : Message) : Packet :=
  ⟨⟨0, 0⟩, ⟨0⟩, (m.bits C).pack, BitStream.pack_ne _ (GameClient.bits_message_ne C m)⟩

/-- A move of the system, with what it leaves open settled. -/
inductive SystemMove (Peer : Type) where
  | connect (k : Peer)
  | accept (k : Peer) (locals : Locals)
  | deliver (k : Peer) (locals : Locals)
  | enter (k : Peer) (userInput : Bytes)
  | serve (k : Peer) (c : Chance)

variable {S : Setup} {Peer : Type}

/-- The packet made of some bytes of a peer, if there are any. -/
def Roster.packet? (P : Roster S Peer) (k : Peer) (data : Bytes) : Option Packet :=
  if h : data ≠ [] then some ⟨P.addr k, P.guid k, data, h⟩ else none

/-- A packet handled leaves what clients have received and answered, and connects nobody. -/
theorem Net.move_serve [DecidableEq Peer] (P : Peers S Peer) (n : Net Peer) (k : Peer) (c : Chance)
    (j : Peer) :
    (((n.move P (.serve k c)).client j).link = .linked → (n.client j).link = .linked) ∧
      ((n.move P (.serve k c)).client j).received = (n.client j).received ∧
      ((n.move P (.serve k c)).client j).answered = (n.client j).answered := by
  cases hup : (n.client k).up with
  | nil => simp [Net.move, hup]
  | cons p rest =>
    obtain ⟨up, hpopped⟩ := n.popped k rest j
    simp only [Net.move, hup, Net.handled, Client.after_received, Client.after_answered, hpopped]
    exact ⟨fun hl ↦ ((Client.after_down _ _ _).1 hl).1, trivial, trivial⟩

/-- A packet that changes the server was handled. -/
theorem Net.handled_of_move [DecidableEq Peer] {P : Peers S Peer} {n : Net Peer} {k : Peer}
    {c : Chance} (hchanged : (n.move P (.serve k c)).world.server ≠ n.world.server) :
    ∃ p ∈ (n.client k).up, ∃ r es,
      Handled S c p n.world.server r (n.move P (.serve k c)).world.server es := by
  cases hup : (n.client k).up with
  | nil => simp [Net.move, hup] at hchanged
  | cons p rest =>
    refine ⟨p, List.mem_cons_self, ?_⟩
    rcases hexec : exec (packetHandler S c p) n.world with ⟨r, ⟨s', trace⟩⟩
    obtain ⟨es, _, hhandled⟩ := handled_of_exec S c p n.world _ r hexec
    simp only [Net.move, hup, hexec, Net.handled]
    exact ⟨r, core es, hhandled⟩

namespace System

variable [DecidableEq Peer] (P : Roster S Peer)

def init : System Peer where
  net := Net.init
  accepted _ := false
  client := P.newcomer
  fault _ := none

/-- Send some bytes to the server; they are dropped where there is no connection. -/
def post (k : Peer) (n : Net Peer) (data : Bytes) : Net Peer :=
  match P.packet? k data with
  | some p => if (n.client k).link = .linked then n.set k ((n.client k).send p) else n
  | none => n

/-- Run a part of a client's program, unless the client has stopped. -/
def runClient (y : System Peer) (k : Peer) (x : ClientM Unit) : System Peer :=
  if y.fault k = none then
    let out := exec x ⟨y.client k, []⟩
    { y with
      net := (posted out.2.acts).foldl (fun n bs ↦ post P k n bs.pack) y.net
      client := Function.update y.client k out.2.client
      fault := Function.update y.fault k (match out.1 with
        | .ok () => none
        | .error fault => some fault) }
  else y

variable (C : StringCodec S.toRakNet)

/-- The system after a move; nothing happens where the move is not possible. -/
def step (y : System Peer) : SystemMove Peer → System Peer
  | .connect k =>
    if (y.net.client k).link = .absent then
      let linked := y.net.set k (y.net.client k).connect
      { y with net := post P k linked [DefaultMessageId.idNewIncomingConnection.byte] }
    else y
  | .accept k locals =>
    if y.fault k = none ∧ (y.net.client k).link = .linked ∧ y.accepted k = false then
      runClient P { y with accepted := Function.update y.accepted k true } k
        (GameClient.packetHandler C.toStringCompressor locals acceptance)
    else y
  | .deliver k locals =>
    if y.fault k = none ∧ (y.net.client k).link = .linked ∧ y.accepted k = true then
      match (y.net.client k).down with
      | [] => y
      | m :: rest =>
        runClient P { y with net := y.net.set k ((y.net.client k).deliver m rest) } k
          (GameClient.packetHandler C.toStringCompressor locals (m.1.packet C.toStringCompressor))
    else y
  | .enter k userInput => runClient P y k (GameClient.inputHandler C.toStringCompressor userInput)
  | .serve k c =>
    if y.net.halt = none then { y with net := y.net.move P.toPeers (.serve k c) } else y

/-- The system after some moves. -/
def run (y : System Peer) (moves : List (SystemMove Peer)) : System Peer :=
  moves.foldl (step P C) y

/-- The packet the server is about to handle may be handled. -/
def Admits (Q : Net Peer → Packet → Prop) (y : System Peer) : SystemMove Peer → Prop
  | .serve k _ => ∀ p ∈ (y.net.client k).up.head?, Q y.net p
  | _ => True

/-- Every packet may be handled when its turn comes. -/
def Orderly (Q : Net Peer → Packet → Prop) : System Peer → List (SystemMove Peer) → Prop
  | _, [] => True
  | y, m :: moves => Admits Q y m ∧ Orderly Q (step P C y m) moves

instance decidableAdmits (Q : Net Peer → Packet → Prop) [∀ n p, Decidable (Q n p)]
    (y : System Peer) : (m : SystemMove Peer) → Decidable (Admits Q y m)
  | .serve k _ => inferInstanceAs (Decidable (∀ p ∈ (y.net.client k).up.head?, Q y.net p))
  | .connect _ | .accept _ _ | .deliver _ _ | .enter _ _ => isTrue trivial

instance decidableOrderly (Q : Net Peer → Packet → Prop) [∀ n p, Decidable (Q n p)] :
    (y : System Peer) → (moves : List (SystemMove Peer)) → Decidable (Orderly P C Q y moves)
  | _, [] => isTrue trivial
  | y, m :: moves =>
    have := decidableOrderly Q (step P C y m) moves
    inferInstanceAs (Decidable (_ ∧ _))

/-! ### What a move does -/

/-- A connection comes up. -/
def connected (y : System Peer) (k : Peer) : System Peer :=
  { y with
    net := post P k (y.net.set k (y.net.client k).connect)
      [DefaultMessageId.idNewIncomingConnection.byte] }

/-- An accepted client introduces itself. -/
def introduced (y : System Peer) (k : Peer) : System Peer :=
  { y with
    net := post P k y.net ((ClientPacket.intro (y.client k).player.name
      (y.client k).player.ready).bits C.toStringCompressor).pack
    accepted := Function.update y.accepted k true
    client := Function.update y.client k { y.client k with networkState := .nsLobby } }

/-- A client hears the first message of its queue. -/
def heard (y : System Peer) (k : Peer) (m : Message × Server) (rest : List (Message × Server)) :
    System Peer :=
  { y with
    net := y.net.set k ((y.net.client k).deliver m rest)
    client := Function.update y.client k ((y.client k).heard m.1) }

/-- A client has taken a line, and sent a packet for it or none. -/
def typed (y : System Peer) (k : Peer) (s' : GameClient) (sent : Option ClientPacket) :
    System Peer :=
  { y with
    net := sent.elim y.net fun packet ↦
      post P k y.net (packet.bits C.toStringCompressor).pack
    client := Function.update y.client k s' }

/-- The client has no answer to give and stops. -/
def idled (y : System Peer) (k : Peer) : System Peer :=
  { y with
    client := Function.update y.client k { y.client k with myTurn := false }
    fault := Function.update y.fault k (some .emptySend) }

/-- The server handles the next packet of a client. -/
def served (y : System Peer) (k : Peer) (c : Chance) : System Peer :=
  { y with net := y.net.move P.toPeers (.serve k c) }

/-- What a move does where every message on its way can be read. -/
inductive StepDoes (y : System Peer) : SystemMove Peer → System Peer → Prop
  | stays (m : SystemMove Peer) : StepDoes y m y
  | connects (k : Peer) (hl : (y.net.client k).link = .absent) :
    StepDoes y (.connect k) (y.connected P k)
  | accepts (k : Peer) (locals : Locals) (hrunning : y.fault k = none)
    (hl : (y.net.client k).link = .linked) (hwaits : y.accepted k = false) :
    StepDoes y (.accept k locals) (y.introduced P C k)
  | delivers (k : Peer) (locals : Locals) (hrunning : y.fault k = none)
    (hl : (y.net.client k).link = .linked) (haccepted : y.accepted k = true)
    (m : Message × Server) (rest : List (Message × Server))
    (hdown : (y.net.client k).down = m :: rest) (hm : m.1.Readable) :
    StepDoes y (.deliver k locals) (y.heard k m rest)
  | types (k : Peer) (line : Bytes) (hrunning : y.fault k = none) (s' : GameClient)
    (sent : Option ClientPacket) (htyped : (y.client k).Typed line s' sent) :
    StepDoes y (.enter k line) (y.typed P C k s' sent)
  | idles (k : Peer) (line : Bytes) (hrunning : y.fault k = none) (hidle : (y.client k).Idle) :
    StepDoes y (.enter k line) (y.idled k)
  | serves (k : Peer) (c : Chance) (hrunning : y.net.halt = none) :
    StepDoes y (.serve k c) (y.served P k c)

/-! ### A client's program beside its queue -/

/-- A client's program knows what it was told, and owes an answer only for a turn it received. -/
structure Follows (k : Peer) (accepted : Bool) (s : GameClient) (client : Client) : Prop where
  waiting : accepted = false → s = P.newcomer k ∧ client.received = []
  alike : accepted = true → GameClient.Alike s (P.view k client.received)
  answered : client.answered ≤ turnCount client.received
  turn : s.myTurn = true → client.answered < turnCount client.received
  begun : s.Begun

/-- The programs make the network run as honest clients do, and only in a game that is over has one
of them stopped. -/
structure Refines (Q : Net Peer → Packet → Prop) (y : System Peer) : Prop where
  run : Run P.toPeers (honest C P Q) Net.init y.net
  stopped : ∀ k, y.fault k = none ∨
    (y.fault k = some .emptySend ∧ (y.client k).gameState = GameState.gsGameOver.byte)
  follows : ∀ k, Follows P k (y.accepted k) (y.client k) (y.net.client k)
  introduced : ∀ k, y.accepted k = true → Introduced P.toPeers y.net k

section
variable {P C} {Q : Net Peer → Packet → Prop} {n : Net Peer} {k : Peer} {data : Bytes}

/-! ### Sending -/

theorem post_eq (hdata : data ≠ []) (hl : (n.client k).link = .linked) :
    post P k n data = n.set k ((n.client k).send ⟨P.addr k, P.guid k, data, hdata⟩) := by
  unfold post Roster.packet?
  simp only [dif_pos hdata, if_pos hl]

theorem post_closed (hl : (n.client k).link ≠ .linked) : post P k n data = n := by
  unfold post
  split
  · exact if_neg hl
  · rfl

/-- Nothing is no packet. -/
theorem post_nil : post P k n [] = n := rfl

/-- Others notice nothing. -/
theorem post_other (j : Peer) (hj : j ≠ k) : (post P k n data).client j = n.client j := by
  unfold post
  split
  · split
    · exact (Net.set_client _ _ _ _).trans (if_neg hj)
    · rfl
  · rfl

/-- What is sent changes no link, and nothing that was received. -/
theorem post_keeps (j : Peer) : ((post P k n data).client j).link = (n.client j).link ∧
    ((post P k n data).client j).received = (n.client j).received := by
  unfold post
  split
  · next p _ =>
    split
    · exact Net.set_forall ((n.client k).send p) (fun j client ↦ client.link = (n.client j).link ∧
        client.received = (n.client j).received) ⟨rfl, rfl⟩ (fun _ _ ↦ ⟨rfl, rfl⟩) j
    · exact ⟨rfl, rfl⟩
  · exact ⟨rfl, rfl⟩

theorem post_received (j : Peer) :
    ((post P k n data).client j).received = (n.client j).received :=
  (post_keeps j).2

/-- Only an answer counts as one. -/
theorem post_answered (packet : ClientPacket)
    (hdata : data = (packet.bits C.toStringCompressor).pack) :
    ((post P k n data).client k).answered ≤
      (n.client k).answered + if packet.isAnswer then 1 else 0 := by
  by_cases hl : (n.client k).link = .linked
  · have hne : data ≠ [] := hdata ▸ BitStream.pack_ne _ (packet.bits_ne _)
    have hanswer := packet.isAnswer_of_data C.toStringCompressor
      ⟨P.addr k, P.guid k, data, hne⟩ hdata
    rw [post_eq hne hl, Net.set_client_self]
    exact (congrArg (fun b ↦ (n.client k).answered + if b then 1 else 0) hanswer).le
  · rw [post_closed hl]
    exact Nat.le_add_right _ _

/-- What an honest client may send goes on with a run. -/
theorem run_post {R : Rules Peer} (hrule : (n.client k).link = .linked → ∀ p,
      P.From k p → p.data = data → R.send n k p) : Run P.toPeers R n (post P k n data) := by
  by_cases hl : (n.client k).link = .linked
  · by_cases hdata : data = []
    · rw [hdata, post_nil]
    · rw [post_eq hdata hl]
      have hfrom : P.From k ⟨P.addr k, P.guid k, data, hdata⟩ := ⟨P.guid_id k, rfl⟩
      exact .single (.send n k hl _ hfrom (hrule hl _ hfrom rfl))
  · rw [post_closed hl]

/-! ### Running a program -/

/-- A program that ends leaves its packets to the network. -/
theorem runClient_eq {y : System Peer} {x : ClientM Unit} {s' : GameClient} {acts : List ClientAct}
    (hrunning : y.fault k = none) (h : GameClient.Performs x (y.client k) () s' acts) :
    runClient P y k x = { y with
      net := (posted acts).foldl (fun n bs ↦ post P k n bs.pack) y.net
      client := Function.update y.client k s' } := by
  unfold runClient
  rw [if_pos hrunning]
  simp only [h []]
  congr
  exact Function.update_eq_self_iff.mpr hrunning.symm

/-- A line is typed, or stops the client. -/
theorem step_enter {y : System Peer} (hrunning : y.fault k = none) (line : Bytes) :
    StepDoes P C y (.enter k line) (step P C y (.enter k line)) := by
  rcases (y.client k).inputHandler_does C.toStringCompressor line with
    ⟨s', acts, sent, h, htyped, hposted⟩ | ⟨hidle, h⟩
  · have hstep : step P C y (.enter k line) = y.typed P C k s' sent := by
      rw [step, runClient_eq hrunning h, hposted]
      cases sent <;> rfl
    exact hstep ▸ .types k line hrunning s' sent htyped
  · have hstep : step P C y (.enter k line) = y.idled k := by
      rw [step, runClient, if_pos hrunning]
      simp only [h []]
      rfl
    exact hstep ▸ .idles k line hrunning hidle

theorem step_accept {y : System Peer} (hrunning : y.fault k = none) (locals : Locals)
    (hl : (y.net.client k).link = .linked) (hwaits : y.accepted k = false) :
    step P C y (.accept k locals) = y.introduced P C k := by
  have hid : acceptance.identifier = some ClientMessageId.idConnectionRequestAccepted.byte := by
    decide
  obtain ⟨texts, h⟩ := (y.client k).performs_acceptance C.toStringCompressor locals acceptance hid
  have hrun := runClient_eq (P := P) (y := { y with accepted := Function.update y.accepted k true })
    hrunning h
  rw [step, if_pos ⟨hrunning, hl, hwaits⟩, hrun, posted_append, posted_print, posted_send]
  rfl

/-- A message that can be read is heard. -/
theorem step_deliver {y : System Peer} (hrunning : y.fault k = none) (locals : Locals)
    (hl : (y.net.client k).link = .linked) (haccepted : y.accepted k = true)
    {m : Message × Server} {rest : List (Message × Server)}
    (hdown : (y.net.client k).down = m :: rest) (hm : m.1.Readable) :
    step P C y (.deliver k locals) = y.heard k m rest := by
  have h := GameClient.performs_message C locals (p := m.1.packet C.toStringCompressor)
    (y.client k) m.1 hm rfl
  have hrun := runClient_eq (P := P)
    (y := { y with net := y.net.set k ((y.net.client k).deliver m rest) }) hrunning h
  have hguard := And.intro hrunning (And.intro hl haccepted)
  simp only [step, if_pos hguard, hdown]
  rw [hrun, posted_print, List.foldl_nil]
  rfl

/-- Every move does one of these things. -/
theorem stepDoes {y : System Peer} (hsafe : P.Safe C y.net) (m : SystemMove Peer) :
    StepDoes P C y m (step P C y m) := by
  cases m with
  | connect k =>
    by_cases hl : (y.net.client k).link = .absent
    · have hstep : step P C y (.connect k) = y.connected P k := by
        rw [step, if_pos hl]
        rfl
      exact hstep ▸ .connects k hl
    · rw [step, if_neg hl]
      exact .stays _
  | accept k locals =>
    by_cases hl : y.fault k = none ∧ (y.net.client k).link = .linked ∧ y.accepted k = false
    · rw [step_accept hl.1 locals hl.2.1 hl.2.2]
      exact .accepts k locals hl.1 hl.2.1 hl.2.2
    · rw [step, if_neg hl]
      exact .stays _
  | deliver k locals =>
    by_cases hl : y.fault k = none ∧ (y.net.client k).link = .linked ∧ y.accepted k = true
    · cases hdown : (y.net.client k).down with
      | nil =>
        simp only [step, if_pos hl, hdown]
        exact .stays _
      | cons m rest =>
        have hm := hsafe.readable k m (by simp [hdown])
        rw [step_deliver hl.1 locals hl.2.1 hl.2.2 hdown hm]
        exact .delivers k locals hl.1 hl.2.1 hl.2.2 m rest hdown hm
    · rw [step, if_neg hl]
      exact .stays _
  | enter k line =>
    by_cases hrunning : y.fault k = none
    · exact step_enter hrunning line
    · rw [step, runClient, if_neg hrunning]
      exact .stays _
  | serve k c =>
    by_cases hrunning : y.net.halt = none
    · have hstep : step P C y (.serve k c) = y.served P k c := by
        rw [step, if_pos hrunning]
        rfl
      exact hstep ▸ .serves k c hrunning
    · rw [step, if_neg hrunning]
      exact .stays _

/-! ### Refinement -/

omit [DecidableEq Peer] in
/-- A line leaves a client's program beside its queue. -/
theorem Follows.typed {accepted : Bool} {s s' : GameClient} {client client' : Client} {line : Bytes}
    {sent : Option ClientPacket} (h : Follows P k accepted s client) (htyped : s.Typed line s' sent)
    (hreceived : client'.received = client.received)
    (hanswered : client'.answered ≤
      client.answered + if sent.any ClientPacket.isAnswer then 1 else 0) :
    Follows P k accepted s' client' := by
  have hanswers (hs : sent.any ClientPacket.isAnswer = true) : s.myTurn = true := by
    cases sent with
    | none => cases hs
    | some packet => exact htyped.turn.1 packet rfl hs
  refine ⟨fun hwaits ↦ ?_, fun haccepted ↦ ?_, ?_, fun hturn ↦ ?_, h.begun.alike htyped.kept.symm⟩
  · obtain ⟨rfl, hnone⟩ := h.waiting hwaits
    exact ⟨(htyped.of_pending rfl).1, hreceived.trans hnone⟩
  · rw [hreceived]
    exact htyped.kept.trans (h.alike haccepted)
  · have hbound := h.answered
    rw [hreceived]
    split at hanswered
    · next hs =>
      have := h.turn (hanswers hs)
      omega
    · omega
  · obtain ⟨hmine, hno⟩ := htyped.turn.2 hturn
    have hs : sent.any ClientPacket.isAnswer = false := by
      cases sent with
      | none => rfl
      | some packet => exact hno packet rfl
    have := h.turn hmine
    rw [hs, if_neg (by simp)] at hanswered
    rw [hreceived]
    omega

omit [DecidableEq Peer] in
/-- So does a message. -/
theorem Follows.deliver {s : GameClient} {client : Client} (h : Follows P k true s client)
    (m : Message × Server) (rest : List (Message × Server)) (hm : m.1.Readable) :
    Follows P k true (s.heard m.1) (client.deliver m rest) := by
  have hone : turnCount [m] = if m.1 = .takeTurn then 1 else 0 := by simp [turnCount_cons]
  have hbound := h.answered
  refine ⟨by simp, fun _ ↦ ?_, ?_, fun hturn ↦ ?_, h.begun.heard hm⟩
  · show GameClient.Alike _ (P.view k (client.received ++ [m]))
    rw [P.view_concat]
    exact (h.alike rfl).heard m.1
  · show client.answered ≤ turnCount (client.received ++ [m])
    rw [turnCount_append]
    omega
  · show client.answered < turnCount (client.received ++ [m])
    rw [turnCount_append, hone]
    rw [GameClient.heard_myTurn, Bool.or_eq_true, decide_eq_true_eq] at hturn
    cases hturn with
    | inl hturn =>
      have := h.turn hturn
      omega
    | inr hm =>
      rw [if_pos hm]
      omega

omit [DecidableEq Peer] in
/-- Nothing else a client has received or answered matters. -/
theorem Follows.congr {accepted : Bool} {s : GameClient} {client client' : Client}
    (h : Follows P k accepted s client) (hreceived : client'.received = client.received)
    (hanswered : client'.answered = client.answered) : Follows P k accepted s client' := by
  refine ⟨fun hwaits ↦ ⟨(h.waiting hwaits).1, hreceived.trans (h.waiting hwaits).2⟩, ?_, ?_, ?_,
    h.begun⟩
  · exact hreceived ▸ h.alike
  · exact hreceived ▸ hanswered ▸ h.answered
  · exact hreceived ▸ hanswered ▸ h.turn

omit [DecidableEq Peer] in
/-- So does a stop. -/
theorem Follows.idles {accepted : Bool} {s : GameClient} {client : Client}
    (h : Follows P k accepted s client) (hidle : s.Idle) :
    Follows P k accepted { s with myTurn := false } client where
  waiting hwaits := by
    have hstarted := hidle.started
    rw [(h.waiting hwaits).1] at hstarted
    cases hstarted
  alike haccepted :=
    GameClient.Alike.trans (t := s) ⟨rfl, rfl, rfl, rfl⟩ (h.alike haccepted)
  answered := h.answered
  turn hturn := by cases hturn
  begun := h.begun

/-- What is safe in every run of the network is safe in the system. -/
theorem Refines.safe {y : System Peer} (h : Refines P C Q y) : P.Safe C y.net :=
  h.run.invariant (P.Safe C) (fun _ _ hn hstep ↦ hn.step hstep) .init

/-- Whoever has been accepted stays introduced. -/
theorem Refines.introduced_run {y : System Peer} (h : Refines P C Q y) {n' : Net Peer}
    (hrun : Run P.toPeers (honest C P Q) y.net n') (j : Peer) (hj : y.accepted j = true) :
    Introduced P.toPeers n' j :=
  (h.introduced j hj).run hrun fun i p hp ↦ (h.safe.sent i p hp).from

/-- A change to one client and to what it has received or sent. -/
theorem Refines.update {y : System Peer} (h : Refines P C Q y) {n' : Net Peer}
    {accepted' : Peer → Bool} {client' : Peer → GameClient}
    (hrun : Run P.toPeers (honest C P Q) y.net n')
    (hother : ∀ j, j ≠ k → client' j = y.client j ∧ accepted' j = y.accepted j ∧
      n'.client j = y.net.client j)
    (hk : Follows P k (accepted' k) (client' k) (n'.client k))
    (hrunning : y.fault k = none ∨ client' k = y.client k)
    (hintro : accepted' k = true → y.accepted k = true ∨ Introduced P.toPeers n' k) :
    Refines P C Q { y with net := n', accepted := accepted', client := client' } := by
  refine ⟨h.run.trans hrun, fun j ↦ ?_, fun j ↦ ?_, fun j hj ↦ ?_⟩
  · have hsame (hclient : client' j = y.client j) : y.fault j = none ∨
        (y.fault j = some .emptySend ∧ (client' j).gameState = GameState.gsGameOver.byte) :=
      hclient ▸ h.stopped j
    by_cases hjk : j = k
    · exact hjk ▸ hrunning.elim .inl fun hclient ↦ hjk ▸ hsame (hjk ▸ hclient)
    · exact hsame (hother j hjk).1
  · by_cases hjk : j = k
    · exact hjk ▸ hk
    · obtain ⟨hclient, haccepted, hnet⟩ := hother j hjk
      show Follows P j (accepted' j) (client' j) (n'.client j)
      rw [hclient, haccepted, hnet]
      exact h.follows j
  · by_cases hjk : j = k
    · subst hjk
      exact (hintro hj).elim (h.introduced_run hrun j) id
    · exact h.introduced_run hrun j ((hother j hjk).2.1 ▸ hj)

/-- A connection comes up. -/
theorem Refines.connects {y : System Peer} (h : Refines P C Q y)
    (hl : (y.net.client k).link = .absent) : Refines P C Q (y.connected P k) := by
  have hne : [DefaultMessageId.idNewIncomingConnection.byte] ≠ [] := by simp
  have hlinked : ((y.net.set k (y.net.client k).connect).client k).link = .linked := by
    rw [Net.set_client_self]
    rfl
  apply h.update (k := k)
  · exact .trans (.single (.connect y.net k hl))
      (run_post (R := honest C P Q) fun _ p _ hdata ↦ .inl hdata)
  · intro j hj
    exact ⟨rfl, rfl, (post_other j hj).trans ((Net.set_client _ _ _ _).trans (if_neg hj))⟩
  · apply (h.follows k).congr
    · rw [post_received, Net.set_client_self]
      rfl
    · rw [post_eq hne hlinked, Net.set_client_self, Net.set_client_self]
      simp [Client.send, Client.connect, Packet.isAnswer,
        (lowLevel_of_notice (p := ⟨P.addr k, P.guid k, _, hne⟩) rfl).2.1]
  · exact .inr rfl
  · exact .inl

/-- A client's connection is accepted. -/
theorem Refines.introduces {y : System Peer} (h : Refines P C Q y) (hrunning : y.fault k = none)
    (hl : (y.net.client k).link = .linked) (hwaits : y.accepted k = false) :
    Refines P C Q (y.introduced P C k) := by
  obtain ⟨hclient, hreceived⟩ := (h.follows k).waiting hwaits
  rw [System.introduced, hclient]
  apply h.update (k := k)
  · exact run_post (R := honest C P Q) fun _ p _ hdata ↦ .inr (.inl ⟨_, hdata⟩)
  · intro j hj
    exact ⟨Function.update_of_ne hj _ _, Function.update_of_ne hj _ _, post_other j hj⟩
  · have hanswered := post_answered (P := P) (C := C) (n := y.net) (k := k)
      (.intro (P.newcomer k).player.name (P.newcomer k).player.ready) rfl
    have hno : (ClientPacket.intro (P.newcomer k).player.name
      (P.newcomer k).player.ready).isAnswer = false := rfl
    rw [hno, if_neg (by simp), Nat.add_zero] at hanswered
    rw [Function.update_self, Function.update_self]
    refine ⟨by simp, fun _ ↦ ?_, ?_, by simp [Roster.newcomer], by simp [GameClient.Begun]⟩
    · rw [post_received, hreceived]
      exact .refl _
    · rw [post_received]
      exact hanswered.trans (h.follows k).answered
  · exact .inl hrunning
  · intro _
    have hne := BitStream.pack_ne _ ((ClientPacket.intro (P.newcomer k).player.name
      (P.newcomer k).player.ready).bits_ne C.toStringCompressor)
    refine .inr (.inr ⟨⟨P.addr k, P.guid k, _, hne⟩, ?_, (Packet.payload_of_pack rfl).2.1⟩)
    rw [post_eq hne hl, Net.set_client_self]
    exact List.mem_append_right _ (List.mem_singleton_self _)

/-- A message reaches a client. -/
theorem Refines.hears {y : System Peer} (h : Refines P C Q y) (hrunning : y.fault k = none)
    (hl : (y.net.client k).link = .linked) (haccepted : y.accepted k = true)
    (m : Message × Server) (rest : List (Message × Server))
    (hdown : (y.net.client k).down = m :: rest) (hm : m.1.Readable) :
    Refines P C Q (y.heard k m rest) := by
  have hfollows := h.follows k
  rw [haccepted] at hfollows
  apply h.update (k := k)
  · exact .single (.deliver y.net k hl m rest hdown)
  · exact fun j hj ↦ ⟨Function.update_of_ne hj _ _, rfl, (Net.set_client _ _ _ _).trans (if_neg hj)⟩
  · rw [haccepted, Function.update_self, Net.set_client_self]
    exact hfollows.deliver m rest hm
  · exact .inl hrunning
  · exact .inl

/-- A client stops, its game over. -/
theorem Refines.idles {y : System Peer} (h : Refines P C Q y) (hrunning : y.fault k = none)
    (hidle : (y.client k).Idle) : Refines P C Q (y.idled k) := by
  have hover := (h.follows k).begun.over hidle
  have hchanged : Refines P C Q { y with
      client := Function.update y.client k { y.client k with myTurn := false } } := by
    apply h.update (k := k) .refl
    · exact fun j hj ↦ ⟨Function.update_of_ne hj _ _, rfl, rfl⟩
    · rw [Function.update_self]
      exact (h.follows k).idles hidle
    · exact .inl hrunning
    · exact .inl
  refine ⟨hchanged.run, fun j ↦ ?_, hchanged.follows, hchanged.introduced⟩
  by_cases hjk : j = k
  · subst hjk
    refine .inr ⟨Function.update_self _ _ _, ?_⟩
    show (Function.update y.client j { y.client j with myTurn := false } j).gameState = _
    rw [Function.update_self]
    exact hover
  · have hfault : (y.idled k).fault j = y.fault j := Function.update_of_ne hjk _ _
    rw [hfault]
    exact hchanged.stopped j

/-- A line is typed. -/
theorem Refines.types {y : System Peer} (h : Refines P C Q y) (hrunning : y.fault k = none)
    {line : Bytes} {s' : GameClient} {sent : Option ClientPacket}
    (htyped : (y.client k).Typed line s' sent) : Refines P C Q (y.typed P C k s' sent) := by
  have hfollows := h.follows k
  -- before the connection is accepted nothing is sent
  have haccepted (packet : ClientPacket) (hsent : sent = some packet) : y.accepted k = true := by
    by_contra hwaits
    obtain ⟨hclient, _⟩ := hfollows.waiting (by simpa using hwaits)
    rw [hclient] at htyped
    simp [(htyped.of_pending rfl).2] at hsent
  cases sent with
  | none =>
    apply h.update (k := k) .refl
    · exact fun j hj ↦ ⟨Function.update_of_ne hj _ _, rfl, rfl⟩
    · rw [Function.update_self]
      exact hfollows.typed htyped rfl le_rfl
    · exact .inl hrunning
    · exact .inl
  | some packet =>
    have haccepted := haccepted packet rfl
    have halike := hfollows.alike haccepted
    rw [System.typed, Option.elim_some]
    apply h.update (k := k)
    · refine run_post (R := honest C P Q) fun _ p _ hdata ↦
        .inr (.inr ⟨h.introduced k haccepted, line, ?_⟩)
      obtain ⟨t, ht⟩ := htyped.alike (t := P.mind k (y.net.client k))
        ⟨halike.networkState, halike.gameState, halike.players, halike.name⟩
        fun hturn ↦ by simpa [Roster.mind] using hfollows.turn hturn
      exact ⟨t, packet, ht, hdata⟩
    · exact fun j hj ↦ ⟨Function.update_of_ne hj _ _, rfl, post_other j hj⟩
    · rw [Function.update_self]
      exact hfollows.typed htyped (post_received k) (post_answered packet rfl)
    · exact .inl hrunning
    · exact .inl

/-- The server handles a packet. -/
theorem Refines.serves {y : System Peer} (h : Refines P C Q y) (c : Chance)
    (hrunning : y.net.halt = none) (hQ : ∀ p ∈ (y.net.client k).up.head?, Q y.net p) :
    Refines P C Q (y.served P k c) := by
  have hrun : Run P.toPeers (honest C P Q) y.net (y.net.move P.toPeers (.serve k c)) :=
    Run.move .refl _ ⟨hrunning, hQ⟩
  refine ⟨h.run.trans hrun, h.stopped, fun j ↦ ?_, h.introduced_run hrun⟩
  obtain ⟨_, hreceived, hanswered⟩ := Net.move_serve P.toPeers y.net k c j
  exact (h.follows j).congr hreceived hanswered

/-- Every move goes on with a run of honest clients. -/
theorem Refines.step {y y' : System Peer} (h : Refines P C Q y) {m : SystemMove Peer}
    (hstep : StepDoes P C y m y') (hQ : Admits Q y m) : Refines P C Q y' := by
  cases hstep with
  | stays => exact h
  | connects k hl => exact h.connects hl
  | accepts k locals hrunning hl hwaits => exact h.introduces hrunning hl hwaits
  | delivers k locals hrunning hl haccepted m rest hdown hm =>
    exact h.hears hrunning hl haccepted m rest hdown hm
  | types k line hrunning s' sent htyped => exact h.types hrunning htyped
  | idles k line hrunning hidle => exact h.idles hrunning hidle
  | serves k c hrunning => exact h.serves c hrunning hQ

/-- Only a line that has no answer to give stops a client. -/
theorem StepDoes.fault {y y' : System Peer} {m : SystemMove Peer} (h : StepDoes P C y m y')
    (j : Peer) : y'.fault j = y.fault j ∨ (∃ line, m = .enter j line) ∧ (y.client j).Idle := by
  cases h with
  | idles k line hrunning hidle =>
    by_cases hjk : j = k
    · exact .inr ⟨⟨line, hjk ▸ rfl⟩, hjk ▸ hidle⟩
    · exact .inl (Function.update_of_ne hjk _ _)
  | _ => exact .inl rfl

theorem Refines.init : Refines P C Q (init P) where
  run := .refl
  stopped _ := .inl rfl
  follows k := ⟨fun _ ↦ ⟨rfl, rfl⟩, by simp [System.init], by simp [System.init, Net.init],
    by simp [System.init, Roster.newcomer], fun hstarted ↦ by cases hstarted⟩
  introduced k h := by simp [System.init] at h

theorem Refines.run_moves {y : System Peer} (h : Refines P C Q y) (moves : List (SystemMove Peer))
    (hQ : Orderly P C Q y moves) : Refines P C Q (System.run P C y moves) := by
  induction moves generalizing y with
  | nil => exact h
  | cons m moves ih => exact ih (h.step (stepDoes h.safe m) hQ.1) hQ.2

theorem orderly_true (y : System Peer) (moves : List (SystemMove Peer)) :
    Orderly P C (fun _ _ ↦ True) y moves := by
  induction moves generalizing y with
  | nil => trivial
  | cons m moves ih => exact ⟨by cases m <;> simp [Admits], ih _⟩

end

/-- Whatever is typed and however the moves are interleaved, the clients' programs make the network
run as honest clients do. A program stops only at a stream it has written nothing on, and only when
its game is over. Each knows what it was told: nothing before its connection is accepted, and then
exactly what the messages received say, up to whose turn it is. -/
theorem programs_honest (moves : List (SystemMove Peer)) :
    let y := run P C (init P) moves
    Run P.toPeers (honest C P fun _ _ ↦ True) Net.init y.net ∧
    ∀ k,
      (y.fault k = none ∨
        (y.fault k = some .emptySend ∧ (y.client k).gameState = GameState.gsGameOver.byte)) ∧
      (y.accepted k = false → y.client k = P.newcomer k) ∧
      (y.accepted k = true → GameClient.Alike (y.client k) (P.view k (y.net.client k).received)) ∧
      ((y.client k).myTurn = true →
        (y.net.client k).answered < turnCount (y.net.client k).received) := by
  have h := Refines.init.run_moves moves (orderly_true (P := P) (C := C) _ moves)
  exact ⟨h.run, fun k ↦ ⟨h.stopped k, fun hk ↦ ((h.follows k).waiting hk).1, (h.follows k).alike,
    (h.follows k).turn⟩⟩

/-- Lines are lowered before names are looked up in them, so a player whose name has a capital
letter is healed or struck only by the clients of that very name. -/
theorem capital_struck_by_namesake (moves : List (SystemMove Peer)) (k : Peer) (c : Chance)
    (id : UInt32) (player player' : Player)
    (hp : (run P C (init P) moves).net.world.server.players.find? id = some player)
    (hp' : (run P C (init P) (moves ++ [.serve k c])).net.world.server.players.find? id =
      some player')
    (hcapital : player.name.bytes.any isUpper = true) (hstruck : player'.health ≠ player.health) :
    player.name = P.stored k := by
  have h := Refines.init.run_moves moves (orderly_true (P := P) (C := C) _ moves)
  have hrun : run P C (init P) (moves ++ [.serve k c]) =
      step P C (run P C (init P) moves) (.serve k c) := by
    rw [run, List.foldl_append]
    rfl
  rw [hrun, step] at hp'
  split at hp'
  · have hchanged : ((run P C (init P) moves).net.move P.toPeers (.serve k c)).world.server ≠
        (run P C (init P) moves).net.world.server := fun hsame ↦ by
      rw [hsame, hp, Option.some_inj] at hp'
      exact hstruck (congrArg Player.health hp'.symm)
    obtain ⟨p, hup, r, es, hhandled⟩ := Net.handled_of_move hchanged
    exact hhandled.name_of_struck (h.safe.sent k p hup) hp hp' hcapital hstruck
  · rw [hp, Option.some_inj] at hp'
    exact absurd (congrArg Player.health hp'.symm) hstruck

/-! ### A concrete system -/

def pairName (k : Bool) : Bytes := if k then ascii "bob" else ascii "Al"

theorem pairName_plain (k : Bool) : (pairName k).length + 1 < 2 ^ 31 ∧ PlainHead (pairName k) := by
  cases k <;> decide +kernel

theorem duo_guid_id (k : Bool) : (Setup.counted 2).toUint32 ⟨if k then 2 else 1⟩ = duo.id k := by
  cases k <;> decide

theorem both_listed : [false, true].length < 2 ^ 31 - 1 ∧ ∀ k, k ∈ [false, true] := by
  decide

/-- Two clients, and only the name of the first has a capital letter. -/
def pair : Roster (.counted 2) Bool where
  id := duo.id
  addr := duo.addr
  id_injective := duo.id_injective
  addr_injective := duo.addr_injective
  guid k := ⟨if k then 2 else 1⟩
  guid_id := duo_guid_id
  name := pairName
  name_length k := (pairName_plain k).1
  name_head k := (pairName_plain k).2
  all := [false, true]
  mem_all := both_listed.2
  length_all := both_listed.1

def pairCodec : StringCodec (Setup.counted 2).toRakNet := .counted

/-- A client joins. -/
def joins (k : Bool) : List (SystemMove Bool) :=
  [.connect k, .accept k ⟨0, false, 0, 0⟩, .serve k .least, .serve k .least]

/-- A client gets what is on its way, at most nine messages. -/
def hears (k : Bool) : List (SystemMove Bool) := List.replicate 9 (.deliver k ⟨0, false, 0, 0⟩)

/-- A client is up to date, and a line is typed and served. -/
def enters (k : Bool) (line : String) : List (SystemMove Bool) :=
  hears k ++ [.enter k (ascii line), .serve k .least]

/-- Both join, get ready and become wizards. -/
def wizards : List (SystemMove Bool) :=
  joins false ++ joins true ++ enters false ".ready" ++ enters true ".ready" ++
    enters false ".1" ++ enters true ".1"

/-- The first one heals itself. -/
theorem capital_heals_itself : (⟨ascii "Al", by decide, by decide⟩ : Name) = pair.stored false :=
  capital_struck_by_namesake pair pairCodec
    (wizards ++ hears false ++ [.enter false (ascii ".heal me")]) false .least 1
    { name := ⟨ascii "Al", by decide, by decide⟩, health := 100, ready := true, dead := false }
    { name := ⟨ascii "Al", by decide, by decide⟩, health := 110, ready := true, dead := false }
    (by decide +kernel) (by decide +kernel) (by decide) (by decide)

end System

end RRPG
