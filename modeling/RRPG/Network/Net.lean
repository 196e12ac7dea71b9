import Mathlib.Logic.Relation
import RRPG.Server.Termination

/-!
# The network

The server and its peers, with the messages in flight in both directions. Each direction of
a connection delivers in the order sent. A step lets a peer connect, delivers the oldest
message to a peer, lets a peer send a packet, or lets the server handle the oldest packet of
a peer; which packets are sent and handled is fixed by the rules of a run.
-/

open RRPG.Base RRPG.Base.Handler

namespace RRPG

/-- The systems the server may be connected with, each with its own key and address. -/
structure Peers (S : Setup) (Peer : Type) where
  id : Peer → UInt32
  addr : Peer → SystemAddress
  id_injective : Function.Injective id
  addr_injective : Function.Injective addr

/-- The packet was sent by the peer. -/
def Peers.From {S : Setup} {Peer : Type} (P : Peers S Peer) (k : Peer) (p : Packet) : Prop :=
  S.id p = P.id k ∧ p.systemAddress = P.addr k

instance {S : Setup} {Peer : Type} (P : Peers S Peer) (k : Peer) (p : Packet) :
    Decidable (P.From k p) :=
  inferInstanceAs (Decidable (_ ∧ _))

/-- The state of a connection. -/
inductive Link where
  | absent
  | linked
  | closed
  deriving DecidableEq, Repr

/-- A peer with its connection: the messages in flight to it and those it has received, each
with the server as it was when it was sent, how many turns it has answered, and the packets
in flight from it. -/
structure Client where
  link : Link := .absent
  down : List (Message × Server) := []
  received : List (Message × Server) := []
  answered : Nat := 0
  up : List Packet := []

/-- Whether a packet answers a turn. -/
def Packet.isAnswer (p : Packet) : Bool :=
  p.kind = some .cJobChosen ∨ p.kind = some .cActionTaken

/-- How many turns are among some messages. -/
def turnCount (messages : List (Message × Server)) : Nat :=
  messages.countP fun m ↦ m.1 = .takeTurn

/-- The turns on their way to a client, waiting for its answer, or answered on their way
back. -/
def Client.tokens (client : Client) : Nat :=
  turnCount client.down + (turnCount client.received - client.answered) +
    client.up.countP Packet.isAnswer

/-- What an effect sends to an address. -/
def Effect.to? (systemAddress : SystemAddress) : Effect → Option (Message × Server)
  | ⟨.send .all message, s⟩ => some (message, s)
  | ⟨.send (.system dest) message, s⟩ =>
    if dest = systemAddress then some (message, s) else none
  | _ => none

theorem Effect.to?_eq_some (a : SystemAddress) (e : Effect) (m : Message × Server) :
    e.to? a = some m ↔
      (e.act = .send .all m.1 ∨ e.act = .send (.system a) m.1) ∧ e.server = m.2 := by
  obtain ⟨message, t⟩ := m
  obtain ⟨act, s⟩ := e
  cases act with
  | send dest message' =>
    cases dest with
    | all => simp [Effect.to?]
    | system b => by_cases hb : b = a <;> simp [Effect.to?, hb]
  | _ => simp [Effect.to?]

/-- What some effects send to an address. -/
def outbox (systemAddress : SystemAddress) (es : List Effect) : List (Message × Server) :=
  es.filterMap (Effect.to? systemAddress)

/-- A connection closed by the server is gone for good; a linked client is sent what is
meant for it. -/
def Client.meet (systemAddress : SystemAddress) (client : Client) (e : Effect) : Client :=
  if client.link = .linked then
    if e.act = .closeConnection systemAddress then { client with link := .closed }
    else { client with down := client.down ++ (e.to? systemAddress).toList }
  else client

/-- A client after the effects of a handler. -/
def Client.after (systemAddress : SystemAddress) (client : Client) (es : List Effect) :
    Client :=
  es.foldl (Client.meet systemAddress) client

/-- The client once its connection is made. -/
def Client.connect (client : Client) : Client := { client with link := .linked }

/-- The client once a message has reached it and `rest` is left. -/
def Client.deliver (client : Client) (m : Message × Server) (rest : List (Message × Server)) :
    Client :=
  { client with down := rest, received := client.received ++ [m] }

/-- The client once it has sent a packet. -/
def Client.send (client : Client) (p : Packet) : Client :=
  { client with
    up := client.up ++ [p]
    answered := client.answered + if p.isAnswer then 1 else 0 }

/-- The client once its oldest packet has reached the server and `rest` is left. -/
def Client.pop (client : Client) (rest : List Packet) : Client := { client with up := rest }

/-- The server, why it stopped if it did, and its clients. -/
structure Net (Peer : Type) where
  world : World
  halt : Option Halt
  client : Peer → Client

/-- Which packets peers may send and which are handled, in the runs considered. -/
structure Rules (Peer : Type) where
  send : Net Peer → Peer → Packet → Prop
  serve : Net Peer → Packet → Prop

variable {S : Setup} {Peer : Type} [DecidableEq Peer]

/-- A net with one client changed. -/
def Net.set (n : Net Peer) (k : Peer) (client : Client) : Net Peer :=
  { n with client := Function.update n.client k client }

/-- A net after the server handled a packet. -/
def Net.handled (P : Peers S Peer) (n : Net Peer) (r : Except Halt Unit) (s' : Server)
    (es : List Effect) : Net Peer where
  world := ⟨s', n.world.trace ++ es⟩
  halt := haltOf r
  client k := (n.client k).after (P.addr k) es

@[simp] theorem Net.set_world (n : Net Peer) (k : Peer) (client : Client) :
    (n.set k client).world = n.world := rfl

theorem Net.set_client (n : Net Peer) (k : Peer) (client : Client) (j : Peer) :
    (n.set k client).client j = if j = k then client else n.client j :=
  Function.update_apply _ _ _ _

@[simp] theorem Net.set_client_self (n : Net Peer) (k : Peer) (client : Client) :
    (n.set k client).client k = client :=
  Function.update_self _ _ _

/-- What holds of the changed client and of all others holds of every client. -/
theorem Net.set_forall {n : Net Peer} {k : Peer} (client : Client) (Q : Peer → Client → Prop)
    (hk : Q k client) (h : ∀ j, j ≠ k → Q j (n.client j)) (j : Peer) :
    Q j ((n.set k client).client j) := by
  rw [Net.set_client]
  split
  · next hj => exact hj ▸ hk
  · next hj => exact h j hj

/-- What is left in flight was in flight before. -/
theorem Net.mem_up_of_pop {n : Net Peer} {k : Peer} {p : Packet} {rest : List Packet}
    (hup : (n.client k).up = p :: rest) (j : Peer) (q : Packet)
    (hq : q ∈ ((n.set k ((n.client k).pop rest)).client j).up) : q ∈ (n.client j).up := by
  revert q
  refine Net.set_forall ((n.client k).pop rest)
    (fun j c ↦ ∀ q ∈ c.up, q ∈ (n.client j).up) (fun q hq ↦ ?_) (fun _ _ _ hq ↦ hq) j
  exact hup ▸ List.mem_cons_of_mem p hq

/-- Taking a packet off a queue leaves the messages alone. -/
theorem Net.down_pop (n : Net Peer) (k : Peer) (rest : List Packet) (j : Peer) :
    ((n.set k ((n.client k).pop rest)).client j).down = (n.client j).down :=
  Net.set_forall ((n.client k).pop rest) (fun j c ↦ c.down = (n.client j).down)
    rfl (fun _ _ ↦ rfl) j

/-- The server in the lobby, and nobody connected. -/
def Net.init : Net Peer where
  world := ⟨Server.init, []⟩
  halt := none
  client _ := {}

/-- A server with every peer linked and nothing in flight. -/
def Net.linked (s : Server) : Net Peer where
  world := ⟨s, []⟩
  halt := none
  client _ := { link := .linked }

/-- One step of the network. -/
inductive Step (P : Peers S Peer) (R : Rules Peer) : Net Peer → Net Peer → Prop
  | connect (n : Net Peer) (k : Peer) (h : (n.client k).link = .absent) :
    Step P R n (n.set k (n.client k).connect)
  | deliver (n : Net Peer) (k : Peer) (h : (n.client k).link = .linked)
      (m : Message × Server) (rest : List (Message × Server))
      (hdown : (n.client k).down = m :: rest) :
    Step P R n (n.set k ((n.client k).deliver m rest))
  | send (n : Net Peer) (k : Peer) (h : (n.client k).link = .linked) (p : Packet)
      (hfrom : P.From k p) (hrule : R.send n k p) :
    Step P R n (n.set k ((n.client k).send p))
  | serve (n : Net Peer) (hrunning : n.halt = none) (k : Peer) (p : Packet)
      (rest : List Packet) (hup : (n.client k).up = p :: rest) (hrule : R.serve n p)
      (c : Chance) (r : Except Halt Unit) (s' : Server) (es : List Effect)
      (h : exec (packetHandler S c p) n.world = (r, ⟨s', n.world.trace ++ es⟩)) :
    Step P R n ((n.set k ((n.client k).pop rest)).handled P r s' es)

/-- A run of the network. -/
abbrev Run (P : Peers S Peer) (R : Rules Peer) : Net Peer → Net Peer → Prop :=
  Relation.ReflTransGen (Step P R)

/-- What every step keeps holds after a run. -/
theorem Run.invariant {P : Peers S Peer} {R : Rules Peer} (I : Net Peer → Prop)
    (hstep : ∀ n n', I n → Step P R n n' → I n') {n n' : Net Peer} (h : Run P R n n')
    (h0 : I n) : I n' := by
  induction h with
  | refl => exact h0
  | tail _ hlast ih => exact hstep _ _ ih hlast

/-! ### Clients under effects -/

section
variable (a : SystemAddress) (client : Client)

@[simp] theorem Client.after_cons (e : Effect) (es : List Effect) :
    client.after a (e :: es) = (client.meet a e).after a es := rfl

theorem outbox_cons (e : Effect) (es : List Effect) :
    outbox a (e :: es) = (e.to? a).toList ++ outbox a es := by
  unfold outbox
  rw [List.filterMap_cons]
  cases e.to? a <;> rfl

@[simp] theorem outbox_append (t u : List Effect) :
    outbox a (t ++ u) = outbox a t ++ outbox a u :=
  List.filterMap_append

theorem Client.after_not_linked (es : List Effect) (h : client.link ≠ .linked) :
    client.after a es = client := by
  induction es with
  | nil => rfl
  | cons e es ih => rw [Client.after_cons, Client.meet, if_neg h, ih]

/-- Effects change what is on its way to a client, and its link. -/
theorem Client.after_eq (es : List Effect) : client.after a es =
    { client with link := (client.after a es).link, down := (client.after a es).down } := by
  induction es generalizing client with
  | nil => rfl
  | cons e es ih =>
    rw [Client.after_cons, ih]
    unfold Client.meet
    split
    · split <;> rfl
    · rfl

@[simp] theorem Client.after_up (es : List Effect) : (client.after a es).up = client.up := by
  rw [Client.after_eq]

@[simp] theorem Client.after_received (es : List Effect) :
    (client.after a es).received = client.received := by
  rw [Client.after_eq]

@[simp] theorem Client.after_answered (es : List Effect) :
    (client.after a es).answered = client.answered := by
  rw [Client.after_eq]

/-- No connection comes up. -/
theorem Client.after_absent (es : List Effect) :
    (client.after a es).link = .absent ↔ client.link = .absent := by
  induction es generalizing client with
  | nil => exact Iff.rfl
  | cons e es ih =>
    rw [Client.after_cons, ih, Client.meet]
    split
    · next hl => split <;> simp [hl]
    · exact Iff.rfl

/-- A connection stays as it is unless the server closes it. -/
theorem Client.after_link (es : List Effect) (h : ∀ e ∈ es, e.act ≠ .closeConnection a) :
    (client.after a es).link = client.link := by
  induction es generalizing client with
  | nil => rfl
  | cons e es ih =>
    rw [Client.after_cons, ih _ fun e he ↦ h e (List.mem_cons_of_mem _ he), Client.meet,
      if_neg (h e List.mem_cons_self)]
    split <;> rfl

/-- A client still linked was sent all that was meant for it, any other a part of it. -/
theorem Client.after_down (es : List Effect) :
    ((client.after a es).link = .linked → client.link = .linked ∧
      (client.after a es).down = client.down ++ outbox a es) ∧
    ∃ pre post, es = pre ++ post ∧ (client.after a es).down = client.down ++ outbox a pre := by
  induction es generalizing client with
  | nil => exact ⟨fun h ↦ ⟨h, (List.append_nil _).symm⟩, [], [], rfl, (List.append_nil _).symm⟩
  | cons e es ih =>
    by_cases hl : client.link = .linked
    · by_cases hc : e.act = .closeConnection a
      · have hm : client.meet a e = { client with link := .closed } := by
          rw [Client.meet, if_pos hl, if_pos hc]
        have hclosed : ({ client with link := .closed } : Client).link ≠ .linked := by simp
        rw [Client.after_cons, hm, Client.after_not_linked a _ es hclosed]
        exact ⟨fun h ↦ absurd h hclosed, [], e :: es, rfl, (List.append_nil _).symm⟩
      · have hm : client.meet a e =
            { client with down := client.down ++ (e.to? a).toList } := by
          rw [Client.meet, if_pos hl, if_neg hc]
        rw [Client.after_cons, hm]
        obtain ⟨hlinked, pre, post, rfl, hdown⟩ := ih
          { client with down := client.down ++ (e.to? a).toList }
        refine ⟨fun h ↦ ⟨hl, ?_⟩, e :: pre, post, rfl, ?_⟩
        · rw [(hlinked h).2, outbox_cons, List.append_assoc]
        · rw [hdown, outbox_cons, List.append_assoc]
    · rw [Client.after_not_linked a client _ hl]
      exact ⟨fun h ↦ absurd h hl, [], e :: es, rfl, (List.append_nil _).symm⟩

end

omit [DecidableEq Peer] in
/-- What the server does leaves the packets in flight to it alone. -/
theorem Net.mem_up_of_handled {P : Peers S Peer} {n : Net Peer} {r : Except Halt Unit}
    {s' : Server} {es : List Effect} (j : Peer) (q : Packet)
    (hq : q ∈ ((n.handled P r s' es).client j).up) : q ∈ (n.client j).up := by
  simpa [Net.handled] using hq

@[simp] theorem turnCount_append (xs ys : List (Message × Server)) :
    turnCount (xs ++ ys) = turnCount xs + turnCount ys := by
  simp [turnCount]

/-- No turn is handed out to everybody. -/
def NoBroadcastTurn (es : List Effect) : Prop := ∀ e ∈ es, e.act ≠ .send .all .takeTurn

/-- The turns sent to an address are the turns handed out to it. -/
theorem turnCount_outbox (a : SystemAddress) (es : List Effect) (h : NoBroadcastTurn es) :
    turnCount (outbox a es) = (turns es).countP (fun t ↦ t.1 = a) := by
  induction es with
  | nil => rfl
  | cons e es ih =>
    have ih := ih fun e he ↦ h e (List.mem_cons_of_mem _ he)
    rw [outbox_cons, turnCount_append, turns_cons, List.countP_append, ih]
    congr 1
    have hnot := h e (by simp)
    obtain ⟨act, s⟩ := e
    unfold Effect.to? Effect.turn?
    cases act with
    | send dest message =>
      cases dest with
      | all =>
        cases message <;> simp_all [turnCount]
      | system b =>
        by_cases hb : b = a <;> cases message <;> simp [turnCount, hb]
    | _ => rfl

/-! ### Concrete runs -/

/-- A step with all it leaves open settled. -/
inductive Move (Peer : Type) where
  | connect (k : Peer)
  | deliver (k : Peer)
  | send (k : Peer) (p : Packet)
  | serve (k : Peer) (c : Chance)

/-- The net after a move; nothing moves where there is nothing to deliver or handle. -/
def Net.move (P : Peers S Peer) (n : Net Peer) : Move Peer → Net Peer
  | .connect k => n.set k (n.client k).connect
  | .deliver k =>
    match (n.client k).down with
    | [] => n
    | m :: rest => n.set k ((n.client k).deliver m rest)
  | .send k p => n.set k ((n.client k).send p)
  | .serve k c =>
    match (n.client k).up with
    | [] => n
    | p :: rest =>
      let out := exec (packetHandler S c p) n.world
      (n.set k ((n.client k).pop rest)).handled P out.1 out.2.server
        (out.2.trace.drop n.world.trace.length)

/-- The rules and the state of the net allow a move. -/
def Possible (P : Peers S Peer) (R : Rules Peer) (n : Net Peer) : Move Peer → Prop
  | .connect k => (n.client k).link = .absent
  | .deliver k => (n.client k).link = .linked
  | .send k p => (n.client k).link = .linked ∧ P.From k p ∧ R.send n k p
  | .serve k _ => n.halt = none ∧ ∀ p ∈ (n.client k).up.head?, R.serve n p

/-- A possible move goes on with a run. -/
theorem Run.move {P : Peers S Peer} {R : Rules Peer} {n₀ n : Net Peer} (h : Run P R n₀ n)
    (m : Move Peer) (hm : Possible P R n m) : Run P R n₀ (n.move P m) := by
  cases m with
  | connect k => exact h.tail (.connect n k hm)
  | deliver k =>
    cases hdown : (n.client k).down with
    | nil => simpa [Net.move, hdown] using h
    | cons m rest => simpa [Net.move, hdown] using h.tail (.deliver n k hm m rest hdown)
  | send k p => exact h.tail (.send n k hm.1 p hm.2.1 hm.2.2)
  | serve k c =>
    cases hup : (n.client k).up with
    | nil => simpa [Net.move, hup] using h
    | cons p rest =>
      rcases hexec : exec (packetHandler S c p) n.world with ⟨r, ⟨s', trace⟩⟩
      obtain ⟨es, htrace, _⟩ := handled_of_exec S c p n.world _ r hexec
      obtain rfl : trace = n.world.trace ++ es := htrace
      have := h.tail (.serve n hm.1 k p rest hup (hm.2 p (by rw [hup]; rfl)) c r s' es hexec)
      simpa [Net.move, hup, hexec] using this

/-- The net after some moves. -/
def Net.moves (P : Peers S Peer) (n : Net Peer) (ms : List (Move Peer)) : Net Peer :=
  ms.foldl (Net.move P) n

/-- Each move is possible after those before it. -/
def AllPossible (P : Peers S Peer) (R : Rules Peer) : Net Peer → List (Move Peer) → Prop
  | _, [] => True
  | n, m :: ms => Possible P R n m ∧ AllPossible P R (n.move P m) ms

section
variable (P : Peers S Peer) (R : Rules Peer) [∀ n k p, Decidable (R.send n k p)]
  [∀ n p, Decidable (R.serve n p)]

instance (n : Net Peer) : (m : Move Peer) → Decidable (Possible P R n m)
  | .connect _ => inferInstanceAs (Decidable (_ = _))
  | .deliver _ => inferInstanceAs (Decidable (_ = _))
  | .send _ _ => inferInstanceAs (Decidable (_ ∧ _))
  | .serve _ _ => inferInstanceAs (Decidable (_ ∧ _))

instance decidableAllPossible :
    (n : Net Peer) → (ms : List (Move Peer)) → Decidable (AllPossible P R n ms)
  | _, [] => .isTrue trivial
  | n, m :: ms =>
    have := decidableAllPossible (n.move P m) ms
    inferInstanceAs (Decidable (_ ∧ _))

end

theorem Run.moves {P : Peers S Peer} {R : Rules Peer} {n₀ : Net Peer} (ms : List (Move Peer))
    {n : Net Peer} (h : Run P R n₀ n) (hms : AllPossible P R n ms) :
    Run P R n₀ (n.moves P ms) := by
  induction ms generalizing n with
  | nil => exact h
  | cons m ms ih => exact ih (h.move m hms.1) hms.2

/-- Two peers with the keys 1 and 2. -/
def duo : Peers (.plain 2) Bool where
  id k := if k then 2 else 1
  addr k := ⟨if k then 2 else 1, 60000⟩
  id_injective a b h := by cases a <;> cases b <;> simp_all
  addr_injective a b h := by cases a <;> cases b <;> simp_all

/-- A packet of one of them. -/
def duoPacket (k : Bool) (identifier : RRPGId) (payload : Bytes) : Packet :=
  (clientEvent (if k then 2 else 1) identifier.byte payload).packet

end RRPG
