import RRPG.Client.Packets
import RRPG.Client.Reports

/-!
# Honest clients

What the client's program lets a peer send, stated on the network alone: the messages received so
far determine what the program knows, and the packets are those it could be made to send by some
line. In every run of such peers the server's tables are those of the peers, and every message in
flight can be read.
-/

open RRPG.Base RRPG.Base.Handler

namespace RRPG

/-- The peers with their clients: the guid the library gives each of them, and the name its user
entered, which does not begin like a message. There are few enough for a client to count them. -/
structure Roster (S : Setup) (Peer : Type) extends Peers S Peer where
  guid : Peer → RakNetGUID
  guid_id : ∀ k, S.toUint32 (guid k) = id k
  name : Peer → Bytes
  name_length : ∀ k, (name k).length + 1 < 2 ^ 31
  name_head : ∀ k, PlainHead (name k)
  all : List Peer
  mem_all : ∀ k, k ∈ all
  length_all : all.length < 2 ^ 31 - 1

/-! ### What a client knows -/

namespace GameClient

/-- The same to everybody else, whoever is on turn or ready. -/
structure Alike (s t : GameClient) : Prop where
  networkState : s.networkState = t.networkState
  gameState : s.gameState = t.gameState
  players : s.players = t.players
  name : s.player.name = t.player.name

theorem Alike.refl (s : GameClient) : Alike s s := ⟨rfl, rfl, rfl, rfl⟩

theorem Alike.symm {s t : GameClient} (h : Alike s t) : Alike t s :=
  ⟨h.networkState.symm, h.gameState.symm, h.players.symm, h.name.symm⟩

theorem Alike.trans {s t u : GameClient} (h : Alike s t) (h' : Alike t u) : Alike s u :=
  ⟨h.networkState.trans h'.networkState, h.gameState.trans h'.gameState,
    h.players.trans h'.players, h.name.trans h'.name⟩

theorem name_updated (name : Bytes) (newHp : Int) (player : LocalPlayer) :
    (player.updated name newHp).name = player.name := by
  unfold LocalPlayer.updated
  split <;> rfl

/-- Messages keep clients alike. -/
theorem Alike.heard {s t : GameClient} (h : Alike s t) (m : Message) :
    Alike (s.heard m) (t.heard m) := by
  cases m with
  | updateGameState gameState records =>
    obtain ⟨_, hs⟩ := foldl_enter { s with gameState := gameState.byte } (records.getD [])
    obtain ⟨_, ht⟩ := foldl_enter { t with gameState := gameState.byte } (records.getD [])
    rw [GameClient.heard, GameClient.heard, hs, ht]
    exact ⟨h.networkState, rfl, congrArg (· ++ _) h.players, h.name⟩
  | updatePlayerHp name health =>
    refine ⟨h.networkState, h.gameState, congrArg (List.map _) h.players, ?_⟩
    show (s.player.updated _ _).name = (t.player.updated _ _).name
    rw [name_updated, name_updated, h.name]
  | gameStarted => exact ⟨rfl, rfl, h.players, h.name⟩
  | takeTurn => exact ⟨h.networkState, h.gameState, h.players, h.name⟩
  | _ => exact h

theorem heard_name (s : GameClient) (m : Message) : (s.heard m).player.name = s.player.name := by
  cases m with
  | updateGameState gameState records =>
    obtain ⟨_, hs⟩ := foldl_enter { s with gameState := gameState.byte } (records.getD [])
    rw [heard, hs]
  | updatePlayerHp name health => exact name_updated _ _ s.player
  | _ => rfl

/-- Only a turn changes who is on turn. -/
theorem heard_myTurn (s : GameClient) (m : Message) :
    (s.heard m).myTurn = (s.myTurn || decide (m = .takeTurn)) := by
  cases m with
  | updateGameState gameState records =>
    obtain ⟨_, hs⟩ := foldl_enter { s with gameState := gameState.byte } (records.getD [])
    simp [heard, hs]
  | _ => simp [heard]

/-- The client after some messages. -/
def told (t : GameClient) (messages : List (Message × Server)) : GameClient :=
  messages.foldl (fun t m ↦ t.heard m.1) t

@[simp] theorem told_nil (t : GameClient) : t.told [] = t := rfl

@[simp] theorem told_cons (t : GameClient) (m : Message × Server)
    (messages : List (Message × Server)) : t.told (m :: messages) = (t.heard m.1).told messages :=
  rfl

@[simp] theorem told_append (t : GameClient) (xs ys : List (Message × Server)) :
    t.told (xs ++ ys) = (t.told xs).told ys :=
  List.foldl_append

/-- A client in a game knows of one of the phases that are announced. -/
def Begun (s : GameClient) : Prop := s.networkState = .nsGameStarted →
  s.gameState = GameState.gsCharacterSelect.byte ∨ s.gameState = GameState.gsMain.byte ∨
    s.gameState = GameState.gsGameOver.byte

theorem Begun.alike {s t : GameClient} (h : s.Begun) (hlike : Alike s t) : t.Begun := by
  unfold Begun
  rw [← hlike.networkState, ← hlike.gameState]
  exact h

theorem Begun.heard {s : GameClient} {m : Message} (h : s.Begun) (hm : m.Readable) :
    (s.heard m).Begun := by
  cases m with
  | gameStarted => exact fun _ ↦ .inl rfl
  | updateGameState gameState records =>
    obtain ⟨_, hs⟩ := foldl_enter { s with gameState := gameState.byte } (records.getD [])
    rw [GameClient.heard, hs]
    cases records with
    | none => exact fun _ ↦ .inr (.inr (congrArg GameState.byte hm))
    | some records => exact fun _ ↦ .inr (.inl (congrArg GameState.byte hm.1))
  | _ => exact h

/-- A client on turn with no answer asked for has seen the end of its game. -/
theorem Begun.over {s : GameClient} (h : s.Begun) (hidle : s.Idle) :
    s.gameState = GameState.gsGameOver.byte :=
  ((h hidle.started).resolve_left hidle.select).resolve_left hidle.main

/-- Alike clients make the same of a line, if the one on turn is so by right. -/
theorem Typed.alike {s s' t : GameClient} {line : Bytes} {sent : Option ClientPacket}
    (h : s.Typed line s' sent) (hlike : Alike s t) (hturn : s.myTurn = true → t.myTurn = true) :
    ∃ t', t.Typed line t' sent := by
  cases h with
  | quiet => exact ⟨t, .quiet⟩
  | readies hstate hline => exact ⟨_, .readies (hlike.networkState ▸ hstate) hline⟩
  | unreadies hstate hline => exact ⟨_, .unreadies (hlike.networkState ▸ hstate) hline⟩
  | asksPlayers hstate hline => exact ⟨_, .asksPlayers (hlike.networkState ▸ hstate) hline⟩
  | asksStats hstate hline => exact ⟨_, .asksStats (hlike.networkState ▸ hstate) hline⟩
  | answers hstate hmine answer hanswer =>
    refine ⟨_, .answers (hlike.networkState ▸ hstate) (hturn hmine) _ ?_⟩
    cases hanswer with
    | job hstate cc hcc => exact .job (hlike.gameState ▸ hstate) cc hcc
    | action hstate command word rest hwords action haction name htarget =>
      refine .action (hlike.gameState ▸ hstate) command word rest hwords action haction name ?_
      unfold target? at htarget ⊢
      rwa [← hlike.name, ← hlike.players]
  | chats hchatty hline hdot =>
    refine ⟨t, .chats ?_ hline hdot⟩
    exact hchatty.imp (fun h ↦ hlike.networkState ▸ h)
      fun h ↦ ⟨hlike.networkState ▸ h.1, hturn h.2⟩

/-- A line changes nothing that others know. -/
theorem Typed.kept {s s' : GameClient} {line : Bytes} {sent : Option ClientPacket}
    (h : s.Typed line s' sent) : Alike s' s := by
  cases h <;> exact ⟨rfl, rfl, rfl, rfl⟩

/-- Who answers is on turn before and no longer afterwards. -/
theorem Typed.turn {s s' : GameClient} {line : Bytes} {sent : Option ClientPacket}
    (h : s.Typed line s' sent) :
    (∀ packet ∈ sent, packet.isAnswer = true → s.myTurn = true) ∧
      (s'.myTurn = true → s.myTurn = true ∧ ∀ packet ∈ sent, packet.isAnswer = false) := by
  cases h with
  | answers hstate hturn answer hanswer => exact ⟨fun _ _ _ ↦ hturn, by simp⟩
  | _ => simp

/-- The turn is lost with an answer. -/
theorem Typed.loses_turn {s s' : GameClient} {line : Bytes} {sent : Option ClientPacket}
    (h : s.Typed line s' sent) (hs : s.myTurn = true) :
    s'.myTurn = true ∨ ∃ packet, sent = some packet ∧ packet.isAnswer = true := by
  cases h with
  | answers hstate hturn answer hanswer =>
    right
    cases hanswer with
    | job => exact ⟨_, rfl, rfl⟩
    | action => exact ⟨_, rfl, rfl⟩
  | _ => exact .inl hs

/-- Before the connection is accepted a line does nothing. -/
theorem Typed.of_pending {s s' : GameClient} {line : Bytes} {sent : Option ClientPacket}
    (h : s.Typed line s' sent) (hs : s.networkState = .nsPendingConnection) :
    s' = s ∧ sent = none := by
  cases h with
  | quiet => exact ⟨rfl, rfl⟩
  | chats hchatty => simp [Chatty, hs] at hchatty
  | readies h | unreadies h | asksPlayers h | asksStats h | answers h => simp [hs] at h

end GameClient

/-- A packet answers a turn if it was meant to. -/
theorem ClientPacket.isAnswer_of_data {R : RakNet} (C : StringCompressor R)
    (packet : ClientPacket) (p : Packet) (hp : p.data = (packet.bits C).pack) :
    p.isAnswer = packet.isAnswer := by
  obtain ⟨_, hk, _⟩ := Packet.payload_of_pack hp
  unfold Packet.isAnswer
  rw [hk]
  cases packet <;> rfl

variable {S : Setup} {Peer : Type}

namespace Roster

variable (P : Roster S Peer)

/-- A client that waits for its connection, with the members the constructor leaves unset
zero. -/
def newcomer (k : Peer) : GameClient where
  networkState := .nsPendingConnection
  gameState := 0
  player := { name := P.name k }
  players := []
  myTurn := false

/-- A client whose connection has been accepted. -/
def start (k : Peer) : GameClient := { P.newcomer k with networkState := .nsLobby }

/-- The accepted client of a peer after some messages. -/
def view (k : Peer) (messages : List (Message × Server)) : GameClient :=
  (P.start k).told messages

/-- What a peer knows: the messages it has received, and whether it owes an answer. -/
def mind (k : Peer) (client : Client) : GameClient :=
  { P.view k client.received with
    myTurn := decide (client.answered < turnCount client.received) }

/-- The name a peer is registered under. -/
def stored (k : Peer) : Name := CString.ofBytes 256 (P.name k)

theorem view_append (k : Peer) (xs ys : List (Message × Server)) :
    P.view k (xs ++ ys) = (P.view k xs).told ys :=
  GameClient.told_append _ xs ys

theorem view_concat (k : Peer) (xs : List (Message × Server)) (m : Message × Server) :
    P.view k (xs ++ [m]) = (P.view k xs).heard m.1 :=
  P.view_append k xs [m]

theorem view_name (k : Peer) (messages : List (Message × Server)) :
    (P.view k messages).player.name = P.name k := by
  induction messages using List.reverseRecOn with
  | nil => rfl
  | append_singleton xs m ih => rw [view_concat, GameClient.heard_name, ih]

end Roster

/-! ### What a client sends -/

/-- The bytes `A` to `Z`, which a line in lower case does not hold. -/
def isUpper (b : UInt8) : Bool := 65 ≤ b ∧ b ≤ 90

/-- The peer has introduced itself, or its introduction is on the way. -/
def Introduced (P : Peers S Peer) (n : Net Peer) (k : Peer) : Prop :=
  P.id k ∈ n.world.server.players ∨ ∃ q ∈ (n.client k).up, q.kind = some .cIntro

section
variable [DecidableEq Peer] {P : Peers S Peer} {R : Rules Peer} {n n' : Net Peer} {k : Peer}

/-- Taking a packet off a queue changes nothing else about a client. -/
theorem Net.popped (n : Net Peer) (k : Peer) (rest : List Packet) (j : Peer) :
    ∃ up, (n.set k ((n.client k).pop rest)).client j = { n.client j with up := up } :=
  Net.set_forall ((n.client k).pop rest)
    (fun j client ↦ ∃ up, client = { n.client j with up := up }) ⟨rest, rfl⟩
    (fun j _ ↦ ⟨(n.client j).up, rfl⟩) j

/-- Packets come from those who sent them. -/
theorem Step.from (h : Step P R n n')
    (hfrom : ∀ k, ∀ p ∈ (n.client k).up, P.From k p) : ∀ k, ∀ p ∈ (n'.client k).up, P.From k p := by
  have hset (j : Peer) (client : Client) (hup : ∀ p ∈ client.up, P.From j p) :
      ∀ k, ∀ p ∈ ((n.set j client).client k).up, P.From k p :=
    Net.set_forall _ (fun k c ↦ ∀ p ∈ c.up, P.From k p) hup fun k _ ↦ hfrom k
  cases h with
  | connect j hl => exact hset j _ (hfrom j)
  | deliver j hl m rest hdown => exact hset j _ (hfrom j)
  | send j hl p hp hrule =>
    exact hset j _ (List.forall_mem_append.mpr ⟨hfrom j, List.forall_mem_singleton.mpr hp⟩)
  | serve hrunning j p rest hup hrule c r s' es hexec =>
    exact fun k q hq ↦ hfrom k q (Net.mem_up_of_pop hup k q (Net.mem_up_of_handled k q hq))

/-- Nobody is taken off the table. -/
theorem Handled.mem_of_mem {c : Chance} {p : Packet} {s s' : Server} {r : Except Halt Unit}
    {es : List Effect} (h : Handled S c p s r s' es) {id : UInt32} (hid : id ∈ s.players) :
    id ∈ s'.players := by
  by_cases hk : p.kind = some .cIntro
  · obtain ⟨_, rfl, _⟩ := h.of_intro hk
    simp [Server.joined, hid]
  · exact ((h.sameNames hk).mem _).mpr hid

theorem Handled.mem_of_intro {c : Chance} {p : Packet} {s s' : Server} {r : Except Halt Unit}
    {es : List Effect} (h : Handled S c p s r s' es) (hk : p.kind = some .cIntro) :
    S.id p ∈ s'.players := by
  obtain ⟨_, rfl, _⟩ := h.of_intro hk
  simp [Server.joined]

/-- Who has introduced himself stays so. -/
theorem Introduced.step (hk : Introduced P n k) (h : Step P R n n')
    (hfrom : ∀ k, ∀ p ∈ (n.client k).up, P.From k p) :
    Introduced P n' k := by
  have hset (j : Peer) (client : Client) (hup : ∀ q ∈ (n.client j).up, q ∈ client.up) :
      Introduced P (n.set j client) k := by
    refine hk.imp_right fun ⟨q, hq, hkind⟩ ↦ ⟨q, ?_, hkind⟩
    rw [Net.set_client]
    split
    · next hj => exact hup q (hj ▸ hq)
    · exact hq
  cases h with
  | connect j hl => exact hset j _ fun _ h ↦ h
  | deliver j hl m rest hdown => exact hset j _ fun _ h ↦ h
  | send j hl p hp hrule => exact hset j _ fun q hq ↦ List.mem_append_left _ hq
  | serve hrunning j p rest hup hrule c r s' es hexec =>
    have hhandled := handled_of_step S c p n.world r s' es hexec
    cases hk with
    | inl hk => exact .inl (hhandled.mem_of_mem hk)
    | inr hq =>
      obtain ⟨q, hq, hkind⟩ := hq
      -- the introduction is the packet handled, or still on its way
      by_cases hj : k = j
      · subst hj
        have hsender : S.id p = P.id k := (hfrom k p (by simp [hup])).1
        rw [hup] at hq
        cases List.mem_cons.mp hq with
        | inl hqp =>
          subst hqp
          exact .inl (hsender ▸ hhandled.mem_of_intro hkind)
        | inr hq =>
          right
          refine ⟨q, ?_, hkind⟩
          simpa [Net.handled, Client.pop] using hq
      · right
        refine ⟨q, ?_, hkind⟩
        simpa [Net.handled, Net.set_client, if_neg hj] using hq

theorem Introduced.run (hk : Introduced P n k) (hrun : Run P R n n')
    (hfrom : ∀ k, ∀ p ∈ (n.client k).up, P.From k p) : Introduced P n' k :=
  (hrun.invariant (fun n ↦ (∀ k, ∀ p ∈ (n.client k).up, P.From k p) ∧ Introduced P n k)
    (fun _ _ h hstep ↦ ⟨hstep.from h.1, h.2.step hstep h.1⟩) ⟨hfrom, hk⟩).2

end

/-- What a peer can say of itself and of others: it goes by its own name, and calls others by
names it has typed in lower case. -/
def Roster.Own (P : Roster S Peer) (k : Peer) : ClientPacket → Prop
  | .intro name _ => name = P.name k
  | .actionTaken _ name => name = P.name k ∨ (name.length < 256 ∧ name.any isUpper = false)
  | _ => True

section
variable (C : StringCodec S.toRakNet) (P : Roster S Peer)

/-- The packets of honest clients: the library's notice of the connection, an introduction under
the name entered, or what some line makes of what the client knows. Which packets are handled is
left open. -/
def honest (serve : Net Peer → Packet → Prop) : Rules Peer where
  send n k p :=
    p.data = [DefaultMessageId.idNewIncomingConnection.byte] ∨
    (∃ ready, p.data = ((ClientPacket.intro (P.name k) ready).bits C.toStringCompressor).pack) ∨
    (Introduced P.toPeers n k ∧ ∃ line s' packet,
      (P.mind k (n.client k)).Typed line s' (some packet) ∧
      p.data = (packet.bits C.toStringCompressor).pack)
  serve := serve

/-- A packet in flight from an honest client. -/
inductive Roster.Sent (k : Peer) (p : Packet) : Prop
  | notice (hfrom : P.From k p)
      (hdata : p.data = [DefaultMessageId.idNewIncomingConnection.byte])
  | packet (hfrom : P.From k p) (packet : ClientPacket)
      (hdata : p.data = (packet.bits C.toStringCompressor).pack) (hown : P.Own k packet)

end

theorem isUpper_tolower (b : UInt8) : isUpper (tolower b) = false := by
  unfold isUpper tolower
  by_cases h : 65 ≤ b ∧ b ≤ 90
  · rw [if_pos h, decide_eq_false_iff_not]
    simp only [UInt8.le_iff_toNat_le, UInt8.toNat_add, UInt8.reduceToNat] at h ⊢
    omega
  · rw [if_neg h, decide_eq_false_iff_not]
    exact h

/-- The players a client knows have names of the server. -/
theorem Roster.view_stored (P : Roster S Peer) (k : Peer) (messages : List (Message × Server))
    (player : LocalPlayer) (h : player ∈ (P.view k messages).players) :
    ∃ name : Name, player.name = name.bytes := by
  induction messages using List.reverseRecOn generalizing player with
  | nil => cases h
  | append_singleton xs m ih =>
    rw [P.view_concat] at h
    cases hm : m.1 with
    | updateGameState gameState records =>
      obtain ⟨_, hview⟩ := GameClient.foldl_enter
        { P.view k xs with gameState := gameState.byte } (records.getD [])
      rw [hm, GameClient.heard, hview, List.mem_append] at h
      cases h with
      | inl h => exact ih player h
      | inr h =>
        obtain ⟨record, _, rfl⟩ := List.mem_map.mp h
        exact ⟨record.name, rfl⟩
    | updatePlayerHp name health =>
      rw [hm] at h
      obtain ⟨old, hold, rfl⟩ := List.mem_map.mp h
      rw [GameClient.name_updated]
      exact ih old hold
    | _ =>
      rw [hm] at h
      exact ih player h

/-- Whom a client names for an action. -/
theorem Roster.own_target (P : Roster S Peer) (k : Peer) (client : Client) (line word : Bytes)
    (name : Bytes) (hword : word ∈ words isspace (line.map tolower))
    (htarget : (P.mind k client).target? word = some name) :
    name = P.name k ∨ (name.length < 256 ∧ name.any isUpper = false) := by
  unfold GameClient.target? at htarget
  split at htarget
  · left
    obtain rfl := Option.some.inj htarget
    exact P.view_name k client.received
  · split at htarget
    · next hany =>
      right
      obtain rfl := Option.some.inj htarget
      obtain ⟨player, hplayer, hname⟩ := List.any_eq_true.mp hany
      obtain ⟨stored, hstored⟩ := P.view_stored k _ player hplayer
      have hsame : player.name = word := (of_decide_eq_true hname).1
      refine ⟨?_, ?_⟩
      · rw [← hsame, hstored]
        exact stored.length_lt
      · rw [List.any_eq_false]
        intro b hb
        obtain ⟨c, _, rfl⟩ := List.mem_map.mp
          ((sublist_of_mem_words isspace _ word hword).subset hb)
        simp [isUpper_tolower]
    · cases htarget

/-- What a line makes of what a client knows is its own. -/
theorem Roster.own_of_typed (P : Roster S Peer) (k : Peer) (client : Client) {line : Bytes}
    {s' : GameClient} {packet : ClientPacket}
    (htyped : (P.mind k client).Typed line s' (some packet)) : P.Own k packet := by
  cases htyped with
  | answers hstate hturn answer hanswer =>
    cases hanswer with
    | job => trivial
    | action hstate command word rest hwords action haction name htarget =>
      exact P.own_target k client line word name (by simp [hwords]) htarget
  | _ => trivial

section
variable {C : StringCodec S.toRakNet} {P : Roster S Peer} {serve : Net Peer → Packet → Prop}
  {n : Net Peer} {k : Peer} {p : Packet}

theorem sent_of_honest (h : (honest C P serve).send n k p) (hfrom : P.From k p) :
    P.Sent C k p := by
  rcases h with h | ⟨ready, h⟩ | ⟨_, line, s', packet, htyped, h⟩
  · exact .notice hfrom h
  · exact .packet hfrom _ h rfl
  · exact .packet hfrom packet h (P.own_of_typed k _ htyped)

/-- The notice of a connection is the library's. -/
theorem lowLevel_of_notice
    (hdata : p.data = [DefaultMessageId.idNewIncomingConnection.byte]) :
    p.identifier = some DefaultMessageId.idNewIncomingConnection.byte ∧ p.kind = none ∧
      p.lowLevel = some .idNewIncomingConnection := by
  have hhead : p.data.head p.data_ne = DefaultMessageId.idNewIncomingConnection.byte := by
    simp [hdata]
  have hid : p.identifier = some DefaultMessageId.idNewIncomingConnection.byte := by
    rw [Packet.identifier, hhead, if_neg (by decide)]
  exact ⟨hid, by rw [Packet.kind, hid]; rfl, by rw [Packet.lowLevel, hid]; rfl⟩

theorem Roster.Sent.from (h : P.Sent C k p) : P.From k p := by
  cases h with
  | notice hfrom => exact hfrom
  | packet hfrom => exact hfrom

/-- A string of a peer is short enough to be sent. -/
theorem Roster.Own.fits {packet : ClientPacket} (h : P.Own k packet)
    (hk : packet.kind = .cIntro ∨ packet.kind = .cActionTaken) :
    packet.string.length + 1 < 2 ^ 31 := by
  have hname := P.name_length k
  cases packet with
  | intro name isReady =>
    obtain rfl : name = P.name k := h
    exact hname
  | actionTaken action name =>
    show name.length + 1 < 2 ^ 31
    rcases h with rfl | ⟨hlength, _⟩
    · exact hname
    · omega
  | _ => simp at hk

/-- An introduction registers the name entered. -/
theorem Roster.Sent.intro (h : P.Sent C k p) (hk : p.kind = some .cIntro) :
    (S.decodeString 256 p.payload).1 = P.stored k := by
  cases h with
  | notice _ hdata => simp [(lowLevel_of_notice hdata).2.1] at hk
  | packet _ packet hdata hown =>
    have hkind := (Packet.payload_of_pack hdata).2.1.symm.trans hk
    rw [Option.some_inj] at hkind
    have hread := (packet.understood C (hown.fits (.inl hkind)) p hdata).2
    cases packet with
    | intro name isReady =>
      obtain rfl : name = P.name k := hown
      exact hread
    | _ => simp at hkind

/-- An action names the peer itself or somebody without capital letters. -/
theorem Roster.Sent.action (h : P.Sent C k p) (hk : p.kind = some .cActionTaken) (c : Chance) :
    (∃ action, Action.ofByte? (readAction S c p).1 = some action) ∧
      ((readAction S c p).2 = P.stored k ∨ (readAction S c p).2.bytes.any isUpper = false) := by
  cases h with
  | notice _ hdata => simp [(lowLevel_of_notice hdata).2.1] at hk
  | packet _ packet hdata hown =>
    have hkind := (Packet.payload_of_pack hdata).2.1.symm.trans hk
    rw [Option.some_inj] at hkind
    have hread := (packet.understood C (hown.fits (.inr hkind)) p hdata).2
    cases packet with
    | actionTaken action name =>
      refine ⟨⟨action, (hread c).1⟩, ?_⟩
      rw [(hread c).2]
      rcases hown with rfl | ⟨_, hlower⟩
      · exact .inl rfl
      · right
        rw [List.any_eq_false] at hlower ⊢
        exact fun b hb ↦ hlower b (List.takeWhile_subset _ (List.take_subset _ _ hb))
    | _ => simp at hkind

end

/-! ### Every run -/

theorem PlainHead.mono {xs ys : Bytes} (h : PlainHead ys) (hfront : xs <+: ys) :
    PlainHead xs := by
  obtain ⟨rest, rfl⟩ := hfront
  cases xs with
  | nil => simp [PlainHead]
  | cons b xs => exact h

/-- What holds in every run of honest clients: the server's tables are made of the peers, and both
directions carry what is meant. -/
structure Roster.Safe (P : Roster S Peer) (C : StringCodec S.toRakNet) (n : Net Peer) : Prop where
  int32 : n.world.server.Int32
  registered : ∀ id player, n.world.server.players.find? id = some player →
    ∃ k, P.id k = id ∧ player.name = P.stored k
  sent : ∀ k, ∀ p ∈ (n.client k).up, P.Sent C k p
  readable : ∀ k, ∀ m ∈ (n.client k).down, m.1.Readable

section
variable {C : StringCodec S.toRakNet} {P : Roster S Peer}

theorem Roster.Safe.init : P.Safe C (Net.init : Net Peer) where
  int32 id player hp := by simp [Net.init, Server.init] at hp
  registered id player hp := by simp [Net.init, Server.init] at hp
  sent k p hp := by simp [Net.init] at hp
  readable k m hm := by simp [Net.init] at hm

/-- A table of peers is small. -/
theorem Roster.Safe.size_lt {n : Net Peer} (h : P.Safe C n) :
    n.world.server.players.size < 2 ^ 31 - 1 := by
  refine (n.world.server.players.size_le_of_subset (P.all.map P.id) fun id hid ↦ ?_).trans_lt ?_
  · obtain ⟨player, hp⟩ := (n.world.server.players.mem_iff_find? id).mp hid
    obtain ⟨k, hk, _⟩ := h.registered id player hp
    exact List.mem_map.mpr ⟨k, P.mem_all k, hk⟩
  · rw [List.length_map]
    exact P.length_all

/-- Nobody's name is taken for a message. -/
theorem Roster.Safe.not_misleads {n : Net Peer} (h : P.Safe C n) (p : Packet) :
    ¬ Misleads S p n.world.server := by
  rintro ⟨_, player, hp, hmisleads⟩
  obtain ⟨k, _, hname⟩ := h.registered _ player hp
  apply hmisleads
  rw [hname]
  exact (P.name_head k).mono ((List.take_prefix _ _).trans (List.takeWhile_prefix _))

/-- A player is registered under the peer's name. -/
theorem Roster.Safe.name_eq {n : Net Peer} (h : P.Safe C n) (k : Peer) (player : Player)
    (hp : n.world.server.players.find? (P.id k) = some player) : player.name = P.stored k := by
  obtain ⟨j, hj, hname⟩ := h.registered _ player hp
  rwa [P.id_injective hj] at hname

/-- An introduction registers a peer, and nothing else changes a name. -/
theorem Roster.Safe.registered_handled {n : Net Peer} (h : P.Safe C n) {k : Peer} {p : Packet}
    (hsent : P.Sent C k p) {c : Chance} {s' : Server} {r : Except Halt Unit} {es : List Effect}
    (hhandled : Handled S c p n.world.server r s' es) (id : UInt32) (player : Player)
    (hp : s'.players.find? id = some player) : ∃ k, P.id k = id ∧ player.name = P.stored k := by
  by_cases hk : p.kind = some .cIntro
  · obtain ⟨_, rfl, _⟩ := hhandled.of_intro hk
    rw [Server.joined, OrdMap.find?_emplace] at hp
    split at hp
    · next hid =>
      obtain rfl := Option.some.inj hp
      exact ⟨k, by rw [hid.1, hsent.from.1], hsent.intro hk⟩
    · exact h.registered id player hp
  · have hname := hhandled.sameNames hk id
    rw [hp, Option.map_some, eq_comm, Option.map_eq_some_iff] at hname
    obtain ⟨old, hold, hsame⟩ := hname
    obtain ⟨k, hk, hstored⟩ := h.registered id old hold
    exact ⟨k, hk, hsame ▸ hstored⟩

/-- A player whose name has a capital letter is struck by a peer of that name only. -/
theorem Handled.name_of_struck {k : Peer} {p : Packet} {c : Chance} {s s' : Server}
    {r : Except Halt Unit} {es : List Effect} (h : Handled S c p s r s' es)
    (hsent : P.Sent C k p) {id : UInt32} {player player' : Player}
    (hp : s.players.find? id = some player) (hp' : s'.players.find? id = some player')
    (hcapital : player.name.bytes.any isUpper = true)
    (hstruck : player'.health ≠ player.health) : player.name = P.stored k := by
  have hchange := h.playersChange
  have hsame (hfind : s.players.find? id = some player') : False := by
    rw [hp, Option.some_inj] at hfind
    exact hstruck (congrArg Player.health hfind.symm)
  generalize s'.players = players at hp' hchange
  cases hchange with
  | joined hk =>
    rw [OrdMap.find?_emplace, if_neg ?_] at hp'
    · exact (hsame hp').elim
    · rintro ⟨rfl, hnew⟩
      exact hnew ((OrdMap.mem_iff_find? _ _).mpr ⟨player, hp⟩)
  | kept hno g hg =>
    rw [OrdMap.find?_mapVal, hp, Option.map_some, Option.some_inj] at hp'
    exact absurd (hp' ▸ (hg id player).2.1) hstruck
  | struck id' target diff hstrike =>
    by_cases hid : id = id'
    · subst hid
      obtain ⟨target', ht, hname⟩ := target?_eq_some S c p _ _ hstrike.target
      obtain rfl := Option.some.inj (hp.symm.trans ht)
      cases (hsent.action hstrike.kind c).2 with
      | inl hown => exact hname.trans hown
      | inr hlower => simp [hname, hlower] at hcapital
    · rw [OrdMap.find?_adjust, if_neg hid] at hp'
      exact (hsame hp').elim

/-- A client changed with what it may send and what it can read. -/
theorem Roster.Safe.set [DecidableEq Peer] {n : Net Peer} (h : P.Safe C n) (k : Peer)
    (client : Client) (hsent : ∀ p ∈ client.up, P.Sent C k p)
    (hreadable : ∀ m ∈ client.down, m.1.Readable) : P.Safe C (n.set k client) where
  int32 := h.int32
  registered := h.registered
  sent := Net.set_forall _ (fun j c ↦ ∀ p ∈ c.up, P.Sent C j p) hsent fun j _ ↦ h.sent j
  readable := Net.set_forall _ (fun _ c ↦ ∀ m ∈ c.down, m.1.Readable) hreadable
    fun j _ ↦ h.readable j

/-- Every step keeps it. -/
theorem Roster.Safe.step [DecidableEq Peer] {serve : Net Peer → Packet → Prop} {n n' : Net Peer}
    (hn : P.Safe C n) (h : Step P.toPeers (honest C P serve) n n') : P.Safe C n' := by
  cases h with
  | connect k hl => exact hn.set k _ (hn.sent k) (hn.readable k)
  | deliver k hl m rest hdown =>
    exact hn.set k _ (hn.sent k) fun m' hm' ↦
      hn.readable k m' (hdown ▸ List.mem_cons_of_mem m hm')
  | send k hl p hfrom hrule =>
    refine hn.set k _ (fun q hq ↦ ?_) (hn.readable k)
    cases List.mem_append.mp hq with
    | inl hq => exact hn.sent k q hq
    | inr hq => exact List.mem_singleton.mp hq ▸ sent_of_honest hrule hfrom
  | serve hrunning k p rest hup hrule c r s' es hexec =>
    have hhandled := handled_of_step S c p n.world r s' es hexec
    refine ⟨hhandled.int32_kept hn.int32,
      hn.registered_handled (hn.sent k p (by simp [hup])) hhandled, fun j q hq ↦ ?_,
      fun j m hm ↦ ?_⟩
    · exact hn.sent j q (Net.mem_up_of_pop hup j q (Net.mem_up_of_handled j q hq))
    · obtain ⟨pre, post, hsplit, hdown⟩ := Net.down_of_handled P.toPeers n k rest r s' es j
      rw [hdown, List.mem_append] at hm
      cases hm with
      | inl hm => exact hn.readable j m hm
      | inr hm =>
        obtain ⟨e, he, hto⟩ := List.mem_filterMap.mp hm
        have he : e ∈ es := hsplit ▸ List.mem_append_left _ he
        have hread (dest : Dest) (hact : e.act = .send dest m.1) : m.1.Readable := by
          obtain ⟨hreadable, hplain⟩ := readable_of_exec S c p n.world r s' es hexec hn.int32
            hn.size_lt e he dest m.1 hact
          exact hreadable (hplain (hn.not_misleads p))
        cases ((Effect.to?_eq_some _ e m).mp hto).1 with
        | inl hact => exact hread .all hact
        | inr hact => exact hread _ hact

end

end RRPG
