import RRPG.Client.Messages
import RRPG.Network.Replica
import RRPG.Server.Texts

/-!
# What a server says, a client understands

Every message a server sends in a run can be read as it is meant, except a chat of a player
whose name begins with a byte the client has a case for.
-/

open RRPG.Base RRPG.Base.Handler

namespace RRPG

/-- Every message among the effects is read as it is meant. -/
def AllReadable (es : List Effect) : Prop :=
  ∀ e ∈ es, ∀ dest message, e.act = .send dest message → message.Readable

section
variable {S : Setup} {c : Chance} {p : Packet} {s s' : Server} {r : Except Halt Unit}
  {es : List Effect}

theorem NextTurnDoes.readable (h : NextTurnDoes s r s' es) : AllReadable es := by
  cases h with
  | ends => simp [AllReadable, Message.Readable]
  | passes => simp [AllReadable, Message.Readable]
  | _ => simp [AllReadable]

theorem StartGameDoes.readable (h : StartGameDoes s r s' es) : AllReadable es := by
  cases h <;> simp [AllReadable, Message.Readable]

/-- The table of a server with few enough players. -/
theorem Server.Int32.readable (h : s.Int32) (hsize : s.players.size < 2 ^ 31) :
    (Message.updateGameState .gsMain (some s.records)).Readable := by
  refine ⟨rfl, by rwa [Server.records, List.length_map], fun record hrecord ↦ ?_⟩
  obtain ⟨e, he, rfl⟩ := List.mem_map.mp hrecord
  exact h.of_mem e he

theorem ChosenDoes.readable (h : ChosenDoes s r s' es) (hint : s.Int32)
    (hsize : s.players.size < 2 ^ 31) : AllReadable es := by
  cases h with
  | passes => simp [AllReadable, Message.Readable]
  | starts hcur hnext r s' es hturn =>
    have htable := hint.readable hsize
    have hrest := hturn.readable
    unfold AllReadable at hrest ⊢
    simpa [htable] using hrest
  | _ => simp [AllReadable]

theorem Server.Int32.withPlayer (h : s.Int32) (id : UInt32) (f : Player → Player)
    (hf : ∀ player, (f player).health = player.health) : (s.withPlayer id f).Int32 := by
  intro j player hp
  rw [Server.withPlayer_players, OrdMap.find?_adjust] at hp
  split at hp
  · obtain ⟨q, hq, rfl⟩ := Option.map_eq_some_iff.mp hp
    rw [hf q]
    exact h j q hq
  · exact h j player hp

/-- What a packet makes the game send. -/
theorem Handled.readable (h : Handled S c p s r s' es) (hint : s.Int32)
    (hsize : s.players.size < 2 ^ 31) : AllReadable es := by
  cases h with
  | joins hk =>
    split <;> simp [AllReadable]
  | starts hk hsender hall r s' es hstart => exact hstart.readable
  | chooses hk hsender r s' es hchosen =>
    apply hchosen.readable (hint.withPlayer _ _ fun _ ↦ rfl)
    rwa [Server.withPlayer_players, ← OrdMap.length_keys, OrdMap.keys_adjust,
      OrdMap.length_keys]
  | acts hk hsender id player htarget hp r s' es hturn =>
    have hreport : AllReadable (actionReport S c p s id player) := by
      unfold actionReport
      split
      · simp [AllReadable]
      · next diff hdiff =>
        have := int32_mem (player.health + diff)
        simpa [AllReadable, Message.Readable, InRange, Player.struck] using this
    have hrest := hturn.readable
    unfold AllReadable at hreport hrest ⊢
    simp only [List.mem_append, List.mem_cons]
    rintro e (he | rfl | he)
    · exact hreport e he
    · simp
    · exact hrest e he
  | _ => simp [AllReadable]

/-! ### Texts and tables -/

/-- A text whose first byte, if there is one, means nothing to the client. -/
def PlainHead (text : Bytes) : Prop := ∀ b ∈ text.head?, GameClient.hasCase b = false

instance (text : Bytes) : Decidable (PlainHead text) :=
  inferInstanceAs (Decidable (∀ b ∈ text.head?, GameClient.hasCase b = false))

/-- A message that is not taken for another one. -/
def Message.Unmistakable : Message → Prop
  | .text message => PlainHead message
  | _ => True

/-- The packet is a chat of a player whose name the client takes for something else. -/
def Misleads (S : Setup) (p : Packet) (s : Server) : Prop :=
  p.kind = some .cChat ∧ ∃ player, s.players.find? (S.id p) = some player ∧
    ¬ PlainHead player.name.bytes

theorem plainHead_of_prefix (message : Bytes) (h : serverPrefix <+: message) :
    PlainHead message ∧ message ≠ [] := by
  obtain ⟨rest, rfl⟩ := h
  refine ⟨fun b hb ↦ ?_, by simp [serverPrefix, ascii]⟩
  obtain rfl : 91 = b := Option.some.inj hb
  decide

/-- A chat begins as the name does, and with a colon if the name is empty. -/
theorem plainHead_chat (name text : Bytes) (h : PlainHead name) :
    PlainHead (name ++ ascii ": " ++ text) := by
  cases name with
  | nil =>
    intro b hb
    obtain rfl : 58 = b := Option.some.inj hb
    decide
  | cons b rest => exact h

theorem PlainHead.readable {message : Bytes} (h : PlainHead message) (hne : message ≠ []) :
    (Message.text message).Readable := by
  cases message with
  | nil => exact absurd rfl hne
  | cons b rest => exact ⟨b, rest, rfl, h b rfl⟩

/-- The texts and the tables a packet makes the server send. -/
theorem Utters.readable (h : Utters S p s es) (hint : s.Int32)
    (hsize : s.players.size < 2 ^ 31 - 1) (e : Effect) (he : e ∈ es) (dest : Dest)
    (message : Message) (hact : e.act = .send dest message) (hcore : e.act.isCore = false) :
    (message.Unmistakable → message.Readable) ∧
      (¬ Misleads S p s → message.Unmistakable) := by
  have hplain (h : e.act.Plain) : (message.Unmistakable → message.Readable) ∧
      (¬ Misleads S p s → message.Unmistakable) := by
    rw [hact] at h hcore
    cases message with
    | text message =>
      obtain ⟨hhead, hne⟩ := plainHead_of_prefix message h
      exact ⟨fun _ ↦ hhead.readable hne, fun _ ↦ hhead⟩
    | replyPlayerListRequest _ | replyPlayerStatsRequest _ => exact h.elim
    | _ => cases hcore
  cases h with
  | plain _ _ h => exact hplain (h e he)
  | chat hk player hp copies hcopies cmsg =>
    cases List.mem_append.mp he with
    | inl he => exact hplain (hcopies e he)
    | inr he =>
      obtain rfl := List.mem_singleton.mp he
      cases hact
      refine ⟨fun h ↦ PlainHead.readable h (by simp [ascii]), fun hmisleads ↦ ?_⟩
      apply plainHead_chat
      by_contra hname
      exact hmisleads ⟨hk, player, hp, hname⟩
  | list =>
    obtain rfl := List.mem_singleton.mp he
    cases hact
    refine ⟨fun _ ↦ ?_, fun _ ↦ trivial⟩
    show (s.players.entries.map _).length < 2 ^ 31 - 1
    rwa [List.length_map]
  | stats =>
    obtain rfl := List.mem_singleton.mp he
    cases hact
    refine ⟨fun _ ↦ ⟨by rwa [List.length_map], fun record hrecord ↦ ?_⟩, fun _ ↦ trivial⟩
    obtain ⟨e, he, rfl⟩ := List.mem_map.mp hrecord
    exact hint.of_mem e he

end

/-! ### Runs -/

variable (S : Setup)

/-- What a packet makes the server send can be read, unless it is mistaken for something else;
and it is not, unless the packet misleads. -/
theorem readable_of_exec (c : Chance) (p : Packet) (w : World) (r : Except Halt Unit)
    (s' : Server) (es : List Effect)
    (h : exec (packetHandler S c p) w = (r, ⟨s', w.trace ++ es⟩)) (hint : w.server.Int32)
    (hsize : w.server.players.size < 2 ^ 31 - 1) (e : Effect) (he : e ∈ es) (dest : Dest)
    (message : Message) (hact : e.act = .send dest message) :
    (message.Unmistakable → message.Readable) ∧
      (¬ Misleads S p w.server → message.Unmistakable) := by
  have hhandled := handled_of_step S c p w r s' es h
  obtain ⟨es', htrace, hutters⟩ := packetHandler_utters S c p w
  rw [h] at htrace
  obtain rfl := List.append_cancel_left htrace
  cases hcore : e.act.isCore with
  | false => exact hutters.readable hint hsize e he dest message hact hcore
  | true =>
    have hmem : e ∈ core es := List.mem_filter.mpr ⟨he, hcore⟩
    have hsize : w.server.players.size < 2 ^ 31 := by omega
    refine ⟨fun _ ↦ hhandled.readable hint hsize e hmem dest message hact, fun _ ↦ ?_⟩
    rw [hact] at hcore
    cases message with
    | text _ => cases hcore
    | _ => trivial

/-- What holds after a run of so many packets: healths are `int`s, every player has sent one of
the packets, and all messages sent can be read. -/
structure Spoken (events : List Event) (w : World) : Prop where
  int32 : w.server.Int32
  senders : w.server.players.keys ⊆ events.map fun e ↦ S.id e.packet
  readable : events.length < 2 ^ 31 → ∀ e ∈ w.trace, ∀ dest message,
    e.act = .send dest message → message.Unmistakable → message.Readable

theorem spoken_outcome (events : List Event) : Spoken S events (outcome S events).2 := by
  refine run_history _ (Spoken S) _ ⟨?_, ?_, ?_⟩ ?_ ?_ events
  · intro id player hp
    simp [Server.init] at hp
  · simp [Server.init]
  · simp
  · intro events e w h
    rcases hexec : exec (packetHandler S e.chance e.packet) w with ⟨r, ⟨s', trace⟩⟩
    obtain ⟨es, rfl, hhandled⟩ := handled_of_exec S e.chance e.packet w _ r hexec
    refine ⟨hhandled.int32_kept h.int32, ?_, ?_⟩
    · intro id hid
      rw [List.map_append, List.mem_append]
      cases hhandled.mem_players id hid with
      | inl hid => exact .inl (h.senders hid)
      | inr hid => exact .inr (by simp [hid])
    · intro hshort e' he' dest message hact hm
      rw [List.length_append, List.length_singleton] at hshort
      have hsize := w.server.players.size_le_of_subset _ h.senders
      rw [List.length_map] at hsize
      cases List.mem_append.mp he' with
      | inl he' => exact h.readable (by omega) e' he' dest message hact hm
      | inr he' => exact (readable_of_exec S e.chance e.packet w r s' es hexec h.int32 (by omega) e'
          he' dest message hact).1 hm
  · intro events e w h
    refine ⟨h.int32, ?_, fun hshort ↦ h.readable ?_⟩
    · rw [List.map_append]
      exact List.subset_append_of_subset_left _ h.senders
    · rw [List.length_append] at hshort
      omega

/-- Whatever packets a server has met, a client makes of every message sent what it means,
unless it is a chat that begins like something else: the state it is in changes by the message
alone, and the message is what it prints. -/
theorem messages_understood (C : StringCodec S.toRakNet) (events : List Event)
    (hshort : events.length < 2 ^ 31) (e : Effect) (he : e ∈ (outcome S events).2.trace)
    (dest : Dest) (message : Message) (hact : e.act = .send dest message)
    (hm : message.Unmistakable) (p : Packet)
    (hp : p.data = (message.bits C.toStringCompressor).pack) (locals : Locals) (s : GameClient)
    (before : List ClientAct) :
    exec (GameClient.packetHandler C.toStringCompressor locals p) ⟨s, before⟩ =
      (.ok (), ⟨s.heard message, before ++ (s.shown message).map .print⟩) :=
  GameClient.performs_message C locals s message
    ((spoken_outcome S events).readable hshort e he dest message hact hm) hp before

/-- The two of `introductions` are listed. -/
def listed : List Event :=
  introductions ++ [clientEvent 1 RRPGId.cPlayerListRequest.byte []]

/-- The first of them reads the list. -/
theorem listed_printed :
    let client : GameClient := ⟨.nsLobby, 0, { name := ascii "Al" }, [], false⟩
    let p : Packet := ⟨⟨0, 60000⟩, ⟨0⟩, ((Message.replyPlayerListRequest
      [(⟨ascii "Al", by decide, by decide⟩, false),
        (⟨ascii "Bob", by decide, by decide⟩, false)]).bits StringCompressor.counted).pack,
      by decide +kernel⟩
    exec (GameClient.packetHandler StringCompressor.counted ⟨0, true, 0, 0⟩ p) ⟨client, []⟩ =
      (.ok (), ⟨client, [.print (ascii "1. Al | Not Ready\n"),
        .print (ascii "2. Bob | Not Ready\n")]⟩) := by
  intro client p
  have hmem : Act.send (.system ⟨1, 60000⟩) (.replyPlayerListRequest
      [(⟨ascii "Al", by decide, by decide⟩, false), (⟨ascii "Bob", by decide, by decide⟩, false)]) ∈
      (outcome (.counted 2) listed).2.trace.map Effect.act := by
    decide +kernel
  obtain ⟨e, he, hact⟩ := List.mem_map.mp hmem
  have h := messages_understood (.counted 2) .counted listed (by decide) e he _ _ hact trivial p rfl
    ⟨0, true, 0, 0⟩ client []
  have htexts : client.shown (.replyPlayerListRequest
      [(⟨ascii "Al", by decide, by decide⟩, false), (⟨ascii "Bob", by decide, by decide⟩, false)]) =
      [ascii "1. Al | Not Ready\n", ascii "2. Bob | Not Ready\n"] := by
    decide +kernel
  rw [htexts, List.map_cons, List.map_cons, List.map_nil, List.nil_append] at h
  exact h

end RRPG
