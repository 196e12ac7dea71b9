import RRPG.Base.Buffer
import RRPG.Server.Acts
import RRPG.Server.Introductions
import RRPG.Server.Operator

/-!
# Copies

The texts the server sends are built in buffers of fixed sizes, with copies that check
nothing. `BroadcastMessage` has room for whatever its callers give it. `OnClientIntro` writes
behind a name that may fill its buffer, and `OnClientChatReceived` leaves no room for the
separator and the terminator behind the longest text.
-/

open RRPG.Base RRPG.Base.Handler

namespace RRPG

/-- A copy falls inside its buffer. -/
def Act.InBounds : Act → Prop
  | .memcpy size offset count => offset + count ≤ size
  | _ => True

theorem broadcastEffects_inBounds (s : Server) (input : Bytes) (h : input.length ≤ 2047) :
    ∀ e ∈ broadcastEffects s input, e.act.InBounds := by
  unfold broadcastEffects
  split
  · simp
  · simp only [List.mem_cons, List.not_mem_nil, or_false, forall_eq_or_imp, forall_eq]
    refine ⟨?_, ?_, trivial⟩
    · show 0 + (ascii "[Server] ").length ≤ 2048 + (ascii "[Server] ").length
      omega
    · show (ascii "[Server] ").length + (input.length + 1) ≤ 2048 + (ascii "[Server] ").length
      omega

/-- `new char[size]`, filled with whatever is in memory there. -/
def newChar (memory : Nat → UInt8) (size : Nat) : Bytes := (List.range size).map memory

@[simp] theorem length_newChar (memory : Nat → UInt8) (size : Nat) :
    (newChar memory size).length = size := by
  simp [newChar]

variable (S : Setup) (memory : Nat → UInt8)

/-! ### Introductions -/

def hasJoined : Bytes := ascii " has joined."

/-- The buffer `name` in `OnClientIntro`: what `DecodeString` leaves there, then the suffix
behind it. -/
def introBuffer (name : Name) : Option Bytes :=
  (memcpy 0 (name.bytes ++ [0]) (newChar memory 256)).bind
    (memcpy name.bytes.length (hasJoined ++ [0]))

/-- The handler writes inside its buffers only, and announces what is then in `name`, which is
the decoded name and the suffix. -/
def AnnouncedInFull (c : Chance) (p : Packet) (w : World) : Prop :=
  ∃ s' es buffer,
    exec (packetHandler S c p) w = (.ok (), ⟨s', w.trace ++ es⟩) ∧
    (∀ e ∈ es, e.act.InBounds) ∧
    introBuffer memory (S.decodeString 256 p.payload).1 = some buffer ∧
    stringBefore 0 buffer = (S.decodeString 256 p.payload).1.bytes ++ hasJoined ∧
    broadcastEffects s' (stringBefore 0 buffer) <:+: es

/-- There is room for the suffix behind names of up to 243 bytes; the buffer then holds both. -/
theorem introBuffer_eq_some (name : Name) (buffer : Bytes) :
    introBuffer memory name = some buffer ↔ name.bytes.length ≤ 243 ∧
      buffer = name.bytes ++ hasJoined ++
        0 :: (newChar memory 256).drop (name.bytes.length + 13) := by
  have hlength : (name.bytes ++ (hasJoined ++ [0])).length = name.bytes.length + 13 := by
    rw [List.length_append]
    rfl
  have hroom : name.bytes.length + 13 ≤ 256 ↔ name.bytes.length ≤ 243 := by omega
  rw [introBuffer, memcpy_bind_memcpy _ _ _ _ (by decide), memcpy_zero_eq_some, hlength,
    length_newChar, hroom]
  simp [List.append_assoc]

theorem stringBefore_introBuffer (name : Name) (rest : Bytes) :
    stringBefore 0 (name.bytes ++ hasJoined ++ 0 :: rest) = name.bytes ++ hasJoined := by
  apply stringBefore_append
  rw [List.mem_append, not_or]
  exact ⟨name.nul_free, by decide⟩

/-- Of an announced name the suffix was written inside the buffer. -/
theorem AnnouncedInFull.length_le {c : Chance} {p : Packet} {w : World}
    (h : AnnouncedInFull S memory c p w) : (S.decodeString 256 p.payload).1.bytes.length ≤ 243 := by
  obtain ⟨_, _, buffer, _, _, hbuffer, _⟩ := h
  exact ((introBuffer_eq_some memory _ buffer).mp hbuffer).1

theorem joinEffects_inBounds (name : Name) (s : Server) (h : name.bytes.length ≤ 243) :
    ∀ e ∈ joinEffects S name s, e.act.InBounds := by
  have hname : (name.bytes ++ ascii " has joined.").length ≤ 2047 := by
    have hsuffix : (ascii " has joined.").length = 12 := rfl
    rw [List.length_append]
    omega
  have hwaiting : (s.waitingText S).length ≤ 2047 := by
    rw [Server.waitingText, snprintf, List.length_take]
    omega
  intro e he
  rw [joinEffects, List.mem_cons, List.mem_append] at he
  rcases he with rfl | he | he
  · show name.bytes.length + 13 ≤ 256
    omega
  · exact broadcastEffects_inBounds s _ hname e he
  · split at he
    · exact broadcastEffects_inBounds s _ hwaiting e he
    · cases he

/-- An introduction is announced in full, and within the buffers, exactly when the name it
carries has at most 243 bytes. -/
theorem announcedInFull_iff (c : Chance) (p : Packet) (w : World)
    (hk : p.kind = some .cIntro) :
    AnnouncedInFull S memory c p w ↔ (S.decodeString 256 p.payload).1.bytes.length ≤ 243 := by
  constructor
  · exact fun h ↦ h.length_le S memory
  · intro hlength
    have hbuffer := (introBuffer_eq_some memory (S.decodeString 256 p.payload).1 _).mpr
      ⟨hlength, rfl⟩
    refine ⟨_, _, _, by rw [exec_packetHandler_intro S w c p hk, exec_onClientIntro], ?_,
      hbuffer, stringBefore_introBuffer _ _, ?_⟩
    · intro e he
      rw [List.mem_append] at he
      rcases he with he | he
      · split at he
        · obtain rfl := List.mem_singleton.mp he
          trivial
        · cases he
      · exact joinEffects_inBounds S _ _ hlength e he
    · rw [stringBefore_introBuffer]
      apply List.infix_append_of_infix_right
      exact ⟨[⟨.memcpy 256 _ 13, _⟩], _, rfl⟩

/-- Client 1 sends a text of so many letters. -/
def lettered (k : RRPGId) (letters : Nat) : Packet :=
  (clientEvent 1 k.byte (List.replicate letters 97)).packet

theorem decode_lettered (k : RRPGId) (letters limit : Nat) [NeZero limit] (h : letters < limit) :
    ((Setup.plain 2).decodeString limit (lettered k letters).payload).1.bytes.length = letters := by
  have hnul : 0 ∉ List.replicate letters (97 : UInt8) := by
    intro h
    exact absurd (List.eq_of_mem_replicate h) (by decide)
  have hdecode := RakNet.plain_decodeString limit (List.replicate letters 97) hnul
    (by rwa [List.length_replicate])
  show (RakNet.plain.decodeString limit (.ofBytes (List.replicate letters 97))).1.bytes.length = _
  rw [hdecode, List.length_replicate]

/-- A name of 243 letters is announced in full. -/
theorem longName_announced :
    AnnouncedInFull (.plain 2) (fun _ ↦ 0) .least (lettered .cIntro 243) ⟨.init, []⟩ :=
  (announcedInFull_iff (.plain 2) (fun _ ↦ 0) .least (lettered .cIntro 243) ⟨.init, []⟩
    rfl).mpr (by rw [decode_lettered .cIntro 243 256 (by omega)])

/-- One letter more, and the terminator of the announcement falls outside the buffer. -/
theorem longName_overflows :
    ¬ AnnouncedInFull (.plain 2) (fun _ ↦ 0) .least (lettered .cIntro 244) ⟨.init, []⟩ := by
  intro h
  have hlength := h.length_le
  rw [decode_lettered .cIntro 244 256 (by omega)] at hlength
  omega

/-! ### Chats -/

/-- The buffer `message` in `OnClientChatReceived`, after its three copies. -/
def chatBuffer (name : Name) (cmsg : CString 2048) : Option Bytes :=
  ((memcpy 0 name.bytes (newChar memory (2048 + name.bytes.length))).bind
    (memcpy name.bytes.length (ascii ": "))).bind
      (memcpy (name.bytes.length + 2) (cmsg.bytes ++ [0]))

/-- What the handler does for the player: its copies fall inside `message`, and what it sends
of that, up to the terminator, is the name, the separator and the decoded text. -/
def RelayedInFull (c : Chance) (p : Packet) (player : Player) (w : World) : Prop :=
  let cmsg : CString 2048 := (S.decodeString 2048 p.payload).1
  ∃ copies buffer,
    exec (packetHandler S c p) w = (.ok (), ⟨w.server, w.trace ++
      (copies ++ [⟨.send .all (.text (stringBefore 0 buffer)), w.server⟩])⟩) ∧
    (∀ e ∈ copies, e.act.InBounds) ∧ chatBuffer memory player.name cmsg = some buffer ∧
    buffer.take ((stringBefore 0 buffer).length + 1) =
      player.name.bytes ++ ascii ": " ++ cmsg.bytes ++ [0]

/-- The three copies are one, for which there is room if the text has at most 2045 bytes. -/
theorem chatBuffer_eq_some (name : Name) (cmsg : CString 2048) (buffer : Bytes) :
    chatBuffer memory name cmsg = some buffer ↔ cmsg.bytes.length ≤ 2045 ∧
      buffer = name.bytes ++ ascii ": " ++ cmsg.bytes ++ 0 ::
        (newChar memory (2048 + name.bytes.length)).drop
          (name.bytes.length + 2 + (cmsg.bytes.length + 1)) := by
  have hfront : (name.bytes ++ ascii ": ").length = name.bytes.length + 2 := by
    rw [List.length_append]
    rfl
  have hlength : (name.bytes ++ ascii ": " ++ (cmsg.bytes ++ [0])).length =
      name.bytes.length + 2 + (cmsg.bytes.length + 1) := by
    rw [List.length_append, hfront, List.length_append]
    rfl
  have hroom : name.bytes.length + 2 + (cmsg.bytes.length + 1) ≤ 2048 + name.bytes.length ↔
      cmsg.bytes.length ≤ 2045 := by
    omega
  have hlast : name.bytes ++ ascii ": " ++ cmsg.bytes ++ 0 ::
      (newChar memory (2048 + name.bytes.length)).drop
        (name.bytes.length + 2 + (cmsg.bytes.length + 1)) =
      name.bytes ++ ascii ": " ++ (cmsg.bytes ++ [0]) ++
        (newChar memory (2048 + name.bytes.length)).drop
          (name.bytes.length + 2 + (cmsg.bytes.length + 1)) := by
    simp only [List.append_assoc, List.cons_append, List.nil_append]
  rw [chatBuffer, memcpy_bind_append, ← hfront, memcpy_bind_append, memcpy_zero_eq_some, hlength,
    length_newChar, hroom, hfront, hlast]

theorem stringBefore_chatBuffer (name : Name) (cmsg : CString 2048) (rest : Bytes) :
    stringBefore 0 (name.bytes ++ ascii ": " ++ cmsg.bytes ++ 0 :: rest) =
      name.bytes ++ ascii ": " ++ cmsg.bytes := by
  apply stringBefore_append
  rw [List.mem_append, List.mem_append, not_or, not_or]
  exact ⟨⟨name.nul_free, by decide⟩, cmsg.nul_free⟩

/-- Of a relayed chat the text and its terminator were written inside the buffer. -/
theorem RelayedInFull.length_le {c : Chance} {p : Packet} {player : Player} {w : World}
    (h : RelayedInFull S memory c p player w) :
    (S.decodeString 2048 p.payload).1.bytes.length ≤ 2045 := by
  obtain ⟨_, buffer, _, _, hbuffer, _⟩ := h
  exact ((chatBuffer_eq_some memory _ _ buffer).mp hbuffer).1

/-- A chat of a registered client is relayed in full, and within the buffers, exactly when
its text has at most 2045 bytes. -/
theorem relayedInFull_iff (c : Chance) (p : Packet) (player : Player) (w : World)
    (hk : p.kind = some .cChat) (hp : w.server.players.find? (S.id p) = some player) :
    RelayedInFull S memory c p player w ↔
      (S.decodeString 2048 p.payload).1.bytes.length ≤ 2045 := by
  constructor
  · exact fun h ↦ h.length_le S memory
  · intro hlength
    have hbuffer := (chatBuffer_eq_some memory player.name (S.decodeString 2048 p.payload).1 _).mpr
      ⟨hlength, rfl⟩
    refine ⟨(chatEffects player (S.decodeString 2048 p.payload).1 w.server).take 3, _, ?_, ?_,
      hbuffer, ?_⟩
    · rw [stringBefore_chatBuffer, exec_packetHandler_kind S c p w .cChat hk]
      exact exec_onClientChatReceived S w p player hp
    · intro e he
      simp only [chatEffects, List.take_succ_cons, List.take_zero, List.mem_cons,
        List.not_mem_nil, or_false] at he
      rcases he with rfl | rfl | rfl
      · show 0 + player.name.bytes.length ≤ 2048 + player.name.bytes.length
        omega
      · show player.name.bytes.length + 2 ≤ 2048 + player.name.bytes.length
        omega
      · show player.name.bytes.length + 2 + ((S.decodeString 2048 p.payload).1.bytes.length + 1) ≤
          2048 + player.name.bytes.length
        omega
    · rw [stringBefore_chatBuffer, List.append_cons, List.take_left']
      rw [List.length_append]
      rfl

/-- The client that has introduced itself as A. -/
def playerA : Player where
  name := .ofBytes 256 (ascii "A")

/-- A chat of 2045 letters is relayed in full. -/
theorem longChat_relayed : RelayedInFull (.plain 2) (fun _ ↦ 0) .least (lettered .cChat 2045)
    playerA introducedClient :=
  (relayedInFull_iff (.plain 2) (fun _ ↦ 0) .least (lettered .cChat 2045) playerA
    introducedClient rfl (by decide +kernel)).mpr
    (by rw [decode_lettered .cChat 2045 2048 (by omega)])

/-- With one letter more the terminator falls outside the buffer. -/
theorem longChat_overflows :
    introducedClient.server.players.find? ((Setup.plain 2).id (lettered .cChat 2046)) =
      some playerA ∧
    ¬ RelayedInFull (.plain 2) (fun _ ↦ 0) .least (lettered .cChat 2046) playerA
      introducedClient := by
  refine ⟨by decide +kernel, fun h ↦ ?_⟩
  have hlength := h.length_le
  rw [decode_lettered .cChat 2046 2048 (by omega)] at hlength
  omega

/-! ### Announcements -/

/-- Everything `BroadcastMessage` does with its input fits: a copy into its buffer falls
inside, and a text sent to everybody is the prefix and an input of at most 2047 bytes. -/
def Act.Fits : Act → Prop
  | .memcpy size offset count =>
    size = 2048 + (ascii "[Server] ").length → offset + count ≤ size
  | .send .all (.text message) =>
    ∃ input, message = ascii "[Server] " ++ input ∧ input.length ≤ 2047
  | _ => True

theorem Act.Standard.fits {act : Act} (h : act.Standard) : act.Fits := by
  cases h with
  | core h =>
    unfold Act.Fits
    split
    · cases h
    · cases h
    · trivial
  | suffix name =>
    intro hsize
    exact absurd hsize (by decide)
  | prefixed =>
    intro _
    omega
  | copied input h =>
    intro _
    omega
  | said input h => exact ⟨input, rfl, h⟩

theorem Standard.fits {α : Type} {x : ServerM α} (h : Standard x) (w : World) :
    ∃ es, (exec x w).2.trace = w.trace ++ es ∧ ∀ e ∈ es, e.act.Fits := by
  obtain ⟨es, htrace, hstandard⟩ := h.adds w
  exact ⟨es, htrace, fun e he ↦ (hstandard e he).fits⟩

/-- In every world, and so in every one reached, for every packet: `BroadcastMessage` has room
for what it is given, unless the packet is a chat, which is relayed without it. The same
holds for whatever the operator's console comes up with next. -/
theorem broadcasts_fit (w : World) :
    (∀ c p, ∃ es, (exec (packetHandler S c p) w).2.trace = w.trace ++ es ∧
      ((∀ e ∈ es, e.act.Fits) ∨ p.kind = some .cChat ∧ ∃ player,
        w.server.players.find? (S.id p) = some player ∧
          es = chatEffects player (S.decodeString 2048 p.payload).1 w.server)) ∧
    (∀ cin isQuitting, ∃ es, (Operator.step ⟨cin, isQuitting, w⟩).world.trace = w.trace ++ es ∧
      ∀ e ∈ es, e.act.Fits) := by
  constructor
  · intro c p
    obtain ⟨es, htrace, hperforms⟩ := packetHandler_performs S c p w
    refine ⟨es, htrace, ?_⟩
    cases hperforms with
    | standard hk es h => exact .inl fun e he ↦ (h e he).fits
    | chat hk player hp => exact .inr ⟨hk, player, hp, rfl⟩
    | list hk => exact .inl (by simp [Act.Fits])
    | stats hk => exact .inl (by simp [Act.Fits])
  · intro cin isQuitting
    cases isQuitting with
    | true => exact ⟨[], by simp [Operator.step], by simp⟩
    | false =>
      have hline := InputStream.length_getline_le newline 2048 cin
      have htext := length_stringBefore_le 0 (cin.getline newline 2048).1
      obtain ⟨es, htrace, hfits⟩ := (standard_broadcastMessage
        (stringBefore 0 (cin.getline newline 2048).1) (by omega)).fits w
      rw [exec_broadcastMessage] at htrace
      refine ⟨es, ?_, hfits⟩
      rw [Operator.step_running]
      exact htrace

end RRPG
