import RRPG.Server.Acts

/-!
# Texts

Texts and game messages share one channel and are told apart by the first byte only.
`BroadcastMessage` prefixes what it sends; `OnClientChatReceived` sends a chat as it is, with
the player's name in front. So a text can pass for a message of the game exactly when a
player chats whose name begins with the identifier of one.
-/

open RRPG.Base RRPG.Base.Handler

namespace RRPG

/-! ### What handlers say -/

/-- What `BroadcastMessage` puts before its input. -/
def serverPrefix : Bytes := ascii "[Server] "

/-- Neither a text without the server's prefix nor a table somebody asked for. -/
def Act.Plain : Act → Prop
  | .send _ (.text message) => serverPrefix <+: message
  | .send _ (.replyPlayerListRequest _) => False
  | .send _ (.replyPlayerStatsRequest _) => False
  | _ => True

/-- From one world to the other only plain acts are added. -/
def AddsPlain (w w' : World) : Prop :=
  ∃ es, w'.trace = w.trace ++ es ∧ ∀ e ∈ es, e.act.Plain

/-- The computation adds only plain acts. -/
abbrev Plain {α : Type} (x : ServerM α) : Prop := Within AddsPlain x

theorem plain_broadcastMessage (input : Bytes) : Plain (broadcastMessage input) := by
  intro w
  refine ⟨broadcastEffects w.server input, by simp, ?_⟩
  unfold broadcastEffects
  split
  · simp
  · simp [Act.Plain, serverPrefix]

theorem Act.Standard.plain {act : Act} (h : act.Standard) : act.Plain := by
  cases h with
  | core h =>
    unfold Act.Plain
    split
    · cases h
    · cases h
    · cases h
    · trivial
  | said input h => exact List.prefix_append _ _
  | _ => exact trivial

variable (S : Setup)

/-- What a packet makes the server add to its history: plain acts, a chat, or one of the
tables. -/
inductive Utters (p : Packet) (s : Server) : List Effect → Prop
  | plain (hk : p.kind = some .cChat → S.id p ∉ s.players) (es : List Effect)
      (h : ∀ e ∈ es, e.act.Plain) : Utters p s es
  | chat (hk : p.kind = some .cChat) (player : Player)
      (hp : s.players.find? (S.id p) = some player) (copies : List Effect)
      (hcopies : ∀ e ∈ copies, e.act.Plain) (cmsg : CString 2048) :
    Utters p s (copies ++ [⟨.send .all (.text (player.name.bytes ++ ascii ": " ++ cmsg.bytes)), s⟩])
  | list (hk : p.kind = some .cPlayerListRequest) :
    Utters p s [⟨.send (.system p.systemAddress) (.replyPlayerListRequest
      (s.players.entries.map fun e ↦ (e.2.name, e.2.ready))), s⟩]
  | stats (hk : p.kind = some .cPlayerStatsRequest) :
    Utters p s [⟨.send (.system p.systemAddress) (.replyPlayerStatsRequest
      (s.players.entries.map fun e ↦ (e.2.name, e.2.job, e.2.health))), s⟩]

/-- Every packet makes the server say one of these things. -/
theorem packetHandler_utters (c : Chance) (p : Packet) (w : World) :
    ∃ es, (exec (packetHandler S c p) w).2.trace = w.trace ++ es ∧ Utters S p w.server es := by
  obtain ⟨es, htrace, hperforms⟩ := packetHandler_performs S c p w
  refine ⟨es, htrace, ?_⟩
  cases hperforms with
  | standard hk es h => exact .plain hk es fun e he ↦ (h e he).plain
  | chat hk player hp =>
    exact .chat hk player hp ((chatEffects player _ w.server).take 3)
      (by simp [chatEffects, Act.Plain]) (S.decodeString 2048 p.payload).1
  | list hk => exact .list hk
  | stats hk => exact .stats hk

/-! ### Texts and commands -/

/-- The messages of `RRPG_ID` the server sends. -/
def RRPGId.server : List RRPGId :=
  [sGameStarted, sReplyPlayerListRequest, sBroadcastChat, sTakeTurn, sUpdateGameState,
    sUpdatePlayerHp, sReplyPlayerStatsRequest]

/-- The first byte is the identifier of a server message, and that is what a client takes
the packet for. -/
def IsCommand (message : Bytes) : Prop := ∃ k ∈ RRPGId.server, message.head? = some k.byte

instance (message : Bytes) : Decidable (IsCommand message) :=
  inferInstanceAs (Decidable (∃ k ∈ RRPGId.server, message.head? = some k.byte))

/-- No text among the effects passes for a command. -/
def TextsApart (es : List Effect) : Prop :=
  ∀ e ∈ es, ∀ dest message, e.act = .send dest (.text message) → ¬ IsCommand message

theorem textsApart_append (es fs : List Effect) :
    TextsApart (es ++ fs) ↔ TextsApart es ∧ TextsApart fs := by
  simp only [TextsApart, List.mem_append, or_imp, forall_and]

/-- What begins below the application's identifiers is no command. -/
theorem not_isCommand_of_lt (b : UInt8) (rest : Bytes) (h : b < idUserPacketEnum) :
    ¬ IsCommand (b :: rest) := by
  rintro ⟨k, -, hk⟩
  obtain rfl : b = k.byte := Option.some.inj hk
  exact absurd h (by cases k <;> decide)

/-- The server's own texts begin with a bracket. -/
theorem not_isCommand_of_prefix (message : Bytes) (h : serverPrefix <+: message) :
    ¬ IsCommand message := by
  obtain ⟨rest, rfl⟩ := h
  exact not_isCommand_of_lt 91 _ (by decide)

theorem textsApart_of_plain (es : List Effect) (h : ∀ e ∈ es, e.act.Plain) :
    TextsApart es := by
  intro e he dest message hact
  have := h e he
  rw [hact] at this
  exact not_isCommand_of_prefix message this

/-- A chat begins as the name does, and with a colon if the name is empty. -/
theorem isCommand_chat (name text : Bytes) :
    IsCommand (name ++ ascii ": " ++ text) ↔ IsCommand name := by
  cases name with
  | nil =>
    have hchat := not_isCommand_of_lt 58 (32 :: text) (by decide)
    have hempty : ¬ IsCommand [] := by decide
    exact ⟨fun h ↦ absurd h hchat, fun h ↦ absurd h hempty⟩
  | cons b rest => rfl

/-- A registered player whose name begins with an identifier chats. -/
def ChatsCommand (p : Packet) (s : Server) : Prop :=
  p.kind = some .cChat ∧ ∃ player, s.players.find? (S.id p) = some player ∧
    IsCommand player.name.bytes

variable {S}

/-- What a packet makes the server say passes for a command exactly when it is such a chat. -/
theorem Utters.textsApart_iff {p : Packet} {s : Server} {es : List Effect}
    (h : Utters S p s es) : TextsApart es ↔ ¬ ChatsCommand S p s := by
  cases h with
  | plain hk _ hplain =>
    refine ⟨fun _ hchats ↦ ?_, fun _ ↦ textsApart_of_plain es hplain⟩
    obtain ⟨hchat, player, hp, _⟩ := hchats
    exact hk hchat ((OrdMap.mem_iff_find? _ _).mpr ⟨player, hp⟩)
  | chat hk player hp copies hcopies cmsg =>
    have hchats : ChatsCommand S p s ↔ IsCommand player.name.bytes := by
      constructor
      · rintro ⟨_, player', hp', hcommand⟩
        obtain rfl := Option.some.inj (hp.symm.trans hp')
        exact hcommand
      · exact fun hcommand ↦ ⟨hk, player, hp, hcommand⟩
    rw [textsApart_append, hchats, ← isCommand_chat player.name.bytes cmsg.bytes]
    constructor
    · rintro ⟨_, happart⟩
      exact happart _ (List.mem_singleton_self _) .all _ rfl
    · intro hno
      refine ⟨textsApart_of_plain copies hcopies, ?_⟩
      rintro _ he _ _ hact
      obtain rfl := List.mem_singleton.mp he
      cases hact
      exact hno
  | list hk | stats hk =>
    refine ⟨fun _ hchats ↦ ?_, fun _ ↦ ?_⟩
    · simpa [hk] using hchats.1
    · rintro _ he _ _ hact
      obtain rfl := List.mem_singleton.mp he
      cases hact

variable (S)

/-- A client whose name is the identifier of `S_TAKE_TURN` chats. -/
def forgery : List Event :=
  [clientEvent 1 DefaultMessageId.idNewIncomingConnection.byte [],
    clientEvent 1 RRPGId.cIntro.byte [RRPGId.sTakeTurn.byte],
    clientEvent 1 RRPGId.cChat.byte (ascii "hello")]

end RRPG
