import RRPG.Protocol.Wire
import RRPG.Server.Health

/-!
# The player tables on the wire

`OnPlayerListRequest`, `OnPlayerStatsRequest` and `StartMainGame` write the players one after
the other, each with its own choice and order of fields, behind a count. A client that reads
the fields in the order in which they were written gets the table back, down to the last bit.
-/

open RRPG.Base RRPG.Base.Handler

namespace RRPG

variable {R : RakNet} (C : StringCompressor R)

/-! ### Writing and reading messages -/

/-- A record of the reply to `C_PLAYER_LIST_REQUEST`. -/
def writeListed (e : Name × Bool) : BitStream :=
  C.encodeString 256 e.1.bytes ++ BitStream.writeBool e.2

/-- A record of the reply to `C_PLAYER_STATS_REQUEST`. -/
def writeStats (e : Name × UInt8 × Int) : BitStream :=
  C.encodeString 256 e.1.bytes ++ (BitStream.ofByte e.2.1 ++ BitStream.writeInt e.2.2)

/-- A record of the table `StartMainGame` sends. -/
def writeRecord (record : PlayerRecord) : BitStream :=
  C.encodeString 256 record.name.bytes ++ (BitStream.writeInt record.health ++
    (BitStream.writeBool record.ready ++ BitStream.ofByte record.job))

/-- The stream a message is sent as. A text goes with its terminator. -/
def Message.bits : Message → BitStream
  | .text message => BitStream.ofBytes (message ++ [0])
  | .gameStarted => BitStream.ofByte RRPGId.sGameStarted.byte
  | .replyPlayerListRequest players =>
    BitStream.ofByte RRPGId.sReplyPlayerListRequest.byte ++
      (BitStream.writeInt players.length ++ players.flatMap (writeListed C))
  | .takeTurn => BitStream.ofByte RRPGId.sTakeTurn.byte
  | .updateGameState gameState none =>
    BitStream.ofByte RRPGId.sUpdateGameState.byte ++ BitStream.ofByte gameState.phase.toUInt8
  | .updateGameState gameState (some records) =>
    BitStream.ofByte RRPGId.sUpdateGameState.byte ++
      (BitStream.ofByte gameState.phase.toUInt8 ++
        (BitStream.writeInt records.length ++ records.flatMap (writeRecord C)))
  | .updatePlayerHp name health =>
    BitStream.ofByte RRPGId.sUpdatePlayerHp.byte ++
      (C.encodeString (name.bytes.length + 1) name.bytes ++ BitStream.writeInt health)
  | .replyPlayerStatsRequest players =>
    BitStream.ofByte RRPGId.sReplyPlayerStatsRequest.byte ++
      (BitStream.writeInt players.length ++ players.flatMap (writeStats C))

/-- What `OnPlayersListReceived` reads, behind the identifier: a count and so many records. -/
def readPlayersList : Field (UInt8 × List (Name × Bool)) := do
  let identifier ← byteField
  let numPlayers ← intField
  let players ← readMany (do
    let name ← nameField C
    let ready ← boolField
    return (name, ready)) numPlayers.toNat
  return (identifier, players)

/-- What `OnPlayersStatsReceived` reads, behind the identifier. -/
def readPlayersStats : Field (UInt8 × List (Name × UInt8 × Int)) := do
  let identifier ← byteField
  let numPlayers ← intField
  let players ← readMany (do
    let name ← nameField C
    let cc ← byteField
    let health ← intField
    return (name, cc, health)) numPlayers.toNat
  return (identifier, players)

/-- `OnMainGameStart`, with the identifier and the game state. -/
def readMainGame : Field (UInt8 × UInt8 × List PlayerRecord) := do
  let identifier ← byteField
  let gameState ← byteField
  let numPlayers ← intField
  let players ← readMany (do
    let name ← nameField C
    let health ← intField
    let ready ← boolField
    let job ← byteField
    return ⟨name, health, ready, job⟩) numPlayers.toNat
  return (identifier, gameState, players)

/-! ### Round trips -/

/-- An `int` on the server. -/
def InRange (n : Int) : Prop := -2 ^ 31 ≤ n ∧ n < 2 ^ 31

theorem reads_playersList (players : List (Name × Bool)) (hlength : players.length < 2 ^ 31) :
    Reads (readPlayersList C) ((Message.replyPlayerListRequest players).bits C)
      (RRPGId.sReplyPlayerListRequest.byte, players) := by
  have hrecord (e : Name × Bool) : Reads (do
      let name ← nameField C
      let ready ← boolField
      return (name, ready)) (writeListed C e) e :=
    (reads_name C e.1).bind ((reads_bool e.2).last (Reads.pure _))
  have hcount := reads_int players.length (by omega) (by omega)
  have hrecords := Reads.many (writeListed C) players fun e _ ↦ hrecord e
  exact (reads_byte _).bind (hcount.bind (hrecords.last (Reads.pure _)))

theorem reads_playersStats (players : List (Name × UInt8 × Int))
    (hlength : players.length < 2 ^ 31) (hhealth : ∀ e ∈ players, InRange e.2.2) :
    Reads (readPlayersStats C) ((Message.replyPlayerStatsRequest players).bits C)
      (RRPGId.sReplyPlayerStatsRequest.byte, players) := by
  have hrecord (e : Name × UInt8 × Int) (he : e ∈ players) : Reads (do
      let name ← nameField C
      let cc ← byteField
      let health ← intField
      return (name, cc, health)) (writeStats C e) e := by
    have hint := reads_int e.2.2 (hhealth e he).1 (hhealth e he).2
    exact (reads_name C e.1).bind ((reads_byte e.2.1).bind (hint.last (Reads.pure _)))
  have hcount := reads_int players.length (by omega) (by omega)
  have hrecords := Reads.many (writeStats C) players hrecord
  exact (reads_byte _).bind (hcount.bind (hrecords.last (Reads.pure _)))

theorem reads_mainGame (gameState : GameState) (records : List PlayerRecord)
    (hlength : records.length < 2 ^ 31) (hhealth : ∀ record ∈ records, InRange record.health) :
    Reads (readMainGame C) ((Message.updateGameState gameState (some records)).bits C)
      (RRPGId.sUpdateGameState.byte, gameState.phase.toUInt8, records) := by
  have hrecord (record : PlayerRecord) (he : record ∈ records) : Reads (do
      let name ← nameField C
      let health ← intField
      let ready ← boolField
      let job ← byteField
      return ⟨name, health, ready, job⟩) (writeRecord C record) record := by
    have hint := reads_int record.health (hhealth record he).1 (hhealth record he).2
    exact (reads_name C record.name).bind (hint.bind ((reads_bool record.ready).bind
      ((reads_byte record.job).last (Reads.pure _))))
  have hcount := reads_int records.length (by omega) (by omega)
  have hrecords := Reads.many (writeRecord C) records hrecord
  exact (reads_byte _).bind ((reads_byte _).bind (hcount.bind (hrecords.last (Reads.pure _))))

/-! ### Healths -/

/-- Every health is an `int`. -/
def Server.Int32 (s : Server) : Prop :=
  ∀ id player, s.players.find? id = some player → InRange player.health

theorem Server.Int32.of_mem {s : Server} (h : s.Int32) (e : UInt32 × Player)
    (he : e ∈ s.players.entries) : InRange e.2.health :=
  h e.1 e.2 ((OrdMap.find?_eq_some _ _ _).mpr he)

theorem Handled.int32_kept {S : Setup} {c : Chance} {p : Packet} {s s' : Server}
    {r : Except Halt Unit} {es : List Effect} (h : Handled S c p s r s' es) (hs : s.Int32) :
    s'.Int32 := by
  have hchange := h.playersChange
  unfold Server.Int32
  generalize s'.players = players at hchange ⊢
  intro id player hp
  cases hchange with
  | joined hk =>
    rw [OrdMap.find?_emplace] at hp
    split at hp
    · obtain rfl := Option.some.inj hp
      show (-2 ^ 31 : Int) ≤ 100 ∧ (100 : Int) < 2 ^ 31
      omega
    · exact hs id player hp
  | kept hno g hg =>
    rw [OrdMap.find?_mapVal, Option.map_eq_some_iff] at hp
    obtain ⟨q, hq, rfl⟩ := hp
    rw [(hg id q).2.1]
    exact hs id q hq
  | struck target q diff hstrike =>
    rw [OrdMap.find?_adjust_of_find? _ _ _ _ hstrike.find] at hp
    split at hp
    · obtain rfl := Option.some.inj hp
      exact int32_mem (q.health + diff)
    · exact hs id player hp

/-- The main game starts with the players the packet leaves. -/
theorem Handled.main_players {S : Setup} {c : Chance} {p : Packet} {s s' t : Server}
    {r : Except Halt Unit} {es : List Effect} (h : Handled S c p s r s' es)
    (ht : (.startMainGame, t) ∈ entries es) : t.players = s'.players := by
  cases h with
  | chooses hk hsender r s' es hchosen =>
    cases hchosen with
    | starts hcur hnext r s' es hturn =>
      have ht' : t = s.withPlayer (S.id p) (·.chosen p) := by
        simpa [hturn.not_entered .startMainGame] using ht
      rw [hturn.players, ht']
    | _ => simp at ht
  | starts hk hsender hall r s' es hstart => simp [hstart.entries] at ht
  | acts hk hsender id player htarget hp r s' es hturn =>
    simp [hturn.not_entered .startMainGame] at ht
  | joins hk =>
    split at ht <;> simp at ht
  | _ => simp at ht

/-- Where tables are written, every health is an `int`. -/
theorem reachable_int32 (S : Setup) (events : List Event) (s : Server)
    (hs : s = (outcome S events).2.server ∨
      (.startMainGame, s) ∈ entries (outcome S events).2.trace) : s.Int32 := by
  have hrun : (outcome S events).2.server.Int32 ∧
      ∀ t, (.startMainGame, t) ∈ entries (outcome S events).2.trace → t.Int32 := by
    apply serve_invariant S fun w ↦ w.server.Int32 ∧
      ∀ t, (.startMainGame, t) ∈ entries w.trace → t.Int32
    · intro e v v' r es hv htrace hhandled
      have hserver := hhandled.int32_kept hv.1
      refine ⟨hserver, fun t ht ↦ ?_⟩
      rw [htrace, entries_append, List.mem_append] at ht
      cases ht with
      | inl hold => exact hv.2 t hold
      | inr hnew =>
        rw [← entries_core] at hnew
        unfold Server.Int32
        rw [hhandled.main_players hnew]
        exact hserver
    · constructor
      · intro id player hp
        simp [Server.init] at hp
      · simp
  cases hs with
  | inl h => exact h ▸ hrun.1
  | inr h => exact hrun.2 s h

/-! ### What is sent -/

/-- `StartMainGame` sends the table first. -/
theorem exec_startMainGame (s : Server) (trace : List Effect) :
    ∃ r s' es, exec startMainGame ⟨s, trace⟩ = (r, ⟨s', trace ++ ⟨.enter .startMainGame, s⟩ ::
      ⟨.send .all (.updateGameState .gsMain (some s.records)),
        { s with gameState := .gsMain }⟩ :: es⟩) := by
  have hturn : exec startMainGame ⟨s, trace⟩ = exec nextTurn
      ⟨{ s with gameState := .gsMain }, trace ++ [⟨.enter .startMainGame, s⟩,
        ⟨.send .all (.updateGameState .gsMain (some s.records)),
          { s with gameState := .gsMain }⟩]⟩ := by
    simp [startMainGame, send, Server.records]
  obtain ⟨r, s', es, _, hdoes⟩ := nextTurn_does { s with gameState := .gsMain }
  obtain ⟨es', hexec, _⟩ := hdoes (trace ++ [⟨.enter .startMainGame, s⟩,
    ⟨.send .all (.updateGameState .gsMain (some s.records)), { s with gameState := .gsMain }⟩])
  rw [hturn, hexec]
  exact ⟨r, s', es', by simp⟩

/-- The player tables are lossless: in every state of a run, and where a run starts the main
game, the client's readers get every player back, in the order of the ids, and leave nothing
unread. -/
theorem tables_lossless (S : Setup) (C : StringCompressor S.toRakNet) (events : List Event)
    (s : Server) (hs : s = (outcome S events).2.server ∨
      (.startMainGame, s) ∈ entries (outcome S events).2.trace)
    (hsize : s.players.size < 2 ^ 31) (trace : List Effect) (p : Packet) :
    s.players.keys.Pairwise (· < ·) ∧
    (∃ m, exec (onPlayerListRequest p) ⟨s, trace⟩ =
        (.ok (), ⟨s, trace ++ [⟨.send (.system p.systemAddress) m, s⟩]⟩) ∧
      (readPlayersList C).run (m.bits C) = some ((RRPGId.sReplyPlayerListRequest.byte,
        s.players.entries.map fun e ↦ (e.2.name, e.2.ready)), [])) ∧
    (∃ m, exec (onPlayerStatsRequest p) ⟨s, trace⟩ =
        (.ok (), ⟨s, trace ++ [⟨.send (.system p.systemAddress) m, s⟩]⟩) ∧
      (readPlayersStats C).run (m.bits C) = some ((RRPGId.sReplyPlayerStatsRequest.byte,
        s.players.entries.map fun e ↦ (e.2.name, e.2.job, e.2.health)), [])) ∧
    ∃ m r s' es, exec startMainGame ⟨s, trace⟩ = (r, ⟨s', trace ++ ⟨.enter .startMainGame, s⟩ ::
        ⟨.send .all m, { s with gameState := .gsMain }⟩ :: es⟩) ∧
      (readMainGame C).run (m.bits C) = some ((RRPGId.sUpdateGameState.byte,
        GameState.gsMain.phase.toUInt8,
        s.players.entries.map fun e ↦ ⟨e.2.name, e.2.health, e.2.ready, e.2.job⟩), []) := by
  have hint := reachable_int32 S events s hs
  refine ⟨s.players.keys_sorted, ?_, ?_, ?_⟩
  · have hreads := reads_playersList C (s.players.entries.map fun e ↦ (e.2.name, e.2.ready))
      (by rwa [List.length_map])
    exact ⟨_, exec_onPlayerListRequest p ⟨s, trace⟩, hreads.run_eq⟩
  · have hhealth : ∀ e ∈ s.players.entries.map fun e ↦ (e.2.name, e.2.job, e.2.health),
        InRange e.2.2 := by
      intro e he
      obtain ⟨e', he', rfl⟩ := List.mem_map.mp he
      exact hint.of_mem e' he'
    have hreads := reads_playersStats C _ (by rwa [List.length_map]) hhealth
    exact ⟨_, exec_onPlayerStatsRequest p ⟨s, trace⟩, hreads.run_eq⟩
  · have hhealth : ∀ record ∈ s.records, InRange record.health := by
      intro record hrecord
      obtain ⟨e, he, rfl⟩ := List.mem_map.mp hrecord
      exact hint.of_mem e he
    have hreads := reads_mainGame C .gsMain s.records
      (by rwa [Server.records, List.length_map]) hhealth
    obtain ⟨r, s', es, hexec⟩ := exec_startMainGame s trace
    exact ⟨_, r, s', es, hexec, hreads.run_eq⟩

/-- A server with the library that sends lengths. -/
def Setup.counted (expectedPlayers : UInt32) : Setup :=
  { RakNet.counted with expectedPlayers := expectedPlayers }

/-- Two clients introduce themselves under their names, the second one first. -/
def introductions : List Event :=
  [clientEvent 2 RRPGId.cIntro.byte ([0, 0, 0, 3] ++ ascii "Bob"),
    clientEvent 1 RRPGId.cIntro.byte ([0, 0, 0, 2] ++ ascii "Al")]

/-- The first client asks for the players. -/
theorem introductions_listed :
    let s := (outcome (.counted 2) introductions).2.server
    let p := (clientEvent 1 RRPGId.cPlayerListRequest.byte []).packet
    ∃ m, exec (onPlayerListRequest p) ⟨s, []⟩ =
        (.ok (), ⟨s, [⟨.send (.system p.systemAddress) m, s⟩]⟩) ∧
      (readPlayersList StringCompressor.counted).run (m.bits .counted) =
        some ((RRPGId.sReplyPlayerListRequest.byte, [(⟨ascii "Al", by decide, by decide⟩, false),
          (⟨ascii "Bob", by decide, by decide⟩, false)]), []) := by
  intro s p
  obtain ⟨m, hexec, hread⟩ := (tables_lossless (.counted 2) .counted introductions s (.inl rfl)
    (by decide +kernel) [] p).2.1
  refine ⟨m, hexec, ?_⟩
  have hentries : (s.players.entries.map fun e ↦ (e.2.name, e.2.ready)) =
      [(⟨ascii "Al", by decide, by decide⟩, false),
        (⟨ascii "Bob", by decide, by decide⟩, false)] := by
    decide +kernel
  rw [hentries] at hread
  exact hread

end RRPG
