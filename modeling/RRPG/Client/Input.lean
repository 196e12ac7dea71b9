import RRPG.Base.Words
import RRPG.Client.State

/-!
# The client's console

`RRPG::InputHandler` on one line, and what it calls (`RRPG/RRPG.cpp`). Lines are compared in
lower case; a chat is sent as it was typed.
-/

open RRPG.Base

namespace RRPG

/-- `tolower`, which leaves bytes that are no capital letters alone. -/
def tolower (b : UInt8) : UInt8 := if 65 ≤ b ∧ b ≤ 90 then b + 32 else b

/-- `isspace`, which separates the strings read from a stream. -/
def isspace (b : UInt8) : Bool := b = 32 ∨ 9 ≤ b ∧ b ≤ 13

/-- The class a line chooses. -/
def CharacterClass.ofInput? (input : Bytes) : Option CharacterClass :=
  if input = ascii ".1" ∨ input = ascii ".wizard" then some .wizard
  else if input = ascii ".2" ∨ input = ascii ".warrior" then some .warrior
  else if input = ascii ".3" ∨ input = ascii ".assassin" then some .assassin
  else none

/-- The action the first word of a line takes. -/
def Action.ofInput? (word : Bytes) : Option Action :=
  if word = ascii ".1" ∨ word = ascii ".heal" then some .heal
  else if word = ascii ".2" ∨ word = ascii ".healrng" then some .healRng
  else if word = ascii ".3" ∨ word = ascii ".atk" then some .attack
  else if word = ascii ".4" ∨ word = ascii ".atkrng" then some .atkRng
  else none

namespace GameClient

/-- `RRPG::Ready`. -/
def ready : ClientM Unit := do
  update fun s ↦ { s with player := { s.player with ready := true } }
  send (BitStream.ofByte RRPGId.cReady.byte)

/-- `RRPG::Unready`. -/
def unready : ClientM Unit := do
  update fun s ↦ { s with player := { s.player with ready := false } }
  send (BitStream.ofByte RRPGId.cUnready.byte)

/-- `RRPG::RequestPlayersFromServer`. -/
def requestPlayersFromServer : ClientM Unit :=
  send (BitStream.ofByte RRPGId.cPlayerListRequest.byte)

/-- `RRPG::RequestPlayerStatsFromServer`. -/
def requestPlayerStatsFromServer : ClientM Unit :=
  send (BitStream.ofByte RRPGId.cPlayerStatsRequest.byte)

/-- A line about a player's health. -/
def statsText (name : Bytes) (job : UInt8) (health : Int) : Bytes :=
  name ++ ascii " The " ++ getStringFromClass job ++ ascii " has " ++ formatInt health ++
    ascii " health\n"

/-- `RRPG::PrintLocalPlayerStats`. -/
def printLocalPlayerStats : ClientM Unit := do
  print (ascii "Local player stats:\n")
  let s ← getClient
  s.players.forM fun player ↦ print (statsText player.name player.job player.health)

/-- `RRPG::HandleLobbyInput`. -/
def handleLobbyInput (input : Bytes) : ClientM Bool := do
  if input = ascii ".ready" then do
    ready
    return true
  else if input = ascii ".notready" then do
    unready
    return true
  else if input = ascii ".players" then do
    requestPlayersFromServer
    return true
  else return false

variable {R : RakNet} (C : StringCompressor R)

/-- The player an action is aimed at: the client itself, or a living player of that name. -/
def target? (s : GameClient) (word : Bytes) : Option Bytes :=
  if word = ascii "me" then some s.player.name
  else if s.players.any fun p ↦ p.name = word ∧ p.dead = false then some word
  else none

/-- What `HandleGameInput` writes on its stream; nothing where it returns `false`. In other
states of the game the stream stays empty. -/
def gameInput? (s : GameClient) (input : Bytes) : Option BitStream :=
  if s.gameState = GameState.gsCharacterSelect.byte then
    (CharacterClass.ofInput? input).map fun cc ↦
      BitStream.ofByte RRPGId.cJobChosen.byte ++ BitStream.ofByte cc.byte
  else if s.gameState = GameState.gsMain.byte then
    match words isspace input with
    | command :: word :: _ =>
      (Action.ofInput? command).bind fun action ↦ (s.target? word).map fun name ↦
        BitStream.ofByte RRPGId.cActionTaken.byte ++
          (BitStream.ofByte action.byte ++ writeString C name)
    | _ => none
  else some []

/-- `RRPG::HandleGameInput`. -/
def handleGameInput (input : Bytes) : ClientM Bool := do
  match (← getClient).gameInput? C input with
  | none => return false
  | some bs => do
    update fun s ↦ { s with myTurn := false }
    send bs
    return true

/-- The commands `RRPG::InputHandler` tries, and whether the line is left to be sent as a chat
(`sendAsChatMessage`). -/
def sendAsChatMessage (lower : Bytes) : ClientM Bool := do
  let s ← getClient
  if s.networkState = .nsLobby then do
    return !(← handleLobbyInput lower)
  else if s.networkState = .nsGameStarted then
    if lower = ascii ".stats" then do
      requestPlayerStatsFromServer
      return false
    else if lower = ascii ".localstats" then do
      printLocalPlayerStats
      return false
    else if s.myTurn = true then do
      return !(← handleGameInput C lower)
    else return false
  else return false

/-- `RRPG::InputHandler` on one line. -/
def inputHandler (userInput : Bytes) : ClientM Unit := do
  let lower := userInput.map tolower
  if lower = ascii ".whoami" then
    print ((← getClient).player.name ++ ascii "\n")
  else if (← sendAsChatMessage C lower) = true ∧ userInput ≠ [] then
    if lower.head? = some 46 then do
      print (ascii "Whoops! Try again!\n")
      printInstructions
    else
      send (BitStream.ofByte RRPGId.cChat.byte ++ writeString C userInput)

end GameClient

end RRPG
