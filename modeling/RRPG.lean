import RRPG.Base.OrdMap
import RRPG.Base.Handler
import RRPG.Base.While
import RRPG.Base.Rotation
import RRPG.Base.Buffer
import RRPG.Protocol.Identifiers
import RRPG.Protocol.Text
import RRPG.Protocol.Player
import RRPG.Protocol.RakNet
import RRPG.Server.State
import RRPG.Server.Game
import RRPG.Server.Handlers
import RRPG.Server.Primitives
import RRPG.Server.Turn
import RRPG.Server.Steps
import RRPG.Server.Packets
import RRPG.Server.Pointer
import RRPG.Server.Health
import RRPG.Server.TurnPackets
import RRPG.Server.Termination
import RRPG.Base.Interleaving
import RRPG.Server.Lobby
import RRPG.Server.Match
import RRPG.Network.Net
import RRPG.Network.Token
import RRPG.Network.OneTurn
import RRPG.Network.Restart
import RRPG.Server.HealthTable
import RRPG.Network.Replica
import RRPG.Server.Registration
import RRPG.Server.Connections
import RRPG.Server.Names
import RRPG.Server.Acts
import RRPG.Server.Texts
import RRPG.Server.TurnSpec
import RRPG.Server.Malformed
import RRPG.Server.Introductions
import RRPG.Server.Timestamp
import RRPG.Server.Operator
import RRPG.Server.Copies
import RRPG.Server.HealthSum
import RRPG.Server.Selection
import RRPG.Server.LobbyOrder
import RRPG.Base.Stream
import RRPG.Base.Lines
import RRPG.Protocol.Wire
import RRPG.Server.Tables
import RRPG.Base.Words
import RRPG.Protocol.Packing
import RRPG.Client.State
import RRPG.Client.Input
import RRPG.Client.Handlers
import RRPG.Client.Primitives
import RRPG.Client.Console
import RRPG.Client.Messages
import RRPG.Client.Discipline
import RRPG.Client.Packets
import RRPG.Client.Reports
import RRPG.Network.Honest
import RRPG.Network.System
import RRPG.Network.Orderly
import RRPG.Network.Knowledge
import RRPG.Network.Agreement
import RRPG.Network.Play
import RRPG.Network.Outcome
import RRPG.Network.Patience
