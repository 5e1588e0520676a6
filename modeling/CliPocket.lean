import CliPocket.Lib.Steps
import CliPocket.Lib.VteSequences
import CliPocket.Daemon.Config
import CliPocket.Daemon.PairBridges
import CliPocket.Daemon.Pairing
import CliPocket.Daemon.PairingLink
import CliPocket.Daemon.Reload
import CliPocket.Daemon.Revocation
import CliPocket.Lib.Utf8
import CliPocket.Lib.Wire
import CliPocket.Lib.Postcard
import CliPocket.Lib.PostcardReader
import CliPocket.Lib.Reader
import CliPocket.Proto.Relay
import CliPocket.Relay.Transparency
import CliPocket.Daemon.RelayDialer
import CliPocket.Proto.Codec
import CliPocket.Proto.Decode
import CliPocket.Pty.Anchors
import CliPocket.Pty.Prefix
import CliPocket.Client.Retry
import CliPocket.Client.Exchange
import CliPocket.Stream.Known
import CliPocket.Stream.Secure
import CliPocket.Stream.Paging
import CliPocket.App.Output
import CliPocket.App.PairingOffer
import CliPocket.App.Workspace
import CliPocket.App.TerminalList
import CliPocket.App.Connections
import CliPocket.App.TauriSession
import CliPocket.App.SessionActor
import CliPocket.Stream.Replies
import CliPocket.Relay.Language
import CliPocket.Relay.Cleanup
import CliPocket.Pty.Invisible
import CliPocket.Pty.CursorReports
import CliPocket.Daemon.SessionManager
import CliPocket.Client.Batching
import CliPocket.Daemon.ServerConfig
import CliPocket.Relay.Guillotine
import CliPocket.Relay.Caps
import CliPocket.Relay.PairTable
import CliPocket.Stream.Attach
import CliPocket.Stream.Paced
import CliPocket.Stream.Discipline
import CliPocket.Stream.Cursor
import CliPocket.Stream.Pipeline
import CliPocket.Stream.ExactlyOnce
import CliPocket.Stream.Pieces
import CliPocket.Lib.Checked
import CliPocket.Client.Reconnect
import CliPocket.Relay.Registry
import CliPocket.App.EventQueue
import CliPocket.Lib.Retry
import CliPocket.Relay.Tickets
import CliPocket.App.DaemonRegistry
import CliPocket.Pty.Colors
import CliPocket.Pty.Screen
import CliPocket.Stream.Limits
import CliPocket.Daemon.Spawn
import CliPocket.Daemon.ClientStore
import CliPocket.Daemon.Resume
import CliPocket.Daemon.Redial
import CliPocket.Client.Heartbeat
import CliPocket.Client.IdentityJson
import CliPocket.App.KvStore
import CliPocket.Client.EventSlot
import CliPocket.Client.Events
import CliPocket.Lib.Ordered
import CliPocket.Lib.Utf8Pieces
import CliPocket.App.TerminalReplica
import CliPocket.App.TerminalController
import CliPocket.App.Redraw
import CliPocket.App.Holding
import CliPocket.Proto.RenderText
import CliPocket.Daemon.Identity
import CliPocket.Daemon.PairWriters
import CliPocket.Daemon.PairDuplex
import CliPocket.Daemon.RelayPath
