import CliPocket.Client.Session
import CliPocket.Crypto.Noise
import CliPocket.Daemon.Connection
import CliPocket.Lib.Steps

/-!
# A client and a daemon over one connection

The client's side of one connection and the daemon's, behind their handshake, with the frames on their way between them
in order; and the terminals with their readers, which move on their own.

- `Talk.step`: one move of one of them;
- `Talk.acks`, `Talk.accepted`, `Talk.forgotten`: what the client has been told, has passed on, and has dropped.
-/

namespace CliPocket

/-- `forgotten` are the streams that the client has dropped, and not been told of again. -/
structure Talk where
  client : ClientConn := {}
  /-- The error that ended the connection on the client's side. -/
  failed : Option ClientError := none
  toDaemon : List FrameBody := []
  toClient : List FrameBody := []
  daemon : Daemon
  acks : List OpenTerminalAck := []
  /-- Output frames the client has passed on. -/
  accepted : List StreamDataFrame := []
  forgotten : List StreamId := []

namespace Talk

inductive Move
  -- the client
  | command (cmd : SessionCommand)
  | terminalCommand (cmd : TerminalCmd)
  | ping (nonce : Nat)
  | clientRecv
  -- the task of the connection
  | daemonRecv (env : Env)
  | openStep
  | output
  | revoked
  -- the forwarders
  | receive (i : Nat)
  | enqueue (i : Nat)
  | cancel (i : Nat)
  -- the terminals, and other connections
  | terminal (id : TerminalId) (move : Daemon.TerminalMove)
  | create (params : TerminalCreateParams) (env : Env)
  | configure (scrollbackBytes : Nat)

/-! ## The client -/

/-- A frame of the client's, or the end of the connection. -/
def clientSend (s : Talk) (frame : FrameBody) : Talk :=
  if fitsNoise frame then { s with toDaemon := s.toDaemon ++ [frame] }
  else { s with failed := some (.crypto NoiseError.payloadTooLarge.toMessage) }

/-- A command is framed; the stream it drops is forgotten. -/
def ask (s : Talk) (framed : Option (ClientConn × RequestFrame)) : Option Talk :=
  framed.map fun (client, request) =>
    let dropped := if client.runtime.active.isNone then s.client.runtime.activeStream.toList else []
    clientSend { s with client, forgotten := s.forgotten ++ dropped } (.request request)

/-- What a frame that has been handled leaves behind. -/
def note (s : Talk) (frame : FrameBody) (action : Action) : Talk :=
  match frame, action with
  | .response ⟨_, .ok (.openTerminal ack)⟩, _ =>
    { s with acks := s.acks ++ [ack], forgotten := s.forgotten.filter (· ≠ ack.streamId) }
  | .streamData data, .emit _ => { s with accepted := s.accepted ++ [data] }
  | _, _ => s

def act (s : Talk) : Action → Talk
  | .send frame => s.clientSend frame
  | .return (.error e) => { s with failed := some e }
  | .return (.ok ()) => { s with failed := some .closed }
  | .emit _ | .none => s

def clientRecv (s : Talk) : Option Talk :=
  match s.toClient with
  | [] => none
  | frame :: rest =>
    match s.client.handleInboundFrame frame with
    | .error e => some { s with toClient := rest, failed := some e }
    | .ok (client, action) => some ((note { s with toClient := rest, client } frame action).act action)

/-! ## The daemon -/

/-- A frame of the daemon's, or the end of the connection, which drops its streams. -/
def daemonSend (s : Talk) (frame : FrameBody) : Talk :=
  if fitsNoise frame then { s with toClient := s.toClient ++ [frame] }
  else { s with daemon := { s.daemon with task := .closed, streams := { s.daemon.streams with map := ∅ } } }

def daemonSends (s : Talk) (frame : Option FrameBody) : Talk :=
  match frame with
  | some frame => s.daemonSend frame
  | none => s

/-- A terminal gets an identifier that no other has had. -/
def freshSpawn (d : Daemon) (env : Env) : Bool :=
  match env.spawned with
  | .ok id => (d.terminals.lookup id).isNone
  | .error _ => true

def daemonRecv (s : Talk) (env : Env) : Option Talk :=
  match s.toDaemon with
  | [] => none
  | frame :: rest =>
    if freshSpawn s.daemon env then
      (s.daemon.receiveFrame frame env).map fun (daemon, reply) =>
        daemonSends { s with daemon, toDaemon := rest } reply
    else none

/-! ## Steps -/

/-- A run ends when the client has failed its connection: what the daemon and its terminals go on to do is left out. -/
def step (s : Talk) (move : Move) : Option Talk :=
  match s.failed with
  | some _ => none
  | none =>
    match move with
    | .command cmd => s.ask (s.client.frameForSessionCommand cmd)
    | .terminalCommand cmd => s.ask (s.client.frameForCommand cmd)
    | .ping nonce => some (s.clientSend (.ping nonce))
    | .clientRecv => s.clientRecv
    | .daemonRecv env => s.daemonRecv env
    | .openStep => s.daemon.openStep.map fun (daemon, reply) =>
      daemonSends { s with daemon } (reply.map .response)
    | .output => s.daemon.output.map fun (daemon, frame) => daemonSends { s with daemon } (frame.map .streamData)
    | .revoked =>
      match s.daemon.task with
      | .select => some { s.daemonSend (.bye .revoked) with daemon := { s.daemon with task := .closed } }
      | _ => none
    | .receive i => (s.daemon.forwarderReceive i).map fun daemon => { s with daemon }
    | .enqueue i => (s.daemon.forwarderEnqueue i).map fun daemon => { s with daemon }
    | .cancel i => (s.daemon.forwarderCancel i).map fun daemon => { s with daemon }
    | .terminal id move =>
      match s.daemon.terminals.lookup id with
      | none => none
      | some t => (Daemon.moveTerminal t move).map fun t => { s with daemon := s.daemon.setTerminal id t }
    | .create params env =>
      if freshSpawn s.daemon env then
        match s.daemon.create params env with
        | .ok (daemon, _) => some { s with daemon }
        | .error _ => none
      else none
    | .configure scrollbackBytes => some { s with daemon := { s.daemon with scrollbackBytes } }

/-- A connection that has come through its handshake. -/
def new (terminals : AList fun _ : TerminalId => Terminal) (maxTerminals scrollbackBytes : Nat) : Talk where
  daemon := { terminals, maxTerminals, scrollbackBytes }

/-! ## A sample -/

/-- A terminal's identifier. -/
def sampleId (n : UInt8) : TerminalId := ⟨.splat n⟩

/-- A terminal that has just been spawned. -/
def sampleTerminal : Terminal :=
  { createdAtUnixMs := 0
    ring := (ScrollbackRing.empty 1 1 8).maybePlaceAnchor }

/-- Nothing goes wrong. -/
def sampleEnv : Env := { spawned := .error "", now := 0, killed := .ok (), resized := true, saved := .ok () }

/-- A terminal is opened. -/
def opening (n : UInt8) : List Move :=
  [.command (.openTerminal (sampleId n) 0), .daemonRecv sampleEnv, .openStep, .openStep, .openStep, .openStep, .clientRecv]

/-- One terminal. -/
def sample : Talk := new ((∅ : AList fun _ : TerminalId => Terminal).insert (sampleId 1) sampleTerminal) 8 8

/-- Its terminal has output, and the forwarder has it. -/
def outputting (n : UInt8) (bytes : List UInt8) : List Move :=
  [.terminal (sampleId n) (.push bytes), .terminal (sampleId n) .broadcast, .receive 0, .enqueue 0]

end Talk

end CliPocket
