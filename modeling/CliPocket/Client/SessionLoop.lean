import CliPocket.Client.Session
import CliPocket.Crypto.Noise

/-!
# The loop of a client session

`run_session_loop` with `run_one_connection` and `recv_with_heartbeat`, from wait to wait. What the task does between
two waits is one move; its callers, the clock and the transport move while it waits.

- `Session.callerStep`: calls of a session and of its terminal handles;
- `Session.loopStep`, `Session.setupStep`: the attempts to connect and the retries;
- `Session.connStep`: a live connection;
- `Session.finish`: how the end of a connection is taken.
-/

namespace CliPocket

open Saturating (u64Max)

/-! ## Errors -/

/-- `Debug`. -/
def ProtocolError.debug : ProtocolError → String
  | .unknownTerminal => "UnknownTerminal"
  | .unauthorized => "Unauthorized"
  | .backpressureExceeded => "BackpressureExceeded"
  | .protocolMismatch => "ProtocolMismatch"
  | .resourceExhausted => "ResourceExhausted"
  | .invalidParam message => "InvalidParam(" ++ message.quote ++ ")"
  | .resumeStale => "ResumeStale"
  | .rateLimited => "RateLimited"
  | .other message => "Other(" ++ message.quote ++ ")"

/-- `Debug`. -/
def ByeReason.debug : ByeReason → String
  | .normal => "Normal"
  | .revoked => "Revoked"
  | .serverShutdown => "ServerShutdown"
  | .protocolError error => "ProtocolError(" ++ error.debug ++ ")"

/-- `Display`. -/
def ClientError.toMessage : ClientError → String
  | .transport message => "transport: " ++ message
  | .crypto message => "crypto: " ++ message
  | .proto message => "proto: " ++ message
  | .identity message => "identity store: " ++ message
  | .rejected reason => "rejected: " ++ reason.debug
  | .notConnected => "not connected"
  | .noTerminal => "terminal not attached"
  | .closed => "backend closed"
  | .connectTimeout timeoutMs => "connection timed out after " ++ toString timeoutMs ++ "ms"
  | .internal message => "internal: " ++ message

def shouldRetryAfterDisconnect : ClientError → Bool
  | .rejected _ | .closed => false
  | _ => true

/-! ## The heartbeat -/

def heartbeatIdleMs : Nat := 10000

def heartbeatTimeoutMs : Nat := 30000

def connectAttemptTimeoutMs : Nat := 15000

def heartbeatTimeout : ClientError := .transport "heartbeat timeout"

structure HeartbeatState where
  lastInboundAtMs : Nat
  pingOutstanding : Bool := false
  deriving DecidableEq

inductive HeartbeatPoll
  | sendPing (nonce : Nat)
  | timeout
  | wait

namespace HeartbeatState

def onInbound (_ : HeartbeatState) (nowMs : Nat) : HeartbeatState := { lastInboundAtMs := nowMs }

/-- `poll`, where the random bytes make `nonce`. -/
def poll (h : HeartbeatState) (nowMs nonce : Nat) : HeartbeatState × HeartbeatPoll :=
  let elapsedMs := nowMs - h.lastInboundAtMs
  if h.pingOutstanding then
    if heartbeatTimeoutMs ≤ elapsedMs then (h, .timeout) else (h, .wait)
  else if heartbeatIdleMs ≤ elapsedMs then ({ h with pingOutstanding := true }, .sendPing nonce)
  else (h, .wait)

theorem poll_cases (h : HeartbeatState) (nowMs nonce : Nat) :
    h.poll nowMs nonce = ({ h with pingOutstanding := true }, .sendPing nonce) ∨
      h.poll nowMs nonce = (h, .timeout) ∨ h.poll nowMs nonce = (h, .wait) := by
  unfold poll
  dsimp only
  split_ifs
  · exact .inr (.inl rfl)
  · exact .inr (.inr rfl)
  · exact .inl rfl
  · exact .inr (.inr rfl)

end HeartbeatState

/-! ## State -/

/-- What a connection has sealed, and what it has handed to its transport. -/
structure Link where
  noise : NoiseSession := {}
  encrypted : List Ciphertext := []
  handed : List Ciphertext := []

/-- How far the future of `recv_with_heartbeat` has come. -/
inductive RecvFuture
  | start
  /-- It awaits `transport.send` for a ping. -/
  | pinging (ciphertext : Ciphertext)
  | receiving
  /-- It awaits `transport.close`, after the time-out. -/
  | closing

/-- What is left to do when `transport.send` is through. -/
inductive AfterSend
  | nothing
  | popCmd
  | popSessionCmd

/-- What a live connection waits for. -/
inductive Wait
  | top
  | sending (ciphertext : Ciphertext) (after : AfterSend)
  | selecting (recv : RecvFuture)
  | batching (cmd : TerminalCmd) (deferred : List TerminalCmd)
  | emitting

structure Connection where
  heartbeat : HeartbeatState
  wait : Wait := .top
  /-- The ping that is outstanding. -/
  ping : Option Ciphertext := none

/-- How far `establish_session` has come. -/
inductive Setup
  | handshaking
  | helloing (ciphertext : Ciphertext)
  | awaitingReply

inductive SessionPhase
  | starting
  | announcing
  | connecting
  | setup (setup : Setup)
  | greeting
  | connected (connection : Connection)
  /-- `transport.close` is awaited, and then the connection ends with the error. -/
  | closing (reached : Bool) (error : ClientError)
  | reporting (willRetry checkStop : Bool)
  | backingOff
  | ended

structure Session where
  resumeToken : Option ResumeToken := none
  stopRequested : Bool := false
  /-- Every clone of the session is gone. -/
  dropped : Bool := false
  /-- All commands the callers have sent. -/
  accepted : List SessionCommand := []
  sessionCmds : List SessionCommand := []
  cmds : List TerminalCmd := []
  everConnected : Bool := false
  pendingCmds : List TerminalCmd := []
  pendingSessionCmds : List SessionCommand := []
  client : ClientConn := {}
  link : Link := {}
  phase : SessionPhase := .starting
  events : List ClientEvent := []
  /-- Calls of the transport factory. -/
  attempts : Nat := 0

def SessionCommand.reply : SessionCommand → Option ReplyId
  | .createTerminal _ reply | .openTerminal _ reply | .listTerminals reply | .readHistory _ _ _ reply
  | .getServerConfig reply | .setServerConfig _ reply | .killTerminal _ reply => some reply
  | .shutdown => none

/-! ## Commands -/

/-- `try_merge_input_command`. -/
def tryMergeInputCommand (base next : TerminalCmd) : Option TerminalCmd :=
  match base, next with
  | .input baseTerminal baseBytes, .input terminal bytes =>
    if baseTerminal = terminal then some (.input baseTerminal (baseBytes ++ bytes)) else none
  | _, _ => none

/-- `coalesce_pending_input_front`, for a front that has been taken. -/
def coalesceInput (front : TerminalCmd) : List TerminalCmd → List TerminalCmd
  | [] => [front]
  | next :: rest =>
    match tryMergeInputCommand front next with
    | some merged => coalesceInput merged rest
    | none => front :: next :: rest

def coalescePendingInputFront : List TerminalCmd → List TerminalCmd
  | [] => []
  | front :: rest => coalesceInput front rest

namespace Session

/-! ## Sending -/

/-- `send_encrypted`, as far as the wait for the transport. -/
def encrypt (s : Session) (frame : FrameBody) : Except ClientError (Session × Ciphertext) :=
  match s.link.noise.encrypt frame with
  | .error e => .error (.crypto e.toMessage)
  | .ok (noise, ciphertext) =>
    .ok ({ s with link := { s.link with noise, encrypted := s.link.encrypted ++ [ciphertext] } }, ciphertext)

def hand (s : Session) (ciphertext : Ciphertext) : Session :=
  { s with link := { s.link with handed := s.link.handed ++ [ciphertext] } }

def emit (s : Session) (event : ClientEvent) : Session := { s with events := s.events ++ [event] }

/-! ## Ends -/

/-- The task returns: what it owns is dropped. -/
def stop (s : Session) : Session :=
  { s with sessionCmds := [], cmds := [], pendingCmds := [], pendingSessionCmds := [], phase := .ended }

def report (s : Session) (willRetry checkStop : Bool) (reason : String) : Session :=
  { s.emit (.disconnected willRetry reason) with phase := .reporting willRetry checkStop }

/-- `run_session_loop` behind `run_one_connection`, which has dropped what it knew. -/
def finish (s : Session) (reached : Bool) (outcome : Except ClientError Unit) : Session :=
  let s := { s with client := { replies := s.client.replies } }
  if s.stopRequested then s.stop
  else
    let everConnected := s.everConnected || reached
    let s := { s with everConnected }
    match outcome with
    | .ok () => s.report (reached || everConnected) true "remote closed"
    | .error e => s.report (shouldRetryAfterDisconnect e && (reached || everConnected)) true e.toMessage

/-- The loop of `run_one_connection` is left by a `break`. -/
def breakWith (s : Session) (reached : Bool) (outcome : Except ClientError Unit) : Session :=
  let error := match outcome with
    | .ok () => .closed
    | .error e => e
  { s with client := s.client.failAllPendingRequests error }.finish reached outcome

/-- The head of the loop. -/
def top (s : Session) : Session :=
  if s.stopRequested then s.stop else { s.emit .connecting with phase := .announcing }

/-! ## Callers -/

inductive CallerMove
  | command (cmd : SessionCommand)
  | terminalCommand (cmd : TerminalCmd)
  | shutdown
  | drop

/-- Each call of a session makes a reply of its own. -/
def callerStep (s : Session) (move : CallerMove) : Option Session :=
  match s.phase with
  | .ended => none
  | _ =>
    match move with
    | .command cmd =>
      match cmd.reply with
      | none => none
      | some reply =>
        if s.dropped ∨ some reply ∈ s.accepted.map SessionCommand.reply then none
        else some { s with accepted := s.accepted ++ [cmd], sessionCmds := s.sessionCmds ++ [cmd] }
    | .terminalCommand cmd => some { s with cmds := s.cmds ++ [cmd] }
    | .shutdown =>
      if s.dropped then none else some { s with stopRequested := true, sessionCmds := s.sessionCmds ++ [.shutdown] }
    | .drop => if s.dropped then none else some { s with dropped := true }

/-! ## The loop -/

inductive LoopMove
  | start
  | announced
  | transport (result : Except ClientError Unit)
  | closed
  | greeted (nowMs : Nat)
  | reported
  | slept

def loopStep (s : Session) (move : LoopMove) : Option Session :=
  match s.phase, move with
  | .starting, .start => some s.top
  | .announcing, .announced => some { s with attempts := s.attempts + 1, phase := .connecting }
  | .connecting, .transport (.ok ()) => some { s with phase := .setup .handshaking }
  | .connecting, .transport (.error e) =>
    if s.stopRequested then some s.stop
    else some (s.report (s.everConnected && shouldRetryAfterDisconnect e) false e.toMessage)
  | .closing reached e, .closed => some (s.breakWith reached (.error e))
  | .greeting, .greeted nowMs => some { s with phase := .connected { heartbeat := { lastInboundAtMs := nowMs } } }
  | .reporting willRetry checkStop, .reported =>
    if !willRetry || (checkStop && s.stopRequested) then some s.stop else some { s with phase := .backingOff }
  | .backingOff, .slept => some s.top
  | _, _ => none

/-! ## Establishing a session -/

inductive SetupMove
  /-- The Noise handshake is through. -/
  | handshaken
  | helloSent
  | helloOk (sessionId : SessionId) (serverLabel : Option String)
  | failed (error : ClientError)
  | timedOut

def helloFrame (s : Session) : FrameBody :=
  .hello { protocolMin := protocolVersion, protocolMax := protocolVersion, resume := s.resumeToken }

def setupStep (s : Session) (move : SetupMove) : Option Session :=
  match s.phase with
  | .setup setup =>
    match setup, move with
    | .handshaking, .handshaken =>
      match { s with link := {} }.encrypt s.helloFrame with
      | .error e => some (s.finish false (.error e))
      | .ok (s, ciphertext) => some { s with phase := .setup (.helloing ciphertext) }
    | .helloing ciphertext, .helloSent => some { s.hand ciphertext with phase := .setup .awaitingReply }
    | .helloing ciphertext, .failed e => some ((s.hand ciphertext).finish false (.error e))
    | .awaitingReply, .helloOk sessionId serverLabel =>
      some { s.emit (.connected sessionId serverLabel) with phase := .greeting }
    | _, .failed e => some (s.finish false (.error e))
    | _, .timedOut => some { s with phase := .closing false (.connectTimeout connectAttemptTimeoutMs) }
    | _, _ => none
  | _ => none

/-! ## A live connection -/

inductive ConnMove
  /-- The head of the loop of `run_one_connection`. -/
  | turn (nowMs nonce : Nat)
  | sent
  | sendFailed (error : ClientError)
  | emitted
  -- the select
  | sessionCmd
  | sessionCmdsClosed
  | cmd
  | batch
  | batched
  -- `recv_with_heartbeat` in the select
  | poll (nowMs nonce : Nat)
  | pingSent
  | pingFailed (error : ClientError)
  | slept
  | frame (frame : FrameBody) (nowMs : Nat)
  | peerClosed
  | recvFailed (error : ClientError)
  | closed

/-- A frame of the loop's own goes out; an error ends the connection. -/
def startSend (s : Session) (c : Connection) (frame : FrameBody) (after : AfterSend) : Session :=
  match s.encrypt frame with
  | .error e => s.finish true (.error e)
  | .ok (s, ciphertext) => { s with phase := .connected { c with wait := .sending ciphertext after } }

/-- The front of `pending_session_cmds` is framed. -/
def sendSessionCmd (s : Session) (c : Connection) (cmd : SessionCommand) : Option Session :=
  (s.client.frameForSessionCommand cmd).map fun (client, request) =>
    startSend { s with client } c (.request request) .popSessionCmd

/-- The front of `pending_cmds` is framed, or dropped. -/
def sendCmd (s : Session) (c : Connection) (cmd : TerminalCmd) : Session :=
  match s.client.frameForCommand cmd with
  | some (client, request) => startSend { s with client } c (.request request) .popCmd
  | none => { s with pendingCmds := s.pendingCmds.tail, phase := .connected { c with wait := .top } }

def turn (s : Session) (c : Connection) (nowMs nonce : Nat) : Option Session :=
  let (heartbeat, poll) := c.heartbeat.poll nowMs nonce
  let c := { c with heartbeat }
  match poll with
  | .sendPing nonce =>
    match s.encrypt (.ping nonce) with
    | .error e => some (s.finish true (.error e))
    | .ok (s, ciphertext) =>
      some { s with phase := .connected { c with wait := .sending ciphertext .nothing, ping := some ciphertext } }
  | .timeout => some { s with phase := .closing true heartbeatTimeout }
  | .wait =>
    match s.pendingSessionCmds with
    | cmd :: _ => s.sendSessionCmd c cmd
    | [] =>
      match coalescePendingInputFront s.pendingCmds with
      | cmd :: rest => some (sendCmd { s with pendingCmds := cmd :: rest } c cmd)
      | [] => some { s with phase := .connected { c with wait := .selecting .start } }

def act (s : Session) (c : Connection) : Action → Session
  | .send frame => s.startSend c frame .nothing
  | .emit event => { s.emit event with phase := .connected { c with wait := .emitting } }
  | .return result => s.breakWith true result
  | .none => { s with phase := .connected { c with wait := .top } }

/-- The frame branch of the select. -/
def inbound (s : Session) (c : Connection) (frame : FrameBody) : Session :=
  match s.client.handleInboundFrame frame with
  | .error e => s.finish true (.error e)
  | .ok (client, action) => act { s with client } c action

def pollRecv (s : Session) (c : Connection) (nowMs nonce : Nat) : Session :=
  let (heartbeat, poll) := c.heartbeat.poll nowMs nonce
  let c := { c with heartbeat }
  match poll with
  | .sendPing nonce =>
    match s.encrypt (.ping nonce) with
    | .error e => s.finish true (.error e)
    | .ok (s, ciphertext) =>
      { s with phase := .connected { c with wait := .selecting (.pinging ciphertext), ping := some ciphertext } }
  | .timeout => { s with phase := .connected { c with wait := .selecting .closing } }
  | .wait => { s with phase := .connected { c with wait := .selecting .receiving } }

/-- `recv_with_heartbeat` goes on. -/
def recvMove (s : Session) (c : Connection) (recv : RecvFuture) (move : ConnMove) : Option Session :=
  match recv, move with
  | .start, .poll nowMs nonce => some (s.pollRecv c nowMs nonce)
  | .pinging ciphertext, .pingSent =>
    some { s.hand ciphertext with phase := .connected { c with wait := .selecting .start } }
  | .pinging ciphertext, .pingFailed e => some ((s.hand ciphertext).finish true (.error e))
  | .receiving, .slept => some { s with phase := .connected { c with wait := .selecting .start } }
  | .receiving, .frame frame nowMs =>
    some (s.inbound { c with heartbeat := c.heartbeat.onInbound nowMs, ping := none } frame)
  | .receiving, .peerClosed => some (s.finish true (.error .closed))
  | .receiving, .recvFailed e => some (s.finish true (.error e))
  | .closing, .closed => some (s.finish true (.error heartbeatTimeout))
  | _, _ => none

/-- The select: commands of the session come before those of a terminal, and these before the transport. -/
def selectStep (s : Session) (c : Connection) (recv : RecvFuture) (move : ConnMove) : Option Session :=
  match move with
  | .sessionCmd =>
    match s.sessionCmds with
    | [] => none
    | .shutdown :: rest => some (finish { s with sessionCmds := rest } true (.ok ()))
    | cmd :: rest =>
      sendSessionCmd { s with sessionCmds := rest, pendingSessionCmds := s.pendingSessionCmds ++ [cmd] } c cmd
  | .sessionCmdsClosed => if s.sessionCmds = [] ∧ s.dropped then some (s.finish true (.error .closed)) else none
  | .cmd =>
    if s.sessionCmds ≠ [] ∨ s.dropped then none
    else
      match s.cmds with
      | [] => none
      | .input terminal bytes :: cmds =>
        some { s with cmds, phase := .connected { c with wait := .batching (.input terminal bytes) [] } }
      | cmd :: cmds => some (sendCmd { s with cmds, pendingCmds := s.pendingCmds ++ [cmd] } c cmd)
  | move => if s.sessionCmds ≠ [] ∨ s.dropped ∨ s.cmds ≠ [] then none else s.recvMove c recv move

def connStep (s : Session) (move : ConnMove) : Option Session :=
  match s.phase with
  | .connected c =>
    match c.wait, move with
    | .top, .turn nowMs nonce => s.turn c nowMs nonce
    | .sending ciphertext after, .sent =>
      let s := s.hand ciphertext
      let s := match after with
        | .nothing => s
        | .popCmd => { s with pendingCmds := s.pendingCmds.tail }
        | .popSessionCmd => { s with pendingSessionCmds := s.pendingSessionCmds.tail }
      some { s with phase := .connected { c with wait := .top } }
    | .sending ciphertext _, .sendFailed e => some ((s.hand ciphertext).finish true (.error e))
    | .emitting, .emitted => some { s with phase := .connected { c with wait := .top } }
    | .batching cmd deferred, .batch =>
      match s.cmds with
      | [] => none
      | next :: cmds =>
        match tryMergeInputCommand cmd next with
        | some merged => some { s with cmds, phase := .connected { c with wait := .batching merged deferred } }
        | none => some { s with cmds, phase := .connected { c with wait := .batching cmd (deferred ++ [next]) } }
    | .batching cmd deferred, .batched =>
      some (sendCmd { s with pendingCmds := s.pendingCmds ++ cmd :: deferred } c cmd)
    | .selecting recv, move => s.selectStep c recv move
    | _, _ => none
  | _ => none

/-! ## Steps -/

inductive Move
  | caller (move : CallerMove)
  | loop (move : LoopMove)
  | setup (move : SetupMove)
  | conn (move : ConnMove)

def step (s : Session) : Move → Option Session
  | .caller move => s.callerStep move
  | .loop move => s.loopStep move
  | .setup move => s.setupStep move
  | .conn move => s.connStep move

/-- A session that has not been run. -/
def new (resumeToken : Option ResumeToken) : Session := { resumeToken }

/-! ## What the steps are made of -/

variable {s t : Session} {c : Connection}

/-- What is encrypted is recorded. -/
theorem encrypt_eq_ok {frame : FrameBody} {ciphertext : Ciphertext} (h : s.encrypt frame = .ok (t, ciphertext)) :
    t = { s with link :=
      { s.link with
        noise := { sendNonce := s.link.noise.sendNonce + 1 }
        encrypted := s.link.encrypted ++ [ciphertext] } } ∧
      fitsNoise frame ∧ ciphertext = { nonce := s.link.noise.sendNonce, frame } := by
  unfold encrypt at h
  split at h
  · cases h
  · next noise ciphertext' he =>
    obtain ⟨hfits, _, rfl, rfl⟩ := NoiseSession.encrypt_eq_ok.mp he
    cases h
    exact ⟨rfl, hfits, rfl⟩

/-- The moves of `recv_with_heartbeat`. -/
def ConnMove.receives : ConnMove → Bool
  | .poll _ _ | .pingSent | .pingFailed _ | .slept | .frame _ _ | .peerClosed | .recvFailed _ | .closed => true
  | _ => false

/-- They are taken in the select, when there is no command. -/
theorem recvMove_of_connStep {move : ConnMove} (hphase : s.phase = .connected c) (hs : s.connStep move = some t)
    (hmove : move.receives = true) : ∃ recv, c.wait = .selecting recv ∧ s.recvMove c recv move = some t := by
  unfold connStep at hs
  rw [hphase] at hs
  dsimp only at hs
  split at hs
  · cases hmove
  · cases hmove
  · cases hmove
  · cases hmove
  · cases hmove
  · cases hmove
  · next recv hwait =>
    refine ⟨recv, hwait, ?_⟩
    unfold selectStep at hs
    split at hs
    · cases hmove
    · cases hmove
    · cases hmove
    · split at hs
      · cases hs
      · exact hs
  · cases hs

/-- The moves that bring a session to the select of a live connection. -/
def toSelect : List Move :=
  [.loop .start, .loop .announced, .loop (.transport (.ok ())), .setup .handshaken, .setup .helloSent,
    .setup (.helloOk ⟨.splat 1⟩ none), .loop (.greeted 0), .conn (.turn 0 0)]

end Session

end CliPocket
