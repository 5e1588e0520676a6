import CliPocket.Crypto.Transport
import CliPocket.Daemon.Revocation
import CliPocket.Lib.Refine
import CliPocket.Stream.Talk

/-!
# A client and a daemon over a network

The two parties of `Talk` behind their Noise handshake, each with its `EncryptedChannel`, from the hello on. Between
them is a network that loses, repeats, reorders and makes up messages as it likes, but cannot forge any.

- `Secure.step`: one move of a party, or a message that the network brings to one;
- `Secure.Matches`: what a party has sealed and the other has not yet opened waits in the queue of `Talk`;
- `Secure.hello_agreement`: **client and daemon agree on their session before anything else is said**;
- `Secure.refines_talk`: **the parties do over the network what they do over queues.**
-/

namespace CliPocket

open Steps (run Meets)

/-! ## Queues -/

namespace Talk

variable {s t : Talk} {frame : FrameBody}

/-- What is on its way, behind `toDaemon` and `toClient`. -/
def behind (s : Talk) (toDaemon toClient : List FrameBody) : Talk :=
  { s with toDaemon := toDaemon ++ s.toDaemon, toClient := toClient ++ s.toClient }

variable (toDaemon toClient : List FrameBody)

theorem behind_clientSend (s : Talk) (frame : FrameBody) :
    (s.behind toDaemon toClient).clientSend frame = (s.clientSend frame).behind toDaemon toClient := by
  unfold clientSend behind
  split
  · dsimp only
    rw [List.append_assoc]
  · rfl

theorem behind_daemonSend (s : Talk) (frame : FrameBody) :
    (s.behind toDaemon toClient).daemonSend frame = (s.daemonSend frame).behind toDaemon toClient := by
  unfold daemonSend behind
  split
  · dsimp only
    rw [List.append_assoc]
  · rfl

theorem behind_daemonSends (s : Talk) (frame : Option FrameBody) :
    (s.behind toDaemon toClient).daemonSends frame = (s.daemonSends frame).behind toDaemon toClient := by
  cases frame with
  | none => rfl
  | some frame => exact behind_daemonSend toDaemon toClient s frame

theorem behind_act (s : Talk) (action : Action) :
    (s.behind toDaemon toClient).act action = (s.act action).behind toDaemon toClient := by
  cases action with
  | send frame => exact behind_clientSend toDaemon toClient s frame
  | emit event => rfl
  | «return» result => cases result <;> rfl
  | none => rfl

theorem behind_note (s : Talk) (frame : FrameBody) (action : Action) :
    (s.behind toDaemon toClient).note frame action = (s.note frame action).behind toDaemon toClient := by
  unfold note
  split <;> rfl

theorem behind_ask {framed : Option (ClientConn × RequestFrame)} (h : s.ask framed = some t) :
    (s.behind toDaemon toClient).ask framed = some (t.behind toDaemon toClient) := by
  unfold ask at h ⊢
  obtain ⟨⟨client, request⟩, hframed, rfl⟩ := Option.map_eq_some_iff.mp h
  rw [hframed, Option.map_some]
  exact congrArg some <| behind_clientSend toDaemon toClient { s with
    client
    forgotten := s.forgotten ++
      if client.runtime.active.isNone then s.client.runtime.activeStream.toList else [] } (.request request)

/-- A frame that the client receives is the first of its queue. -/
theorem clientRecv_behind (h : { s with toClient := [frame] }.clientRecv = some t) :
    { s with toDaemon := toDaemon ++ s.toDaemon, toClient := frame :: toClient }.clientRecv =
      some (t.behind toDaemon toClient) := by
  unfold clientRecv at h ⊢
  dsimp only at h ⊢
  cases hhandle : s.client.handleInboundFrame frame with
  | error e =>
    rw [hhandle] at h
    cases h
    simp only [behind, List.append_nil]
  | ok handled =>
    obtain ⟨client, action⟩ := handled
    rw [hhandle] at h
    cases h
    dsimp only
    rw [← behind_act, ← behind_note]
    simp only [behind, List.append_nil]

theorem daemonRecv_behind {env : Env} (h : { s with toDaemon := [frame] }.daemonRecv env = some t) :
    { s with toDaemon := frame :: toDaemon, toClient := toClient ++ s.toClient }.daemonRecv env =
      some (t.behind toDaemon toClient) := by
  unfold daemonRecv at h ⊢
  dsimp only at h ⊢
  split at h
  · next hfresh =>
    obtain ⟨⟨daemon, reply⟩, hreceive, rfl⟩ := Option.map_eq_some_iff.mp h
    rw [if_pos hfresh, hreceive, Option.map_some]
    dsimp only
    rw [← behind_daemonSends]
    simp only [behind, List.append_nil]
  · cases h

/-- The other moves do not look at the queues. -/
theorem step_behind {move : Move} (hclient : move ≠ .clientRecv) (hdaemon : ∀ env, move ≠ .daemonRecv env)
    (h : s.step move = some t) : (s.behind toDaemon toClient).step move = some (t.behind toDaemon toClient) := by
  obtain ⟨client, _ | e, own, peer, d, acks, accepted, forgotten⟩ := s
  · cases move with
    | command cmd => exact behind_ask toDaemon toClient h
    | terminalCommand cmd => exact behind_ask toDaemon toClient h
    | ping nonce =>
      cases h
      exact congrArg some (behind_clientSend toDaemon toClient _ (.ping nonce))
    | clientRecv => exact absurd rfl hclient
    | daemonRecv env => exact absurd rfl (hdaemon env)
    | openStep =>
      obtain ⟨⟨daemon, reply⟩, hstep, rfl⟩ := Option.map_eq_some_iff.mp h
      show d.openStep.map _ = _
      rw [hstep]
      exact congrArg some (behind_daemonSends toDaemon toClient
        ⟨client, none, own, peer, daemon, acks, accepted, forgotten⟩ (reply.map .response))
    | output =>
      obtain ⟨⟨daemon, out⟩, hstep, rfl⟩ := Option.map_eq_some_iff.mp h
      show d.output.map _ = _
      rw [hstep]
      exact congrArg some (behind_daemonSends toDaemon toClient
        ⟨client, none, own, peer, daemon, acks, accepted, forgotten⟩ (out.map .streamData))
    | revoked =>
      unfold step at h ⊢
      dsimp only [behind] at h ⊢
      split at h
      · cases h
        exact congrArg some (congrArg (fun u : Talk => { u with daemon := { d with task := .closed } })
          (behind_daemonSend toDaemon toClient ⟨client, none, own, peer, d, acks, accepted, forgotten⟩ (.bye .revoked)))
      · cases h
    | receive i =>
      obtain ⟨daemon, hstep, rfl⟩ := Option.map_eq_some_iff.mp h
      show (d.forwarderReceive i).map _ = _
      rw [hstep]
      rfl
    | enqueue i =>
      obtain ⟨daemon, hstep, rfl⟩ := Option.map_eq_some_iff.mp h
      show (d.forwarderEnqueue i).map _ = _
      rw [hstep]
      rfl
    | cancel i =>
      obtain ⟨daemon, hstep, rfl⟩ := Option.map_eq_some_iff.mp h
      show (d.forwarderCancel i).map _ = _
      rw [hstep]
      rfl
    | terminal id move =>
      unfold step at h ⊢
      dsimp only [behind] at h ⊢
      split at h
      · cases h
      · obtain ⟨u, hmove, rfl⟩ := Option.map_eq_some_iff.mp h
        rw [hmove]
        rfl
    | create params env =>
      unfold step at h ⊢
      dsimp only [behind] at h ⊢
      split at h
      · next hfresh =>
        split at h
        · cases h
          exact if_pos hfresh
        · cases h
      · cases h
    | configure scrollbackBytes =>
      cases h
      rfl
  · cases h

theorem clientRecv_toClient (h : { s with toClient := [frame] }.clientRecv = some t) : t.toClient = [] := by
  unfold clientRecv at h
  dsimp only at h
  split at h
  · cases h
    rfl
  · next client action _ =>
    cases h
    have hnote : ∀ u : Talk, (u.note frame action).toClient = u.toClient := by
      intro u
      unfold note
      split <;> rfl
    have hsend : ∀ (u : Talk) (f : FrameBody), (u.clientSend f).toClient = u.toClient := by
      intro u f
      unfold clientSend
      split <;> rfl
    cases action with
    | send f => exact (hsend _ f).trans (hnote _)
    | emit event => exact hnote _
    | «return» result =>
      cases result with
      | ok _ => exact hnote _
      | error e => exact hnote _
    | none => exact hnote _

theorem daemonSends_toDaemon (s : Talk) (frame : Option FrameBody) : (s.daemonSends frame).toDaemon = s.toDaemon := by
  cases frame with
  | none => rfl
  | some frame =>
    show (s.daemonSend frame).toDaemon = s.toDaemon
    unfold daemonSend
    split <;> rfl

theorem daemonRecv_toDaemon {env : Env} (h : { s with toDaemon := [frame] }.daemonRecv env = some t) :
    t.toDaemon = [] := by
  unfold daemonRecv at h
  dsimp only at h
  split at h
  · obtain ⟨⟨daemon, reply⟩, _, rfl⟩ := Option.map_eq_some_iff.mp h
    exact daemonSends_toDaemon _ reply
  · cases h

theorem step_clientRecv_behind (hidle : s.toClient = [])
    (h : Talk.step { s with toClient := [frame] } .clientRecv = some t) :
    (s.behind toDaemon (frame :: toClient)).step .clientRecv = some (t.behind toDaemon toClient) ∧ t.toClient = [] := by
  obtain ⟨client, _ | e, own, peer, d, acks, accepted, forgotten⟩ := s
  · cases hidle
    refine ⟨?_, clientRecv_toClient h⟩
    have hbehind := clientRecv_behind toDaemon toClient h
    dsimp only [behind] at hbehind ⊢
    rw [List.append_nil]
    exact hbehind
  · cases h

theorem step_daemonRecv_behind {env : Env} (hidle : s.toDaemon = [])
    (h : Talk.step { s with toDaemon := [frame] } (.daemonRecv env) = some t) :
    (s.behind (frame :: toDaemon) toClient).step (.daemonRecv env) = some (t.behind toDaemon toClient) ∧
      t.toDaemon = [] := by
  obtain ⟨client, _ | e, own, peer, d, acks, accepted, forgotten⟩ := s
  · cases hidle
    refine ⟨?_, daemonRecv_toDaemon h⟩
    have hbehind := daemonRecv_behind toDaemon toClient h
    dsimp only [behind] at hbehind ⊢
    rw [List.append_nil]
    exact hbehind
  · cases h

end Talk

/-- The keys of a session, and what client and daemon bring into it. -/
structure SecureConfig where
  toDaemon : Cipher
  toClient : Cipher
  resumeToken : Option ResumeToken
  serverInfo : ServerInfo

inductive ClientStage
  | hello
  | awaitReply
  | connected
  | ended
  deriving DecidableEq

inductive DaemonStage
  | awaitHello
  | running
  | ended
  deriving DecidableEq

/-- The parties, whose queues are empty between two moves, and the frames each has sealed, in the order of their
nonces. `established` is what the client has been told, `accepted` the hello the daemon has accepted and its answer. -/
structure Secure where
  talk : Talk
  client : ClientStage := .hello
  daemon : DaemonStage := .awaitHello
  clientNoise : TransportState := {}
  daemonNoise : TransportState := {}
  clientSealed : List FrameBody := []
  daemonSealed : List FrameBody := []
  established : Option (SessionId × Option String) := none
  accepted : Option (Hello × HelloOk) := none

namespace Secure

inductive Move
  /-- `establish_session` sends its hello. -/
  | clientHello
  | clientReceive (bytes : List UInt8)
  /-- A time-out, or the end of the transport. -/
  | clientEnds
  | daemonReceive (bytes : List UInt8) (sessionId : SessionId) (env : Env)
  | daemonEnds
  | party (move : Talk.Move)

variable (cfg : SecureConfig)

/-! ## Sending -/

/-- The ciphertext is the network's. -/
def clientSeal (s : Secure) (frame : FrameBody) (next : ClientStage) : Secure :=
  match s.client, s.clientNoise.sendFrame cfg.toDaemon ⟨frame⟩ with
  | .ended, _ => s
  | _, .error _ => { s with client := .ended }
  | _, .ok (clientNoise, _) => { s with clientNoise, clientSealed := s.clientSealed ++ [frame], client := next }

def daemonSeal (s : Secure) (frame : FrameBody) (next : DaemonStage) : Secure :=
  match s.daemon, s.daemonNoise.sendFrame cfg.toClient ⟨frame⟩ with
  | .ended, _ => s
  | _, .error _ => { s with daemon := .ended }
  | _, .ok (daemonNoise, _) => { s with daemonNoise, daemonSealed := s.daemonSealed ++ [frame], daemon := next }

def clientSeals (s : Secure) : List FrameBody → Secure
  | [] => s
  | frame :: frames => clientSeals (s.clientSeal cfg frame s.client) frames

def daemonSeals (s : Secure) : List FrameBody → Secure
  | [] => s
  | frame :: frames => daemonSeals (s.daemonSeal cfg frame s.daemon) frames

/-- The parties have moved: what they have to say is sealed. -/
def flush (s : Secure) (talk : Talk) : Secure :=
  daemonSeals cfg (clientSeals cfg { s with talk := { talk with toDaemon := [], toClient := [] } } talk.toDaemon)
    talk.toClient

/-! ## Receiving -/

def helloFrame : Hello := { protocolMin := protocolVersion, protocolMax := protocolVersion, resume := cfg.resumeToken }

def helloReply (hello : Hello) (sessionId : SessionId) : HelloOk :=
  { protocol := protocolVersion, serverInfo := cfg.serverInfo, sessionId, resumed := hello.resume.isSome }

/-- `establish_session` behind its hello, and `recv_encrypted` in the loop. -/
def clientReceive (s : Secure) (bytes : List UInt8) : Option Secure :=
  match s.client with
  | .awaitReply =>
    match s.clientNoise.recvFrame cfg.toClient bytes with
    | .error _ => some { s with client := .ended }
    | .ok (clientNoise, ⟨.helloOk ok⟩) =>
      some { s with
        clientNoise
        client := .connected
        established := some (ok.sessionId, ok.serverInfo.serverLabel) }
    | .ok (clientNoise, _) => some { s with clientNoise, client := .ended }
  | .connected =>
    match s.clientNoise.recvFrame cfg.toClient bytes with
    | .error _ => some { s with client := .ended }
    | .ok (clientNoise, frame) =>
      (Talk.step { s.talk with toClient := [frame.body] } .clientRecv).map (flush cfg { s with clientNoise })
  | _ => none

/-- `run_connection_post_handshake`: the first frame has to be a `Hello`. -/
def daemonReceive (s : Secure) (bytes : List UInt8) (sessionId : SessionId) (env : Env) : Option Secure :=
  match s.daemon with
  | .awaitHello =>
    match s.daemonNoise.recvFrame cfg.toDaemon bytes with
    | .error _ => some { s with daemon := .ended }
    | .ok (daemonNoise, ⟨.hello hello⟩) =>
      match validateHello hello with
      | .error _ => some { s with daemonNoise, daemon := .ended }
      | .ok () =>
        let ok := helloReply cfg hello sessionId
        some (daemonSeal cfg { s with daemonNoise, accepted := some (hello, ok) } (.helloOk ok) .running)
    | .ok (daemonNoise, _) =>
      let s := daemonSeal cfg { s with daemonNoise } (.bye (.protocolError .protocolMismatch)) .ended
      some { s with daemon := .ended }
  | .running =>
    match s.talk.daemon.task with
    | .select =>
      match s.daemonNoise.recvFrame cfg.toDaemon bytes with
      | .error _ => some { s with daemon := .ended }
      | .ok (daemonNoise, frame) =>
        (Talk.step { s.talk with toDaemon := [frame.body] } (.daemonRecv env)).map (flush cfg { s with daemonNoise })
    | _ => none
  | .ended => none

/-! ## Steps -/

/-- Who makes a move. -/
inductive Mover
  | client
  | daemon
  | network
  | terminals
  deriving DecidableEq

def mover : Talk.Move → Mover
  | .command _ | .terminalCommand _ | .ping _ => .client
  | .openStep | .output | .revoked | .receive _ | .enqueue _ | .cancel _ => .daemon
  | .clientRecv | .daemonRecv _ => .network
  | .terminal _ _ | .create _ _ | .configure _ => .terminals

def step (s : Secure) : Move → Option Secure
  | .clientHello =>
    match s.client with
    | .hello => some (s.clientSeal cfg (.hello (helloFrame cfg)) .awaitReply)
    | _ => none
  | .clientReceive bytes => s.clientReceive cfg bytes
  | .clientEnds => some { s with client := .ended }
  | .daemonReceive bytes sessionId env => s.daemonReceive cfg bytes sessionId env
  | .daemonEnds => some { s with daemon := .ended }
  | .party move =>
    match mover move, s.client, s.daemon with
    | .client, .connected, _ | .daemon, _, .running | .terminals, _, _ => (s.talk.step move).map (flush cfg s)
    | _, _, _ => none

/-- Behind the handshake. -/
def new (terminals : AList fun _ : TerminalId => Terminal) (maxTerminals scrollbackBytes : Nat) : Secure where
  talk := .new terminals maxTerminals scrollbackBytes

/-- The network does not forge. -/
def Genuine (s : Secure) : Move → Prop
  | .clientReceive bytes => cfg.toClient.Authentic s.daemonSealed bytes
  | .daemonReceive bytes _ _ => cfg.toDaemon.Authentic s.clientSealed bytes
  | _ => True

/-- The network does not forge, and the frames that are sealed are values of their types. -/
def Permitted (s : Secure) (move : Move) : Prop :=
  s.Genuine cfg move ∧ ∀ t, s.step cfg move = some t → ∀ frame ∈ t.clientSealed ++ t.daemonSealed, frame.Typed

/-! ## Who writes to a queue -/

section Queues

variable {move : Talk.Move} {u v : Talk}

theorem clientSend_toClient (u : Talk) (frame : FrameBody) : (u.clientSend frame).toClient = u.toClient := by
  unfold Talk.clientSend
  split <;> rfl

theorem ask_toClient {framed : Option (ClientConn × RequestFrame)} (h : u.ask framed = some v) :
    v.toClient = u.toClient := by
  obtain ⟨⟨client, request⟩, _, rfl⟩ := Option.map_eq_some_iff.mp h
  exact clientSend_toClient _ _

theorem step_of_client (hmover : mover move = .client) (h : u.step move = some v) : v.toClient = u.toClient := by
  unfold Talk.step at h
  split at h
  · cases h
  · cases move with
    | command cmd => exact ask_toClient h
    | terminalCommand cmd => exact ask_toClient h
    | ping nonce =>
      cases h
      exact clientSend_toClient u _
    | _ => cases hmover

theorem step_of_daemon (hmover : mover move = .daemon) (h : u.step move = some v) : v.toDaemon = u.toDaemon := by
  unfold Talk.step at h
  split at h
  · cases h
  · cases move with
    | openStep =>
      obtain ⟨⟨daemon, reply⟩, _, rfl⟩ := Option.map_eq_some_iff.mp h
      exact Talk.daemonSends_toDaemon _ _
    | output =>
      obtain ⟨⟨daemon, out⟩, _, rfl⟩ := Option.map_eq_some_iff.mp h
      exact Talk.daemonSends_toDaemon _ _
    | revoked =>
      dsimp only at h
      split at h
      · cases h
        exact Talk.daemonSends_toDaemon u (some (.bye .revoked))
      · cases h
    | receive i | enqueue i | cancel i =>
      obtain ⟨daemon, _, rfl⟩ := Option.map_eq_some_iff.mp h
      rfl
    | _ => cases hmover

theorem step_of_terminals (hmover : mover move = .terminals) (h : u.step move = some v) :
    v.toDaemon = u.toDaemon ∧ v.toClient = u.toClient := by
  unfold Talk.step at h
  split at h
  · cases h
  · cases move with
    | terminal id move =>
      dsimp only at h
      split at h
      · cases h
      · obtain ⟨t, _, rfl⟩ := Option.map_eq_some_iff.mp h
        exact ⟨rfl, rfl⟩
    | create params env =>
      dsimp only at h
      split at h
      · split at h
        · cases h
          exact ⟨rfl, rfl⟩
        · cases h
      · cases h
    | configure scrollbackBytes =>
      cases h
      exact ⟨rfl, rfl⟩
    | _ => cases hmover

end Queues

/-! ## One direction -/

/-- What has been sealed behind the hello and not yet opened waits in a queue; an end that has stopped may have left
more there. -/
structure Waits (frames : List FrameBody) (opened : Nat) (queue : List FrameBody) (ended : Prop) : Prop where
  front : frames.drop (max 1 opened) <+: queue
  whole : ¬ended → frames.drop (max 1 opened) = queue

namespace Waits

variable {frames queue said sealed : List FrameBody} {opened : Nat} {ended ended' : Prop} {frame : FrameBody}

theorem mono (h : Waits frames opened queue ended) (hended : ended → ended') : Waits frames opened queue ended' :=
  ⟨h.front, fun hopen => h.whole fun h => hopen (hended h)⟩

/-- An end that has stopped says what nobody hears. -/
theorem mute (h : Waits frames opened queue ended) (hended : ended') (said : List FrameBody) :
    Waits frames opened (queue ++ said) ended' :=
  ⟨h.front.trans (List.prefix_append _ _), fun hopen => absurd hended hopen⟩

theorem send (h : Waits frames opened queue ended) (hopen : ¬ended) (hpos : 1 ≤ frames.length)
    (hle : opened ≤ frames.length) (frame : FrameBody) : Waits (frames ++ [frame]) opened (queue ++ [frame]) ended := by
  have hdrop : (frames ++ [frame]).drop (max 1 opened) = queue ++ [frame] := by
    rw [List.drop_append_of_le_length (by omega), h.whole hopen]
  exact ⟨hdrop ▸ List.prefix_refl _, fun _ => hdrop⟩

/-- The frame with the nonce that is due is the first of the queue. -/
theorem receive (h : Waits frames opened queue ended) (hpos : 1 ≤ opened) (hframe : frames[opened]? = some frame) :
    ∃ rest, queue = frame :: rest ∧ Waits frames (opened + 1) rest ended := by
  obtain ⟨hlt, hget⟩ := List.getElem?_eq_some_iff.mp hframe
  have hdrop : frames.drop (max 1 opened) = frame :: frames.drop (max 1 (opened + 1)) := by
    rw [Nat.max_eq_right hpos, Nat.max_eq_right (by omega), List.drop_eq_getElem_cons hlt, hget]
  obtain ⟨hfront, hwhole⟩ := h
  rw [hdrop] at hfront hwhole
  cases queue with
  | nil => exact absurd (List.prefix_nil.mp hfront) (List.cons_ne_nil _ _)
  | cons first rest =>
    obtain ⟨rfl, hrest⟩ := List.cons_prefix_cons.mp hfront
    exact ⟨rest, rfl, hrest, fun hopen => (List.cons.inj (hwhole hopen)).2⟩

/-- The hello is not in the queue. -/
theorem greet (h : Waits [] opened queue ended) (frame : FrameBody) : Waits [frame] opened queue ended := by
  have hdrop : [frame].drop (max 1 opened) = ([] : List FrameBody).drop (max 1 opened) := by
    rw [List.drop_eq_nil_of_le (Nat.le_max_left 1 opened), List.drop_nil]
  exact ⟨hdrop ▸ h.front, fun hopen => hdrop.trans (h.whole hopen)⟩

theorem greeted (h : Waits frames 0 queue ended) : Waits frames (0 + 1) queue ended := ⟨h.front, h.whole⟩

end Waits

/-! ## The invariant -/

/-- `toDaemon` and `toClient` are what the queues of `Talk` hold. -/
structure Matches (s : Secure) (toDaemon toClient : List FrameBody) : Prop where
  idle : s.talk.toDaemon = [] ∧ s.talk.toClient = []
  counts : s.clientNoise.sendNonce = s.clientSealed.length ∧ s.daemonNoise.sendNonce = s.daemonSealed.length
  opened : s.daemonNoise.receiveNonce ≤ s.clientSealed.length ∧ s.clientNoise.receiveNonce ≤ s.daemonSealed.length
  -- the client
  start : s.client = .hello → s.clientSealed = [] ∧ s.clientNoise.receiveNonce = 0
  awaitReply : s.client = .awaitReply → s.clientSealed.length = 1 ∧ s.clientNoise.receiveNonce = 0
  connected : s.client = .connected →
    1 ≤ s.clientSealed.length ∧ 1 ≤ s.clientNoise.receiveNonce ∧ s.established.isSome
  hello : ∀ frame, s.clientSealed[0]? = some frame → frame = .hello (helloFrame cfg)
  silent : 2 ≤ s.clientSealed.length → s.established.isSome
  established : ∀ id label, s.established = some (id, label) →
    ∃ hello ok, s.accepted = some (hello, ok) ∧ ok.sessionId = id ∧ ok.serverInfo.serverLabel = label
  -- the daemon
  awaitHello : s.daemon = .awaitHello →
    s.daemonSealed = [] ∧ s.daemonNoise.receiveNonce = 0 ∧ s.accepted = none
  running : s.daemon = .running → 1 ≤ s.daemonSealed.length ∧ 1 ≤ s.daemonNoise.receiveNonce
  reply : ∀ frame, s.daemonSealed[0]? = some frame → ∃ hello ok, s.accepted = some (hello, ok) ∧ frame = .helloOk ok
  accepted : ∀ hello ok, s.accepted = some (hello, ok) →
    hello = helloFrame cfg ∧ ∃ id, ok = helloReply cfg hello id
  -- what is on its way
  toDaemon : Waits s.clientSealed s.daemonNoise.receiveNonce toDaemon (s.client = .ended)
  toClient : Waits s.daemonSealed s.clientNoise.receiveNonce toClient (s.daemon = .ended)

namespace Matches

variable {cfg} {s : Secure} {toDaemon toClient : List FrameBody} {frame : FrameBody}

theorem clientEnds (h : Matches cfg s toDaemon toClient) : Matches cfg { s with client := .ended } toDaemon toClient :=
  { h with
    start := nofun
    awaitReply := nofun
    connected := nofun
    toDaemon := h.toDaemon.mono fun _ => rfl }

theorem daemonEnds (h : Matches cfg s toDaemon toClient) : Matches cfg { s with daemon := .ended } toDaemon toClient :=
  { h with
    awaitHello := nofun
    running := nofun
    toClient := h.toClient.mono fun _ => rfl }

end Matches

theorem clientSeal_cases (s : Secure) (frame : FrameBody) (next : ClientStage) (hopen : s.client ≠ .ended) :
    s.clientSeal cfg frame next = { s with client := .ended } ∨ s.clientSeal cfg frame next =
      { s with
        clientNoise := { s.clientNoise with sendNonce := s.clientNoise.sendNonce + 1 }
        clientSealed := s.clientSealed ++ [frame]
        client := next } := by
  unfold clientSeal
  split
  · next hended => exact absurd hended hopen
  · exact .inl rfl
  · next hsend _ =>
    obtain ⟨_, _, rfl, _⟩ := TransportState.sendFrame_eq_ok.mp hsend
    exact .inr rfl

theorem daemonSeal_cases (s : Secure) (frame : FrameBody) (next : DaemonStage) (hopen : s.daemon ≠ .ended) :
    s.daemonSeal cfg frame next = { s with daemon := .ended } ∨ s.daemonSeal cfg frame next =
      { s with
        daemonNoise := { s.daemonNoise with sendNonce := s.daemonNoise.sendNonce + 1 }
        daemonSealed := s.daemonSealed ++ [frame]
        daemon := next } := by
  unfold daemonSeal
  split
  · next hended => exact absurd hended hopen
  · exact .inl rfl
  · next hsend _ =>
    obtain ⟨_, _, rfl, _⟩ := TransportState.sendFrame_eq_ok.mp hsend
    exact .inr rfl

namespace Matches

variable {cfg} {s : Secure} {toDaemon toClient : List FrameBody} {frame : FrameBody}

/-- A client that is connected, or was, says something. -/
theorem clientSeal (h : Matches cfg s toDaemon toClient) (frame : FrameBody)
    (hstage : s.client = .connected ∨ s.client = .ended) :
    Matches cfg (s.clientSeal cfg frame s.client) (toDaemon ++ [frame]) toClient ∧
      ((s.clientSeal cfg frame s.client).client = .connected ∨ (s.clientSeal cfg frame s.client).client = .ended) := by
  rcases hstage with hconnected | hended
  · rcases clientSeal_cases cfg s frame s.client (by rw [hconnected]; decide) with heq | heq
    · rw [heq]
      exact ⟨{ h.clientEnds with toDaemon := h.toDaemon.mute rfl _ }, .inr rfl⟩
    · rw [heq]
      obtain ⟨hpos, hreceived, htold⟩ := h.connected hconnected
      refine ⟨{ h with
        counts := ⟨?_, h.counts.2⟩
        opened := ⟨?_, h.opened.2⟩
        start := fun hc => absurd (hconnected.symm.trans hc) nofun
        awaitReply := fun hc => absurd (hconnected.symm.trans hc) nofun
        connected := fun _ => ⟨?_, hreceived, htold⟩
        hello := fun f hf => h.hello f ?_
        silent := fun _ => htold
        toDaemon := h.toDaemon.send (by rw [hconnected]; decide) hpos h.opened.1 frame }, .inl hconnected⟩
      · show s.clientNoise.sendNonce + 1 = (s.clientSealed ++ [frame]).length
        rw [List.length_append, h.counts.1, List.length_singleton]
      · exact Nat.le_trans h.opened.1 (by rw [List.length_append]; omega)
      · exact Nat.le_trans hpos (by rw [List.length_append]; omega)
      · rwa [List.getElem?_append_left hpos] at hf
  · have hsame : s.clientSeal cfg frame s.client = s := by
      unfold Secure.clientSeal
      rw [hended]
    rw [hsame]
    exact ⟨{ h with toDaemon := h.toDaemon.mute hended _ }, .inr hended⟩

theorem clientSeals : ∀ {frames : List FrameBody} {s : Secure} {toDaemon : List FrameBody},
    Matches cfg s toDaemon toClient → (s.client = .connected ∨ s.client = .ended) →
    Matches cfg (s.clientSeals cfg frames) (toDaemon ++ frames) toClient
  | [], s, toDaemon, h, _ => by
    rw [List.append_nil]
    exact h
  | frame :: frames, s, toDaemon, h, hstage => by
    obtain ⟨hnext, hstage'⟩ := h.clientSeal frame hstage
    have hrest := @clientSeals frames _ _ hnext hstage'
    rwa [List.append_assoc] at hrest

theorem daemonSeal (h : Matches cfg s toDaemon toClient) (frame : FrameBody)
    (hstage : s.daemon = .running ∨ s.daemon = .ended) :
    Matches cfg (s.daemonSeal cfg frame s.daemon) toDaemon (toClient ++ [frame]) ∧
      ((s.daemonSeal cfg frame s.daemon).daemon = .running ∨ (s.daemonSeal cfg frame s.daemon).daemon = .ended) := by
  rcases hstage with hrunning | hended
  · rcases daemonSeal_cases cfg s frame s.daemon (by rw [hrunning]; decide) with heq | heq
    · rw [heq]
      exact ⟨{ h.daemonEnds with toClient := h.toClient.mute rfl _ }, .inr rfl⟩
    · rw [heq]
      obtain ⟨hpos, hreceived⟩ := h.running hrunning
      refine ⟨{ h with
        counts := ⟨h.counts.1, ?_⟩
        opened := ⟨h.opened.1, ?_⟩
        awaitHello := fun hc => absurd (hrunning.symm.trans hc) nofun
        running := fun _ => ⟨?_, hreceived⟩
        reply := fun f hf => h.reply f ?_
        toClient := h.toClient.send (by rw [hrunning]; decide) hpos h.opened.2 frame }, .inl hrunning⟩
      · show s.daemonNoise.sendNonce + 1 = (s.daemonSealed ++ [frame]).length
        rw [List.length_append, h.counts.2, List.length_singleton]
      · exact Nat.le_trans h.opened.2 (by rw [List.length_append]; omega)
      · exact Nat.le_trans hpos (by rw [List.length_append]; omega)
      · rwa [List.getElem?_append_left hpos] at hf
  · have hsame : s.daemonSeal cfg frame s.daemon = s := by
      unfold Secure.daemonSeal
      rw [hended]
    rw [hsame]
    exact ⟨{ h with toClient := h.toClient.mute hended _ }, .inr hended⟩

theorem daemonSeals : ∀ {frames : List FrameBody} {s : Secure} {toClient : List FrameBody},
    Matches cfg s toDaemon toClient → (s.daemon = .running ∨ s.daemon = .ended) →
    Matches cfg (s.daemonSeals cfg frames) toDaemon (toClient ++ frames)
  | [], s, toClient, h, _ => by
    rw [List.append_nil]
    exact h
  | frame :: frames, s, toClient, h, hstage => by
    obtain ⟨hnext, hstage'⟩ := h.daemonSeal frame hstage
    have hrest := @daemonSeals frames _ _ hnext hstage'
    rwa [List.append_assoc] at hrest

/-- The parties have moved. -/
theorem flush_client (h : Matches cfg s toDaemon toClient) (hstage : s.client = .connected ∨ s.client = .ended)
    {u : Talk} (hu : u.toClient = []) : Matches cfg (s.flush cfg u) (toDaemon ++ u.toDaemon) toClient := by
  unfold flush
  rw [hu]
  have hidle : Matches cfg { s with talk := { u with toDaemon := [], toClient := [] } } toDaemon toClient :=
    { h with idle := ⟨rfl, rfl⟩ }
  exact hidle.clientSeals hstage

theorem flush_daemon (h : Matches cfg s toDaemon toClient) (hstage : s.daemon = .running ∨ s.daemon = .ended)
    {u : Talk} (hu : u.toDaemon = []) : Matches cfg (s.flush cfg u) toDaemon (toClient ++ u.toClient) := by
  unfold flush
  rw [hu]
  have hidle : Matches cfg { s with talk := { u with toDaemon := [], toClient := [] } } toDaemon toClient :=
    { h with idle := ⟨rfl, rfl⟩ }
  exact hidle.daemonSeals hstage

theorem flush_idle (h : Matches cfg s toDaemon toClient) {u : Talk} (hu : u.toDaemon = [] ∧ u.toClient = []) :
    Matches cfg (s.flush cfg u) toDaemon toClient := by
  unfold flush
  rw [hu.1, hu.2]
  exact { h with idle := ⟨rfl, rfl⟩ }

end Matches

theorem clientSeal_talk (s : Secure) (frame : FrameBody) (next : ClientStage) :
    (s.clientSeal cfg frame next).talk = s.talk := by
  unfold clientSeal
  split <;> rfl

theorem daemonSeal_talk (s : Secure) (frame : FrameBody) (next : DaemonStage) :
    (s.daemonSeal cfg frame next).talk = s.talk := by
  unfold daemonSeal
  split <;> rfl

theorem clientSeals_talk : ∀ (frames : List FrameBody) (s : Secure), (s.clientSeals cfg frames).talk = s.talk
  | [], _ => rfl
  | frame :: frames, s => (clientSeals_talk frames _).trans (clientSeal_talk cfg s frame s.client)

theorem daemonSeals_talk : ∀ (frames : List FrameBody) (s : Secure), (s.daemonSeals cfg frames).talk = s.talk
  | [], _ => rfl
  | frame :: frames, s => (daemonSeals_talk frames _).trans (daemonSeal_talk cfg s frame s.daemon)

theorem flush_talk (s : Secure) (u : Talk) : (s.flush cfg u).talk = { u with toDaemon := [], toClient := [] } := by
  unfold flush
  rw [daemonSeals_talk, clientSeals_talk]

/-! ## The simulation -/

/-- A run of the parties over queues has come to the same. -/
def Simulated (s : Secure) (t : Talk) : Prop :=
  (∀ frame ∈ s.clientSealed ++ s.daemonSealed, frame.Typed) ∧
    ∃ toDaemon toClient, t = s.talk.behind toDaemon toClient ∧ Matches cfg s toDaemon toClient

variable {cfg} {s : Secure} {t : Talk} {toDaemon toClient : List FrameBody}

theorem behind_flush (u : Talk) : (s.flush cfg u).talk.behind (toDaemon ++ u.toDaemon) (toClient ++ u.toClient) =
    u.behind toDaemon toClient := by
  rw [flush_talk]
  unfold Talk.behind
  simp only [List.append_nil]

/-- A move of the parties that one of them, or none, may make. -/
theorem Matches.party (h : Matches cfg s toDaemon toClient) {move : Talk.Move} {s' : Secure}
    (hstep : s.step cfg (.party move) = some s') : ∃ t' toDaemon' toClient',
      (s.talk.behind toDaemon toClient).step move = some t' ∧ t' = s'.talk.behind toDaemon' toClient' ∧
        Matches cfg s' toDaemon' toClient' := by
  have hgo : ∀ u, s.talk.step move = some u → mover move ≠ .network →
      (s.talk.behind toDaemon toClient).step move = some (u.behind toDaemon toClient) := by
    intro u hu hmover
    refine Talk.step_behind toDaemon toClient ?_ ?_ hu
    · rintro rfl
      exact hmover rfl
    · rintro env rfl
      exact hmover rfl
  have hstage : ∀ u, s.talk.step move = some u → mover move ≠ .network →
      Matches cfg (s.flush cfg u) (toDaemon ++ u.toDaemon) (toClient ++ u.toClient) →
      ∃ t' toDaemon' toClient', (s.talk.behind toDaemon toClient).step move = some t' ∧
        t' = (s.flush cfg u).talk.behind toDaemon' toClient' ∧ Matches cfg (s.flush cfg u) toDaemon' toClient' :=
    fun u hu hmover hm => ⟨_, _, _, hgo u hu hmover, (behind_flush u).symm, hm⟩
  unfold step at hstep
  dsimp only at hstep
  split at hstep
  · next hmover hclient =>
    obtain ⟨u, hu, rfl⟩ := Option.map_eq_some_iff.mp hstep
    have hquiet : u.toClient = [] := (step_of_client hmover hu).trans h.idle.2
    refine hstage u hu (by rw [hmover]; decide) ?_
    rw [hquiet, List.append_nil]
    exact h.flush_client (.inl hclient) hquiet
  · next hmover hdaemon =>
    obtain ⟨u, hu, rfl⟩ := Option.map_eq_some_iff.mp hstep
    have hquiet : u.toDaemon = [] := (step_of_daemon hmover hu).trans h.idle.1
    refine hstage u hu (by rw [hmover]; decide) ?_
    rw [hquiet, List.append_nil]
    exact h.flush_daemon (.inl hdaemon) hquiet
  · next hmover =>
    obtain ⟨u, hu, rfl⟩ := Option.map_eq_some_iff.mp hstep
    obtain ⟨hdaemon, hclient⟩ := step_of_terminals hmover hu
    have hquiet : u.toDaemon = [] ∧ u.toClient = [] := ⟨hdaemon.trans h.idle.1, hclient.trans h.idle.2⟩
    refine hstage u hu (by rw [hmover]; decide) ?_
    rw [hquiet.1, hquiet.2, List.append_nil, List.append_nil]
    exact h.flush_idle hquiet
  · cases hstep

/-- A message has been opened. -/
theorem opens {frames : List FrameBody} {nonce : Nat} {frame : FrameBody} (hframe : frames[nonce]? = some frame) :
    nonce + 1 ≤ frames.length := (List.getElem?_eq_some_iff.mp hframe).1

theorem Matches.clientReceive (h : Matches cfg s toDaemon toClient)
    (htyped : ∀ frame ∈ s.clientSealed ++ s.daemonSealed, frame.Typed) {bytes : List UInt8}
    (hgenuine : cfg.toClient.Authentic s.daemonSealed bytes) {s' : Secure}
    (hstep : s.clientReceive cfg bytes = some s') : ∃ moves t' toDaemon' toClient',
      run Talk.step (s.talk.behind toDaemon toClient) moves = some t' ∧ t' = s'.talk.behind toDaemon' toClient' ∧
        Matches cfg s' toDaemon' toClient' := by
  have hsealed : ∀ frame ∈ s.daemonSealed, frame.Typed := fun frame hf => htyped frame (List.mem_append_right _ hf)
  unfold Secure.clientReceive at hstep
  split at hstep
  · next hclient =>
    obtain ⟨hlength, hzero⟩ := h.awaitReply hclient
    split at hstep
    · cases hstep
      exact ⟨[], _, _, _, rfl, rfl, h.clientEnds⟩
    · next clientNoise ok hrecv =>
      obtain ⟨hframe, rfl⟩ := TransportState.recvFrame_authentic hsealed hgenuine hrecv
      have hfirst : s.daemonSealed[0]? = some (.helloOk ok) := by rwa [hzero] at hframe
      obtain ⟨hello, ok', haccepted, heq⟩ := h.reply _ hfirst
      cases heq
      cases hstep
      exact ⟨[], _, _, _, rfl, rfl, { h with
        opened := ⟨h.opened.1, opens hframe⟩
        start := nofun
        awaitReply := nofun
        connected := fun _ => ⟨Nat.le_of_eq hlength.symm, Nat.succ_pos _, rfl⟩
        silent := fun _ => rfl
        established := fun id label hid => by
          cases hid
          exact ⟨hello, ok, haccepted, rfl, rfl⟩
        toDaemon := h.toDaemon.mono fun hended => absurd (hclient.symm.trans hended) nofun
        toClient := by
          have hwaits := h.toClient
          rw [hzero] at hwaits ⊢
          exact hwaits.greeted }⟩
    · next clientNoise frame _ hrecv =>
      obtain ⟨hframe, rfl⟩ := TransportState.recvFrame_authentic hsealed hgenuine hrecv
      cases hstep
      exact ⟨[], _, _, _, rfl, rfl, { h.clientEnds with
        opened := ⟨h.opened.1, opens hframe⟩
        start := nofun
        awaitReply := nofun
        connected := nofun
        toClient := by
          have hwaits := h.toClient
          rw [hzero] at hwaits ⊢
          exact hwaits.greeted }⟩
  · next hclient =>
    split at hstep
    · cases hstep
      exact ⟨[], _, _, _, rfl, rfl, h.clientEnds⟩
    · next clientNoise frame hrecv =>
      obtain ⟨hframe, rfl⟩ := TransportState.recvFrame_authentic hsealed hgenuine hrecv
      obtain ⟨hpos, hreceived, htold⟩ := h.connected hclient
      obtain ⟨rest, rfl, hwaits⟩ := h.toClient.receive hreceived hframe
      obtain ⟨u, hu, rfl⟩ := Option.map_eq_some_iff.mp hstep
      obtain ⟨hbehind, hquiet⟩ := Talk.step_clientRecv_behind toDaemon rest h.idle.2 hu
      have hopened : Matches cfg { s with clientNoise := { s.clientNoise with
          receiveNonce := s.clientNoise.receiveNonce + 1 } } toDaemon rest :=
        { h with
          opened := ⟨h.opened.1, opens hframe⟩
          start := fun hc => absurd (hclient.symm.trans hc) nofun
          awaitReply := fun hc => absurd (hclient.symm.trans hc) nofun
          connected := fun _ => ⟨hpos, Nat.succ_pos _, htold⟩
          toClient := hwaits }
      refine ⟨[.clientRecv], u.behind toDaemon rest, _, _, ?_, ?_, hopened.flush_client (.inl hclient) hquiet⟩
      · rw [Steps.run_cons, hbehind]
        rfl
      · have hflush := @behind_flush cfg { s with clientNoise := { s.clientNoise with
          receiveNonce := s.clientNoise.receiveNonce + 1 } } toDaemon rest u
        rw [hquiet, List.append_nil] at hflush
        exact hflush.symm
  · cases hstep

theorem validateHello_helloFrame : validateHello (helloFrame cfg) = .ok () := rfl

/-- The first frame is the client's hello, and it is accepted. -/
theorem Matches.greets (h : Matches cfg s toDaemon toClient) (hdaemon : s.daemon = .awaitHello) (id : SessionId)
    (hframe : s.clientSealed[0]? = some (.hello (helloFrame cfg))) :
    Matches cfg (Secure.daemonSeal cfg { s with
        daemonNoise := { s.daemonNoise with receiveNonce := s.daemonNoise.receiveNonce + 1 }
        accepted := some (helloFrame cfg, helloReply cfg (helloFrame cfg) id) }
      (.helloOk (helloReply cfg (helloFrame cfg) id)) .running) toDaemon toClient := by
  obtain ⟨hsealed, hzero, hnone⟩ := h.awaitHello hdaemon
  have hwaits := h.toDaemon
  rw [hzero] at hwaits
  have hopened : s.daemonNoise.receiveNonce + 1 ≤ s.clientSealed.length := by
    rw [hzero]
    exact opens hframe
  have hended : Matches cfg { s with
      daemonNoise := { s.daemonNoise with receiveNonce := s.daemonNoise.receiveNonce + 1 }
      accepted := some (helloFrame cfg, helloReply cfg (helloFrame cfg) id)
      daemon := .ended } toDaemon toClient := { h.daemonEnds with
    opened := ⟨hopened, h.opened.2⟩
    established := fun sid label hid => by
      obtain ⟨hello, ok, haccepted, _⟩ := h.established sid label hid
      rw [hnone] at haccepted
      cases haccepted
    reply := fun f hf => by
      rw [hsealed] at hf
      cases hf
    accepted := fun hello ok heq => by
      cases heq
      exact ⟨rfl, id, rfl⟩
    awaitHello := nofun
    running := nofun
    toDaemon := by
      rw [hzero]
      exact hwaits.greeted }
  rcases daemonSeal_cases cfg { s with
      daemonNoise := { s.daemonNoise with receiveNonce := s.daemonNoise.receiveNonce + 1 }
      accepted := some (helloFrame cfg, helloReply cfg (helloFrame cfg) id) }
    (.helloOk (helloReply cfg (helloFrame cfg) id)) .running (by rw [hdaemon]; decide) with heq | heq
  · rw [heq]
    exact hended
  · rw [heq]
    have hcount := h.counts.2
    rw [hsealed] at hcount
    have hquiet := h.toClient
    have hle := h.opened.2
    rw [hsealed] at hquiet hle
    exact { hended with
      counts := ⟨h.counts.1, by
        show s.daemonNoise.sendNonce + 1 = (s.daemonSealed ++ [_]).length
        rw [hsealed, hcount]
        rfl⟩
      opened := ⟨hopened, by
        show s.clientNoise.receiveNonce ≤ (s.daemonSealed ++ [_]).length
        exact Nat.le_trans h.opened.2 (by rw [List.length_append]; omega)⟩
      awaitHello := nofun
      running := fun _ => ⟨by
        show 1 ≤ (s.daemonSealed ++ [_]).length
        rw [List.length_append]
        exact Nat.le_add_left 1 _, Nat.succ_pos _⟩
      reply := fun f hf => by
        have hf' : (s.daemonSealed ++ [.helloOk (helloReply cfg (helloFrame cfg) id)])[0]? = some f := hf
        rw [hsealed] at hf'
        cases hf'
        exact ⟨_, _, rfl, rfl⟩
      toClient := by
        show Waits (s.daemonSealed ++ [_]) s.clientNoise.receiveNonce toClient _
        rw [hsealed]
        exact (hquiet.mono fun hc => absurd (hdaemon.symm.trans hc) nofun).greet _ }

theorem Matches.daemonReceive (h : Matches cfg s toDaemon toClient)
    (htyped : ∀ frame ∈ s.clientSealed ++ s.daemonSealed, frame.Typed) {bytes : List UInt8} {id : SessionId} {env : Env}
    (hgenuine : cfg.toDaemon.Authentic s.clientSealed bytes) {s' : Secure}
    (hstep : s.daemonReceive cfg bytes id env = some s') : ∃ moves t' toDaemon' toClient',
      run Talk.step (s.talk.behind toDaemon toClient) moves = some t' ∧ t' = s'.talk.behind toDaemon' toClient' ∧
        Matches cfg s' toDaemon' toClient' := by
  have hsealed : ∀ frame ∈ s.clientSealed, frame.Typed := fun frame hf => htyped frame (List.mem_append_left _ hf)
  have hdone : ∀ {s' : Secure}, s'.talk = s.talk → Matches cfg s' toDaemon toClient → ∃ moves t' toDaemon' toClient',
      run Talk.step (s.talk.behind toDaemon toClient) moves = some t' ∧ t' = s'.talk.behind toDaemon' toClient' ∧
        Matches cfg s' toDaemon' toClient' := by
    intro s' htalk hm
    exact ⟨[], _, toDaemon, toClient, rfl, by rw [htalk], hm⟩
  unfold Secure.daemonReceive at hstep
  split at hstep
  · next hdaemon =>
    obtain ⟨_, hzero, _⟩ := h.awaitHello hdaemon
    split at hstep
    · cases hstep
      exact hdone rfl h.daemonEnds
    · next daemonNoise hello hrecv =>
      obtain ⟨hframe, rfl⟩ := TransportState.recvFrame_authentic hsealed hgenuine hrecv
      have hfirst : s.clientSealed[0]? = some (.hello hello) := by rwa [hzero] at hframe
      have heq := h.hello _ hfirst
      cases heq
      rw [validateHello_helloFrame] at hstep
      cases hstep
      exact hdone (daemonSeal_talk cfg _ _ _) (h.greets hdaemon id hfirst)
    · next daemonNoise frame hother hrecv =>
      obtain ⟨hframe, rfl⟩ := TransportState.recvFrame_authentic hsealed hgenuine hrecv
      rw [hzero] at hframe
      obtain ⟨body⟩ := frame
      cases h.hello _ hframe
      exact absurd rfl (hother _)
  · next hdaemon =>
    split at hstep
    · split at hstep
      · cases hstep
        exact hdone rfl h.daemonEnds
      · next daemonNoise frame hrecv =>
        obtain ⟨hframe, rfl⟩ := TransportState.recvFrame_authentic hsealed hgenuine hrecv
        obtain ⟨hpos, hreceived⟩ := h.running hdaemon
        obtain ⟨rest, rfl, hwaits⟩ := h.toDaemon.receive hreceived hframe
        obtain ⟨u, hu, rfl⟩ := Option.map_eq_some_iff.mp hstep
        obtain ⟨hbehind, hquiet⟩ := Talk.step_daemonRecv_behind rest toClient h.idle.1 hu
        have hopened : Matches cfg { s with daemonNoise := { s.daemonNoise with
            receiveNonce := s.daemonNoise.receiveNonce + 1 } } rest toClient :=
          { h with
            opened := ⟨opens hframe, h.opened.2⟩
            awaitHello := fun hc => absurd (hdaemon.symm.trans hc) nofun
            running := fun _ => ⟨hpos, Nat.succ_pos _⟩
            toDaemon := hwaits }
        refine ⟨[.daemonRecv env], u.behind rest toClient, _, _, ?_, ?_, hopened.flush_daemon (.inl hdaemon) hquiet⟩
        · rw [Steps.run_cons, hbehind]
          rfl
        · have hflush := @behind_flush cfg { s with daemonNoise := { s.daemonNoise with
            receiveNonce := s.daemonNoise.receiveNonce + 1 } } rest toClient u
          rw [hquiet, List.append_nil] at hflush
          exact hflush.symm
    · cases hstep
  · cases hstep

/-- The client begins. -/
theorem Matches.clientHello (h : Matches cfg s toDaemon toClient) (hclient : s.client = .hello) :
    Matches cfg (s.clientSeal cfg (.hello (helloFrame cfg)) .awaitReply) toDaemon toClient := by
  obtain ⟨hsealed, hzero⟩ := h.start hclient
  rcases clientSeal_cases cfg s (.hello (helloFrame cfg)) .awaitReply (by rw [hclient]; decide) with heq | heq
  · rw [heq]
    exact h.clientEnds
  · rw [heq]
    have hcount := h.counts.1
    have hwaits := h.toDaemon
    rw [hsealed] at hcount hwaits ⊢
    exact { h with
      counts := ⟨congrArg (· + 1) hcount, h.counts.2⟩
      opened := ⟨Nat.le_trans h.opened.1 (by rw [hsealed]; exact Nat.zero_le _), h.opened.2⟩
      start := nofun
      awaitReply := fun _ => ⟨rfl, hzero⟩
      connected := nofun
      hello := fun f hf => by
        cases hf
        rfl
      silent := fun htwo => absurd htwo (by simp)
      toDaemon := (hwaits.mono fun hc => absurd (hclient.symm.trans hc) nofun).greet _ }

/-- **A move of the parties or of the network is a move of the parties over queues, or none.** -/
theorem simulates : Steps.Simulates (step cfg) (Permitted cfg) Talk.step (Simulated cfg) := by
  rintro s move s' t ⟨htyped, toDaemon, toClient, rfl, h⟩ ⟨hgenuine, htyped'⟩ hstep
  have hdone : ∀ moves t' toDaemon' toClient', run Talk.step (s.talk.behind toDaemon toClient) moves = some t' →
      t' = s'.talk.behind toDaemon' toClient' → Matches cfg s' toDaemon' toClient' →
      ∃ moves t', run Talk.step (s.talk.behind toDaemon toClient) moves = some t' ∧ Simulated cfg s' t' :=
    fun moves t' toDaemon' toClient' hrun heq hm => ⟨moves, t', hrun, htyped' s' hstep, toDaemon', toClient', heq, hm⟩
  cases move with
  | clientHello =>
    unfold step at hstep
    dsimp only at hstep
    split at hstep
    · next hclient =>
      cases hstep
      refine hdone [] _ toDaemon toClient rfl ?_ (h.clientHello hclient)
      exact congrArg (Talk.behind · toDaemon toClient) (clientSeal_talk cfg s _ _).symm
    · cases hstep
  | clientReceive bytes =>
    obtain ⟨moves, t', toDaemon', toClient', hrun, heq, hm⟩ := h.clientReceive htyped hgenuine hstep
    exact hdone moves t' toDaemon' toClient' hrun heq hm
  | clientEnds =>
    cases hstep
    exact hdone [] _ toDaemon toClient rfl rfl h.clientEnds
  | daemonReceive bytes id env =>
    obtain ⟨moves, t', toDaemon', toClient', hrun, heq, hm⟩ := h.daemonReceive htyped hgenuine hstep
    exact hdone moves t' toDaemon' toClient' hrun heq hm
  | daemonEnds =>
    cases hstep
    exact hdone [] _ toDaemon toClient rfl rfl h.daemonEnds
  | party move =>
    obtain ⟨t', toDaemon', toClient', hgo, heq, hm⟩ := h.party hstep
    refine hdone [move] t' toDaemon' toClient' ?_ heq hm
    rw [Steps.run_cons, hgo]
    rfl

theorem simulated_new (terminals : AList fun _ : TerminalId => Terminal) (maxTerminals scrollbackBytes : Nat) :
    Simulated cfg (new terminals maxTerminals scrollbackBytes) (Talk.new terminals maxTerminals scrollbackBytes) := by
  refine ⟨fun frame hf => absurd hf List.not_mem_nil, [], [], rfl, ?_⟩
  exact
    { idle := ⟨rfl, rfl⟩
      counts := ⟨rfl, rfl⟩
      opened := ⟨Nat.le_refl 0, Nat.le_refl 0⟩
      start := fun _ => ⟨rfl, rfl⟩
      awaitReply := nofun
      connected := nofun
      hello := nofun
      silent := nofun
      established := nofun
      awaitHello := fun _ => ⟨rfl, rfl, rfl⟩
      running := nofun
      reply := nofun
      accepted := nofun
      toDaemon := ⟨List.prefix_refl _, fun _ => rfl⟩
      toClient := ⟨List.prefix_refl _, fun _ => rfl⟩ }

/-! ## A sample -/

/-- Both directions under one key. -/
def sampleConfig : SecureConfig where
  toDaemon := .sample
  toClient := .sample
  resumeToken := none
  serverInfo := ⟨"0", none⟩

def sampleReply : FrameBody := .helloOk (helloReply sampleConfig (helloFrame sampleConfig) ⟨.splat 5⟩)

/-- A frame under its nonce. -/
def sampleMessage (n : Nat) (frame : FrameBody) : List UInt8 := Cipher.sample.encrypt n (encodeFrame ⟨frame⟩)

/-- The hellos, a ping, and its answer; and a message that comes again. -/
def sampleMoves : List Move :=
  [.clientHello, .daemonReceive (sampleMessage 0 (.hello (helloFrame sampleConfig))) ⟨.splat 5⟩ Talk.sampleEnv,
    .clientReceive (sampleMessage 0 sampleReply), .party (.ping 7),
    .daemonReceive (sampleMessage 1 (.ping 7)) ⟨.splat 5⟩ Talk.sampleEnv,
    .clientReceive (sampleMessage 1 (.pong 7)), .clientReceive (sampleMessage 1 (.pong 7))]

/-- The first `n` of these moves have been made. -/
def after (n : Nat) : Secure := (run (step sampleConfig) (new ∅ 8 8) (sampleMoves.take n)).getD (new ∅ 8 8)

theorem permitted_of {move : Move} {u : Secure} (hs : s.step cfg move = some u) (hgenuine : s.Genuine cfg move)
    {said heard : List FrameBody} (hsaid : u.clientSealed = said ∧ u.daemonSealed = heard)
    (htyped : ∀ frame ∈ said ++ heard, frame.Typed) : Permitted cfg s move := by
  refine ⟨hgenuine, fun t ht frame hf => htyped frame ?_⟩
  rw [hs] at ht
  cases ht
  rwa [hsaid.1, hsaid.2] at hf

theorem sample_typed : ∀ frame ∈ [FrameBody.hello (helloFrame sampleConfig), .ping 7] ++ [sampleReply, .pong 7],
    frame.Typed := by
  intro frame hf
  simp only [List.mem_cons, List.cons_append, List.nil_append, List.not_mem_nil, or_false] at hf
  rcases hf with rfl | rfl | rfl | rfl
  · exact ⟨by decide, by decide, nofun⟩
  · show 7 < 2 ^ 32
    decide
  · refine ⟨by decide, ?_, nofun⟩
    show (Utf8.encode "0").length < 2 ^ 64
    decide
  · show 7 < 2 ^ 32
    decide

/-- Some of these frames. -/
theorem sample_typed_of {said heard : List FrameBody} (hsaid : said <+: [.hello (helloFrame sampleConfig), .ping 7])
    (hheard : heard <+: [sampleReply, .pong 7]) : ∀ frame ∈ said ++ heard, frame.Typed := by
  intro frame hf
  refine sample_typed frame ?_
  rcases List.mem_append.mp hf with hf | hf
  · exact List.mem_append_left _ (hsaid.subset hf)
  · exact List.mem_append_right _ (hheard.subset hf)

set_option maxRecDepth 4000 in
theorem sample_meets : Meets (step sampleConfig) (Permitted sampleConfig) (new ∅ 8 8) sampleMoves := by
  have hnone : ([] : List FrameBody) <+: [sampleReply, .pong 7] := List.nil_prefix
  have hone : [FrameBody.hello (helloFrame sampleConfig)] <+: [.hello (helloFrame sampleConfig), .ping 7] :=
    ⟨[.ping 7], rfl⟩
  have hreply : [sampleReply] <+: [sampleReply, .pong 7] := ⟨[.pong 7], rfl⟩
  have hgreeted := sample_typed_of hone hreply
  have hasked := sample_typed_of (List.prefix_refl _) hreply
  have hanswered := sample_typed_of (List.prefix_refl _) (List.prefix_refl _)
  have hsealed : ∀ {frames : List FrameBody} {n : Nat} {frame : FrameBody}, n < 2 → frames[n]? = some frame →
      Cipher.sample.Authentic frames (sampleMessage n frame) :=
    fun hn => Cipher.sample_authentic (Nat.lt_trans hn (by decide))
  refine Steps.meets_cons (t := after 1) (permitted_of (u := after 1) rfl trivial ⟨rfl, rfl⟩
    (sample_typed_of hone hnone)) rfl ?_
  refine Steps.meets_cons (t := after 2) (permitted_of (u := after 2) rfl (hsealed (by decide) rfl) ⟨rfl, rfl⟩
    hgreeted) rfl ?_
  refine Steps.meets_cons (t := after 3) (permitted_of (u := after 3) rfl (hsealed (by decide) rfl) ⟨rfl, rfl⟩
    hgreeted) rfl ?_
  refine Steps.meets_cons (t := after 4) (permitted_of (u := after 4) rfl trivial ⟨rfl, rfl⟩ hasked) rfl ?_
  refine Steps.meets_cons (t := after 5) (permitted_of (u := after 5) rfl (hsealed (by decide) rfl) ⟨rfl, rfl⟩
    hanswered) rfl ?_
  refine Steps.meets_cons (t := after 6) (permitted_of (u := after 6) rfl (hsealed (by decide) rfl) ⟨rfl, rfl⟩
    hanswered) rfl ?_
  refine Steps.meets_cons (t := after 7) (permitted_of (u := after 7) rfl (hsealed (by decide) rfl) ⟨rfl, rfl⟩
    hanswered) rfl trivial

/-! ## Runs -/

section Runs

variable {terminals : AList fun _ : TerminalId => Terminal} {maxTerminals scrollbackBytes : Nat} {moves : List Move}

/-- **The parties do over the network what they do over queues**: what each has done is what it does in some run in
which every frame arrives once and in order, and what it has said and the other not yet heard is on its way there. -/
theorem refines_talk (hmeets : Meets (step cfg) (Permitted cfg) (new terminals maxTerminals scrollbackBytes) moves)
    (hrun : run (step cfg) (new terminals maxTerminals scrollbackBytes) moves = some s) :
    ∃ talkMoves t, run Talk.step (Talk.new terminals maxTerminals scrollbackBytes) talkMoves = some t ∧
      s.talk = { t with toDaemon := [], toClient := [] } ∧
      s.clientSealed.drop (max 1 s.daemonNoise.receiveNonce) <+: t.toDaemon ∧
      s.daemonSealed.drop (max 1 s.clientNoise.receiveNonce) <+: t.toClient := by
  obtain ⟨talkMoves, t, htalk, _, toDaemon, toClient, rfl, h⟩ :=
    simulates.run (simulated_new terminals maxTerminals scrollbackBytes) hmeets hrun
  obtain ⟨hdaemon, hclient⟩ := h.idle
  refine ⟨talkMoves, _, htalk, ?_, ?_, ?_⟩
  · obtain ⟨⟨client, failed, own, peer, d, acks, accepted, forgotten⟩⟩ := s
    cases hdaemon
    cases hclient
    rfl
  · exact h.toDaemon.front.trans (List.prefix_append _ _)
  · exact h.toClient.front.trans (List.prefix_append _ _)

theorem refines_talk_sample : ∃ talkMoves t, run Talk.step (Talk.new ∅ 8 8) talkMoves = some t ∧
    (after 7).talk = { t with toDaemon := [], toClient := [] } ∧
    (after 7).clientSealed.drop (max 1 (after 7).daemonNoise.receiveNonce) <+: t.toDaemon ∧
    (after 7).daemonSealed.drop (max 1 (after 7).clientNoise.receiveNonce) <+: t.toClient :=
  refines_talk sample_meets rfl

/-- **Client and daemon agree on their session.** A client that has been told of a session has been told of it by the
daemon; the daemon has accepted that client's hello, and speaks its version; it says nothing before that, and the client
nothing but its hello before it has been told. -/
theorem hello_agreement (hmeets : Meets (step cfg) (Permitted cfg) (new terminals maxTerminals scrollbackBytes) moves)
    (hrun : run (step cfg) (new terminals maxTerminals scrollbackBytes) moves = some s) :
    (∀ id label, s.established = some (id, label) →
      ∃ hello ok, s.accepted = some (hello, ok) ∧ ok.sessionId = id ∧ ok.serverInfo.serverLabel = label) ∧
    (∀ hello ok, s.accepted = some (hello, ok) → hello = helloFrame cfg ∧ ok.protocol = protocolVersion ∧
      ok.serverInfo = cfg.serverInfo ∧ ok.resumed = cfg.resumeToken.isSome) ∧
    (s.daemonSealed ≠ [] → s.accepted.isSome) ∧
    (∀ frame, s.clientSealed.head? = some frame → frame = .hello (helloFrame cfg)) ∧
    (2 ≤ s.clientSealed.length → s.established.isSome) := by
  obtain ⟨_, _, _, _, toDaemon, toClient, _, h⟩ :=
    simulates.run (simulated_new terminals maxTerminals scrollbackBytes) hmeets hrun
  refine ⟨h.established, ?_, ?_, fun frame hframe => h.hello frame (List.head?_eq_getElem?.symm.trans hframe), h.silent⟩
  · intro hello ok haccepted
    obtain ⟨rfl, id, rfl⟩ := h.accepted hello ok haccepted
    exact ⟨rfl, rfl, rfl, rfl⟩
  · intro hsaid
    cases hsealed : s.daemonSealed with
    | nil => exact absurd hsealed hsaid
    | cons frame rest =>
      obtain ⟨_, _, haccepted, _⟩ := h.reply frame (by rw [hsealed]; rfl)
      rw [haccepted]
      rfl

theorem hello_agreement_sample : (after 7).established = some (⟨.splat 5⟩, none) ∧
    ∃ hello ok, (after 7).accepted = some (hello, ok) ∧ ok.sessionId = ⟨.splat 5⟩ ∧ ok.serverInfo.serverLabel = none :=
  ⟨rfl, (hello_agreement sample_meets rfl).1 _ _ rfl⟩

end Runs

end Secure

end CliPocket
