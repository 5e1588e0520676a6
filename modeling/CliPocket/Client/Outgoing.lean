import CliPocket.Client.Replies
import CliPocket.Proto.Sizes

/-!
# What a session sends

- `Session.outgoing`: the frame that a move seals, if any (`step_outgoing`);
- `Session.room`: whether what the move has to send leaves it room in a Noise message;
- `fitsNoise_iff_room`: **the frame fits exactly then.**
-/

namespace CliPocket

open Saturating (u16Max u32Max u64Max)

/-! ## Numbers -/

/-- The numbers of a request are those of their types. -/
def RequestBody.inRange : RequestBody → Bool
  | .createTerminal params => params.cols ≤ u16Max && params.rows ≤ u16Max
  | .readHistory _ before maxBytes => before.all (· ≤ u64Max) && maxBytes ≤ u32Max
  | .setServerConfig config => config.scrollbackBytes ≤ u32Max
  | .resizeTerminal _ cols rows => cols ≤ u16Max && rows ≤ u16Max
  | _ => true

/-- The numbers of a frame are those of their types. -/
def FrameBody.inRange : FrameBody → Bool
  | .request ⟨id, body⟩ => id ≤ u32Max && body.inRange
  | .ping nonce | .pong nonce => nonce ≤ u64Max
  | _ => true

/-! ## Requests -/

/-- Room for `size` bytes of a request's body. -/
def requestRoom (id : RequestId) (size : Nat) : Bool := 1 + uintSize id + size ≤ frameRoom

/-- Room for `size` bytes of input. -/
def inputRoom (id : RequestId) (size : Nat) : Bool := requestRoom id (1 + uuidSize + (uintSize size + size))

/-- Room for a command. -/
def SessionCommand.room (id : RequestId) : SessionCommand → Bool
  | .createTerminal params _ => requestRoom id (1 + params.size)
  | _ => true

/-- The input of a command. -/
def TerminalCmd.inputBytes : TerminalCmd → Nat
  | .input _ bytes => bytes.length
  | _ => 0

/-- The input for `terminal` at the front of a queue. -/
def inputRun (terminal : TerminalId) : List TerminalCmd → Nat
  | .input other bytes :: rest => if terminal = other then bytes.length + inputRun terminal rest else 0
  | _ => 0

/-- The input for one terminal at the front of a queue. -/
def leadingInput : List TerminalCmd → Nat
  | .input terminal bytes :: rest => bytes.length + inputRun terminal rest
  | _ => 0

theorem fitsNoise_request (request : RequestFrame) :
    fitsNoise (.request request) ↔ requestRoom request.id request.body.size = true := by
  rw [fitsNoise_iff_size (length_request request)]
  unfold requestRoom
  rw [decide_eq_true_iff]

/-- Requests of identifiers and numbers alone. -/
def RequestBody.plain : RequestBody → Bool
  | .createTerminal _ | .sendInput _ _ => false
  | _ => true

theorem RequestBody.size_le {body : RequestBody} (hplain : body.plain = true) (hrange : body.inRange = true) :
    body.size ≤ 60 := by
  cases body with
  | createTerminal | sendInput => cases hplain
  | listTerminals | openTerminal | killTerminal | getServerConfig => exact of_decide_eq_true rfl
  | readHistory terminal before maxBytes =>
    simp only [RequestBody.inRange, Bool.and_eq_true, decide_eq_true_iff] at hrange
    have hmax : uintSize maxBytes ≤ 10 := uintSize_le (Nat.lt_of_le_of_lt hrange.2 (by decide))
    have hbefore : optionSize uintSize before ≤ 11 := by
      cases before with
      | none => exact of_decide_eq_true rfl
      | some n =>
        have hn : uintSize n ≤ 10 := uintSize_le (Nat.lt_of_le_of_lt (of_decide_eq_true hrange.1) (by decide))
        show 1 + uintSize n ≤ 11
        omega
    show 1 + 17 + optionSize uintSize before + uintSize maxBytes ≤ 60
    omega
  | setServerConfig config =>
    have hbytes : uintSize config.scrollbackBytes ≤ 10 := uintSize_le (Nat.lt_of_le_of_lt (of_decide_eq_true hrange) (by decide))
    show 1 + uintSize config.scrollbackBytes ≤ 60
    omega
  | resizeTerminal terminal cols rows =>
    simp only [RequestBody.inRange, Bool.and_eq_true, decide_eq_true_iff] at hrange
    have hcols : uintSize cols ≤ 10 := uintSize_le (Nat.lt_of_le_of_lt hrange.1 (by decide))
    have hrows : uintSize rows ≤ 10 := uintSize_le (Nat.lt_of_le_of_lt hrange.2 (by decide))
    show 1 + 17 + uintSize cols + uintSize rows ≤ 60
    omega

theorem requestRoom_of_le {id : RequestId} {size : Nat} (hid : id ≤ u32Max) (hsize : size ≤ 60) :
    requestRoom id size = true := by
  have hlength : uintSize id ≤ 10 := uintSize_le (Nat.lt_of_le_of_lt hid (by decide))
  unfold requestRoom frameRoom noiseMaxMsgLen noiseTagLen
  rw [decide_eq_true_iff]
  omega

theorem FrameBody.request_inRange {request : RequestFrame} :
    (FrameBody.request request).inRange = true ↔ request.id ≤ u32Max ∧ request.body.inRange = true := by
  obtain ⟨id, body⟩ := request
  simp only [FrameBody.inRange, Bool.and_eq_true, decide_eq_true_iff]

/-- **A command of the session.** -/
theorem fitsNoise_sessionCommand {c d : ClientConn} {cmd : SessionCommand} {request : RequestFrame}
    (h : c.frameForSessionCommand cmd = some (d, request)) (hrange : (FrameBody.request request).inRange = true) :
    fitsNoise (.request request) ↔ cmd.room request.id = true := by
  obtain ⟨hid, hbody⟩ := FrameBody.request_inRange.mp hrange
  rw [fitsNoise_request]
  cases cmd with
  | createTerminal params reply =>
    cases h
    exact Iff.rfl
  | shutdown => cases h
  | openTerminal | listTerminals | readHistory | getServerConfig | setServerConfig | killTerminal =>
    cases h
    exact iff_of_true (requestRoom_of_le hid (RequestBody.size_le rfl hbody)) rfl

/-- **A command of a terminal.** -/
theorem fitsNoise_terminalCmd {c d : ClientConn} {cmd : TerminalCmd} {request : RequestFrame}
    (h : c.frameForCommand cmd = some (d, request)) (hrange : (FrameBody.request request).inRange = true) :
    fitsNoise (.request request) ↔ inputRoom request.id cmd.inputBytes = true := by
  obtain ⟨hid, hbody⟩ := FrameBody.request_inRange.mp hrange
  rw [fitsNoise_request]
  cases cmd with
  | input terminal bytes =>
    obtain ⟨handle, _, heq⟩ := Option.map_eq_some_iff.mp h
    cases heq
    exact Iff.rfl
  | resize | kill =>
    obtain ⟨handle, _, heq⟩ := Option.map_eq_some_iff.mp h
    cases heq
    exact iff_of_true (requestRoom_of_le hid (RequestBody.size_le rfl hbody)) (requestRoom_of_le hid (of_decide_eq_true rfl))

/-! ## Merged input -/

theorem coalesceInput_head : ∀ (cmds : List TerminalCmd) (terminal : TerminalId) (bytes : List UInt8),
    ∃ merged rest, coalesceInput (.input terminal bytes) cmds = .input terminal merged :: rest ∧
      merged.length = bytes.length + inputRun terminal cmds
  | [], terminal, bytes => ⟨bytes, [], rfl, rfl⟩
  | .input other more :: rest, terminal, bytes => by
    unfold coalesceInput tryMergeInputCommand inputRun
    dsimp only
    by_cases hsame : terminal = other
    · obtain ⟨merged, rest', heq, hlength⟩ := coalesceInput_head rest terminal (bytes ++ more)
      rw [if_pos hsame, if_pos hsame]
      refine ⟨merged, rest', heq, ?_⟩
      rw [hlength, List.length_append, Nat.add_assoc]
    · rw [if_neg hsame, if_neg hsame]
      exact ⟨bytes, _, rfl, rfl⟩
  | .resize _ _ _ :: rest, terminal, bytes => ⟨bytes, _, rfl, rfl⟩
  | .kill _ :: rest, terminal, bytes => ⟨bytes, _, rfl, rfl⟩

/-- **The front is the input at the front of the queue.** -/
theorem coalescePendingInputFront_head {cmds rest : List TerminalCmd} {cmd : TerminalCmd}
    (h : coalescePendingInputFront cmds = cmd :: rest) : cmd.inputBytes = leadingInput cmds := by
  unfold coalescePendingInputFront at h
  split at h
  · cases h
  · next front queue =>
    cases front with
    | input terminal bytes =>
      obtain ⟨merged, rest', heq, hlength⟩ := coalesceInput_head queue terminal bytes
      cases heq.symm.trans h
      exact hlength
    | resize | kill =>
      cases queue <;> cases h <;> rfl

/-! ## Answers -/

/-- A response is answered by nothing. -/
theorem ClientConn.handleResponseFrame_send {c d : ClientConn} {response : ResponseFrame} {out : FrameBody}
    (h : c.handleResponseFrame response = .ok (d, .send out)) : False := by
  unfold handleResponseFrame complete at h
  dsimp only at h
  split at h
  · cases hfail : c.failRequest response.id (.proto _) with
    | error e =>
      rw [hfail] at h
      cases h
    | ok c =>
      rw [hfail] at h
      cases h
  · split at h
    -- an open has its own checks, and so has a page
    case h_3 | h_4 =>
      split at h
      · split at h <;> cases h
      · cases h
    all_goals split at h <;> cases h

namespace Session

variable {s t : Session} {c : Connection}

/-! ## Moves -/

/-- What a move sends that is no request: a ping that is due, or the answer to a frame. -/
def unasked (s : Session) (move : ConnMove) : Option FrameBody :=
  match s.phase, move with
  | .connected c, .turn nowMs nonce | .connected c, .poll nowMs nonce =>
    match (c.heartbeat.poll nowMs nonce).2 with
    | .sendPing nonce => some (.ping nonce)
    | _ => none
  | .connected _, .frame frame _ =>
    match s.client.handleInboundFrame frame with
    | .ok (_, .send frame) => some frame
    | _ => none
  | _, _ => none

/-- The frame that a move is going to seal. -/
def outgoing (s : Session) : Move → Option FrameBody
  | .setup .handshaken =>
    match s.phase with
    | .setup .handshaking => some s.helloFrame
    | _ => none
  | .conn move => ((s.framed move).map .request).or (s.unasked move)
  | _ => none

/-- Whether there is room for what a move has to send. -/
def room (s : Session) : Move → Bool
  | .setup .handshaken => 3 + optionSize ResumeToken.size s.resumeToken ≤ frameRoom
  | .conn (.turn nowMs nonce) =>
    match s.phase with
    | .connected c =>
      match (c.heartbeat.poll nowMs nonce).2, s.pendingSessionCmds with
      | .wait, cmd :: _ => cmd.room s.client.nextRequestId
      | .wait, [] => inputRoom s.client.nextRequestId (leadingInput s.pendingCmds)
      | _, _ => true
    | _ => true
  | .conn .sessionCmd => s.sessionCmds.head?.all (SessionCommand.room s.client.nextRequestId)
  | .conn .batched =>
    match s.phase with
    | .connected c =>
      match c.wait with
      | .batching cmd _ => inputRoom s.client.nextRequestId cmd.inputBytes
      | _ => true
    | _ => true
  | _ => true

/-! ## Room -/

theorem fitsNoise_helloFrame (s : Session) :
    fitsNoise s.helloFrame ↔ 3 + optionSize ResumeToken.size s.resumeToken ≤ frameRoom :=
  fitsNoise_iff_size (length_hello _)

theorem fitsNoise_framed_sessionCommand {cmd : SessionCommand} {request : RequestFrame}
    (h : (s.client.frameForSessionCommand cmd).map Prod.snd = some request)
    (hrange : (FrameBody.request request).inRange = true) :
    fitsNoise (.request request) ↔ cmd.room s.client.nextRequestId = true := by
  obtain ⟨⟨client, _⟩, hframed, rfl⟩ := Option.map_eq_some_iff.mp h
  obtain ⟨txn, hrecord, _⟩ := ClientConn.frameForSessionCommand_spec hframed
  rw [fitsNoise_sessionCommand hframed hrange]
  rw [show _ = s.client.nextRequestId from hrecord.id]

theorem fitsNoise_framed_cmd {cmd : TerminalCmd} {request : RequestFrame}
    (h : (s.client.frameForCommand cmd).map Prod.snd = some request)
    (hrange : (FrameBody.request request).inRange = true) :
    fitsNoise (.request request) ↔ inputRoom s.client.nextRequestId cmd.inputBytes = true := by
  obtain ⟨⟨client, _⟩, hframed, rfl⟩ := Option.map_eq_some_iff.mp h
  obtain ⟨txn, hrecord, _⟩ := ClientConn.frameForCommand_spec hframed
  rw [fitsNoise_terminalCmd hframed hrange]
  rw [show _ = s.client.nextRequestId from hrecord.id]

/-- **A request that a move sends.** -/
theorem fitsNoise_framed {move : ConnMove} {request : RequestFrame} (h : s.framed move = some request)
    (hrange : (FrameBody.request request).inRange = true) :
    fitsNoise (.request request) ↔ s.room (.conn move) = true := by
  unfold framed at h
  split at h
  · next c nowMs nonce hphase =>
    unfold room
    rw [hphase]
    dsimp only
    split at h
    · next hpoll =>
      rw [hpoll]
      split at h
      · next cmd rest hpending =>
        rw [hpending]
        exact fitsNoise_framed_sessionCommand h hrange
      · next hpending =>
        rw [hpending]
        obtain ⟨cmd, hhead, hframed⟩ := Option.bind_eq_some_iff.mp h
        obtain ⟨rest, hcmds⟩ := List.head?_eq_some_iff.mp hhead
        rw [fitsNoise_framed_cmd hframed hrange, coalescePendingInputFront_head hcmds]
    · cases h
  · obtain ⟨cmd, hhead, hframed⟩ := Option.bind_eq_some_iff.mp h
    unfold room
    rw [hhead]
    exact fitsNoise_framed_sessionCommand hframed hrange
  · obtain ⟨cmd, hhead, hframed⟩ := Option.bind_eq_some_iff.mp h
    split at hframed
    · cases hframed
    · next hinput =>
      rw [fitsNoise_framed_cmd hframed hrange]
      have hid : request.id ≤ u32Max := (FrameBody.request_inRange.mp hrange).1
      have hnone : cmd.inputBytes = 0 := by
        cases cmd with
        | input terminal bytes => exact absurd rfl (hinput terminal bytes)
        | resize | kill => rfl
      obtain ⟨⟨client, _⟩, hcmd, rfl⟩ := Option.map_eq_some_iff.mp hframed
      obtain ⟨txn, hrecord, _⟩ := ClientConn.frameForCommand_spec hcmd
      rw [hnone, ← show _ = s.client.nextRequestId from hrecord.id]
      exact iff_of_true (requestRoom_of_le hid (by decide)) rfl
  · next c hphase =>
    unfold room
    rw [hphase]
    dsimp only
    cases hwait : c.wait with
    | batching cmd deferred =>
      rw [hwait] at h
      exact fitsNoise_framed_cmd h hrange
    | top | sending | selecting | emitting =>
      rw [hwait] at h
      cases h
  · cases h

/-- An answer to a frame is a pong. -/
theorem handleInboundFrame_pong {client client' : ClientConn} {frame out : FrameBody}
    (h : client.handleInboundFrame frame = .ok (client', .send out)) : ∃ nonce, out = .pong nonce := by
  by_cases hframe : ∀ response, frame ≠ .response response
  · exact ClientConn.handleInboundFrame_send h hframe
  · obtain ⟨response, hresponse⟩ := not_forall_not.mp hframe
    subst hresponse
    exact (ClientConn.handleResponseFrame_send h).elim

/-- Frames that are no requests fit. -/
theorem fitsNoise_unasked {move : ConnMove} {frame : FrameBody} (h : s.unasked move = some frame)
    (hrange : frame.inRange = true) : fitsNoise frame ∧ (s.framed move = none → s.room (.conn move) = true) := by
  have hping : ∀ nonce, (FrameBody.ping nonce).inRange = true → fitsNoise (.ping nonce) ∧ fitsNoise (.pong nonce) :=
    fun nonce hnonce => fitsNoise_ping (Nat.lt_of_le_of_lt (of_decide_eq_true hnonce) (by decide))
  unfold unasked at h
  split at h
  · next c nowMs nonce hphase =>
    split at h
    · next hpoll =>
      cases h
      refine ⟨(hping _ hrange).1, fun _ => ?_⟩
      unfold room
      rw [hphase]
      dsimp only
      rw [hpoll]
    · cases h
  · split at h
    · cases h
      exact ⟨(hping _ hrange).1, fun _ => rfl⟩
    · cases h
  · split at h
    · next client out hhandle =>
      cases h
      obtain ⟨nonce, rfl⟩ := handleInboundFrame_pong hhandle
      exact ⟨(hping nonce hrange).2, fun _ => rfl⟩
    · cases h
  · cases h

/-- **A frame fits when there is room.** -/
theorem fitsNoise_iff_room {move : Move} {frame : FrameBody} (h : s.outgoing move = some frame)
    (hrange : frame.inRange = true) : fitsNoise frame ↔ s.room move = true := by
  unfold outgoing at h
  split at h
  · split at h
    · cases h
      rw [fitsNoise_helloFrame]
      exact decide_eq_true_iff.symm
    · cases h
  · next move =>
    cases hframed : s.framed move with
    | some request =>
      rw [hframed] at h
      cases h
      exact fitsNoise_framed hframed hrange
    | none =>
      rw [hframed] at h
      obtain ⟨hfits, hroom⟩ := fitsNoise_unasked h hrange
      exact iff_of_true hfits (hroom hframed)
  · cases h

/-! ## What becomes of a frame -/

/-- The frame is sealed, or the connection ends and the commands that wait stay. -/
def Tries (s : Session) (frame : FrameBody) (t : Session) : Prop :=
  (fitsNoise frame ∧ ∃ earlier nonce, t.link.encrypted = earlier ++ [⟨nonce, frame⟩]) ∨
    ∃ (u : Session) (reached : Bool) (noise : NoiseSession) (e : NoiseError), noise.encrypt frame = .error e ∧
      t = u.finish reached (.error (.crypto e.toMessage)) ∧ ∀ cmd ∈ s.pendingSessionCmds, cmd ∈ u.pendingSessionCmds

/-- What a move has sealed. -/
def Sends (s : Session) (out : Option FrameBody) (t : Session) : Prop :=
  match out with
  | none => t.link.encrypted = s.link.encrypted
  | some frame => s.Tries frame t

theorem Tries.of_pending {u : Session} {frame : FrameBody} (h : u.Tries frame t)
    (hpending : ∀ cmd ∈ s.pendingSessionCmds, cmd ∈ u.pendingSessionCmds) : s.Tries frame t :=
  h.imp_right fun ⟨v, reached, noise, e, he, ht, hv⟩ => ⟨v, reached, noise, e, he, ht, fun cmd hcmd => hv cmd (hpending cmd hcmd)⟩

theorem encrypt_eq_error {frame : FrameBody} {error : ClientError} (h : s.encrypt frame = .error error) :
    ∃ e, s.link.noise.encrypt frame = .error e ∧ error = .crypto e.toMessage := by
  unfold encrypt at h
  split at h
  · next e he =>
    cases h
    exact ⟨e, he, rfl⟩
  · cases h

/-- A frame that is refused. -/
theorem tries_finish {frame : FrameBody} {error : ClientError} (h : s.encrypt frame = .error error) (reached : Bool) :
    s.Tries frame (s.finish reached (.error error)) := by
  obtain ⟨e, he, rfl⟩ := encrypt_eq_error h
  exact .inr ⟨s, reached, s.link.noise, e, he, rfl, fun _ hcmd => hcmd⟩

/-- A frame that is sealed. -/
theorem tries_encrypt {u : Session} {frame : FrameBody} {ciphertext : Ciphertext} (h : s.encrypt frame = .ok (u, ciphertext))
    (hlink : t.link = u.link) : s.Tries frame t := by
  obtain ⟨rfl, hfits, rfl⟩ := encrypt_eq_ok h
  refine .inl ⟨hfits, s.link.encrypted, s.link.noise.sendNonce, ?_⟩
  rw [hlink]

theorem tries_startSend (s : Session) (c : Connection) (frame : FrameBody) (after : AfterSend) :
    s.Tries frame (s.startSend c frame after) := by
  unfold startSend
  split
  · next he => exact tries_finish he true
  · next he => exact tries_encrypt he rfl

theorem sends_sendSessionCmd {cmd : SessionCommand} (h : s.sendSessionCmd c cmd = some t) :
    s.Sends ((s.client.frameForSessionCommand cmd).map fun framed => .request framed.2) t := by
  obtain ⟨⟨client, request⟩, hframed, rfl⟩ := Option.map_eq_some_iff.mp h
  rw [hframed]
  exact (tries_startSend _ c _ _).of_pending fun _ hcmd => hcmd

theorem sends_sendCmd (s : Session) (c : Connection) (cmd : TerminalCmd) :
    s.Sends ((s.client.frameForCommand cmd).map fun framed => .request framed.2) (s.sendCmd c cmd) := by
  unfold sendCmd
  split
  · next client request hframed =>
    rw [hframed]
    exact (tries_startSend _ c _ _).of_pending fun _ hcmd => hcmd
  · next hframed =>
    rw [hframed]
    exact rfl

/-- With other commands waiting. -/
theorem Sends.of_same {u : Session} {out : Option FrameBody} (h : u.Sends out t) (hlink : u.link = s.link)
    (hpending : ∀ cmd ∈ s.pendingSessionCmds, cmd ∈ u.pendingSessionCmds) : s.Sends out t := by
  cases out with
  | none => exact h.trans (congrArg Link.encrypted hlink)
  | some frame => exact Tries.of_pending h hpending

/-- A move that has a request to send. -/
theorem sends_framed {out : Option (ClientConn × RequestFrame)} {other : Option FrameBody}
    (h : s.Sends (out.map fun framed => .request framed.2) t) (hother : other = none) :
    s.Sends (((out.map Prod.snd).map .request).or other) t := by
  subst hother
  cases out with
  | none => exact h
  | some framed => exact h

theorem finish_encrypted (s : Session) (reached : Bool) (outcome : Except ClientError Unit) :
    (s.finish reached outcome).link.encrypted = s.link.encrypted := congrArg Link.encrypted (finish_link s reached outcome).1

theorem sends_turn {nowMs nonce : Nat} (hphase : s.phase = .connected c) (h : s.turn c nowMs nonce = some t) :
    s.Sends (s.outgoing (.conn (.turn nowMs nonce))) t := by
  unfold turn at h
  unfold outgoing framed unasked
  rw [hphase]
  dsimp only
  rcases c.heartbeat.poll_cases nowMs nonce with hpoll | hpoll | hpoll
  all_goals rw [hpoll] at h ⊢; dsimp only at h ⊢
  · split at h
    · next he =>
      cases h
      exact tries_finish he true
    · next he =>
      cases h
      exact tries_encrypt he rfl
  · cases h
    exact rfl
  · cases hpending : s.pendingSessionCmds with
    | cons cmd rest =>
      rw [hpending] at h
      exact sends_framed (sends_sendSessionCmd h) rfl
    | nil =>
      rw [hpending] at h
      dsimp only at h ⊢
      cases hcmds : coalescePendingInputFront s.pendingCmds with
      | cons cmd rest =>
        rw [hcmds] at h
        cases h
        have hsend := sends_sendCmd { s with pendingCmds := cmd :: rest, pendingSessionCmds := [] } c cmd
        exact (sends_framed hsend rfl).of_same rfl fun _ hcmd => hpending ▸ hcmd
      | nil =>
        rw [hcmds] at h
        cases h
        exact rfl

theorem sends_inbound {frame : FrameBody} {nowMs : Nat} (hphase : s.phase = .connected c) (d : Connection) :
    s.Sends (s.outgoing (.conn (.frame frame nowMs))) (s.inbound d frame) := by
  unfold inbound outgoing framed unasked
  rw [hphase]
  dsimp only
  cases hhandle : s.client.handleInboundFrame frame with
  | error e => exact finish_encrypted _ _ _
  | ok handled =>
    obtain ⟨client, action⟩ := handled
    cases action with
    | send out => exact (tries_startSend _ _ _ _).of_pending fun _ hcmd => hcmd
    | emit event => exact rfl
    | «return» result => exact finish_encrypted _ _ _
    | none => exact rfl

theorem sends_pollRecv {nowMs nonce : Nat} (hphase : s.phase = .connected c) :
    s.Sends (s.outgoing (.conn (.poll nowMs nonce))) (s.pollRecv c nowMs nonce) := by
  unfold pollRecv outgoing framed unasked
  rw [hphase]
  dsimp only
  rcases c.heartbeat.poll_cases nowMs nonce with hpoll | hpoll | hpoll
  all_goals rw [hpoll]; dsimp only
  · split
    · next he => exact tries_finish he true
    · next he => exact tries_encrypt he rfl
  · exact rfl
  · exact rfl

/-- The other moves have nothing to send. -/
theorem sends_recvMove {recv : RecvFuture} {move : ConnMove} (hphase : s.phase = .connected c)
    (h : s.recvMove c recv move = some t) : s.Sends (s.outgoing (.conn move)) t := by
  unfold recvMove at h
  split at h
  all_goals cases h
  · exact sends_pollRecv hphase
  case h_5 => exact sends_inbound hphase _
  all_goals
    unfold outgoing framed unasked
    rw [hphase]
  · exact rfl
  · exact finish_encrypted _ _ _
  · exact rfl
  · exact finish_encrypted _ _ _
  · exact finish_encrypted _ _ _
  · exact finish_encrypted _ _ _

/-- **The select.** -/
theorem sends_selectStep {recv : RecvFuture} {move : ConnMove} (hphase : s.phase = .connected c)
    (h : s.selectStep c recv move = some t) : s.Sends (s.outgoing (.conn move)) t := by
  unfold selectStep at h
  split at h
  · have hout : s.outgoing (.conn .sessionCmd) =
        ((s.sessionCmds.head?.bind fun cmd => (s.client.frameForSessionCommand cmd).map Prod.snd).map .request).or none := by
      unfold outgoing framed unasked
      rw [hphase]
    rw [hout]
    split at h
    · cases h
    · next hcmds =>
      cases h
      rw [hcmds]
      exact finish_encrypted _ _ _
    · next cmd rest _ hcmds =>
      rw [hcmds]
      exact (sends_framed (sends_sendSessionCmd h) rfl).of_same rfl fun _ hcmd => List.mem_append_left _ hcmd
  · split at h
    · cases h
      unfold outgoing framed unasked
      rw [hphase]
      exact finish_encrypted _ _ _
    · cases h
  · split at h
    · cases h
    · unfold outgoing framed unasked
      rw [hphase]
      dsimp only
      cases hcmds : s.cmds with
      | nil =>
        rw [hcmds] at h
        cases h
      | cons cmd cmds =>
        rw [hcmds] at h
        have hsend := sends_sendCmd { s with cmds, pendingCmds := s.pendingCmds ++ [cmd] } c cmd
        cases cmd with
        | input terminal bytes =>
          cases h
          exact rfl
        | resize | kill =>
          cases h
          exact (sends_framed hsend rfl).of_same rfl fun _ hcmd => hcmd
  · split at h
    · cases h
    · exact sends_recvMove hphase h

/-- **A move of a live connection.** -/
theorem sends_connStep {move : ConnMove} (hs : s.connStep move = some t) : s.Sends (s.outgoing (.conn move)) t := by
  unfold connStep at hs
  split at hs
  · next c hphase =>
    split at hs
    · exact sends_turn hphase hs
    · next ciphertext after hwait =>
      cases hs
      unfold outgoing framed unasked
      rw [hphase]
      cases after <;> exact rfl
    · cases hs
      unfold outgoing framed unasked
      rw [hphase]
      exact finish_encrypted _ _ _
    · cases hs
      unfold outgoing framed unasked
      rw [hphase]
      exact rfl
    · unfold outgoing framed unasked
      rw [hphase]
      split at hs
      · cases hs
      · split at hs <;> cases hs <;> exact rfl
    · next cmd deferred hwait =>
      cases hs
      have hout : s.outgoing (.conn .batched) =
          (((s.client.frameForCommand cmd).map Prod.snd).map .request).or none := by
        unfold outgoing framed unasked
        rw [hphase]
        dsimp only
        rw [hwait]
      have hsend := sends_sendCmd { s with pendingCmds := s.pendingCmds ++ cmd :: deferred } c cmd
      rw [hout]
      exact (sends_framed hsend rfl).of_same rfl fun _ hcmd => hcmd
    · exact sends_selectStep hphase hs
    · cases hs
  · cases hs

theorem sends_setupStep {move : SetupMove} (hs : s.setupStep move = some t) : s.Sends (s.outgoing (.setup move)) t := by
  unfold setupStep at hs
  split at hs
  · next setup hphase =>
    split at hs
    · have hout : s.outgoing (.setup .handshaken) = some s.helloFrame := by
        unfold outgoing
        rw [hphase]
      rw [hout]
      split at hs
      · next he =>
        cases hs
        obtain ⟨e, hnoise, rfl⟩ := encrypt_eq_error he
        exact .inr ⟨s, false, {}, e, hnoise, rfl, fun _ hcmd => hcmd⟩
      · next he =>
        cases hs
        exact tries_encrypt (s := { s with link := {} }) he rfl
    all_goals cases hs
    · exact rfl
    · exact finish_encrypted _ _ _
    · exact rfl
    · exact finish_encrypted _ _ _
    · exact rfl
  · cases hs

theorem loopStep_encrypted {move : LoopMove} (hs : s.loopStep move = some t) : t.link.encrypted = s.link.encrypted := by
  have htop : s.top.link = s.link := by
    unfold top
    split <;> rfl
  unfold loopStep at hs
  split at hs
  · cases hs
    rw [htop]
  · cases hs
    rfl
  · cases hs
    rfl
  · split at hs <;> cases hs <;> rfl
  · cases hs
    exact finish_encrypted _ _ _
  · cases hs
    rfl
  · split at hs <;> cases hs <;> rfl
  · cases hs
    rw [htop]
  · cases hs

/-- **Every frame that is sealed is the one that the move has to send.** -/
theorem sends_step {move : Move} (hs : s.step move = some t) : s.Sends (s.outgoing move) t := by
  cases move with
  | caller move => exact congrArg Link.encrypted (callerStep_link hs).1
  | loop move => exact loopStep_encrypted hs
  | setup move => exact sends_setupStep hs
  | conn move => exact sends_connStep hs

end Session

end CliPocket
