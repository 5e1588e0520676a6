import CliPocket.Daemon.Connection

/-!
# What the steps of a connection do

One inversion lemma for each step of the daemon's side of a connection.

- `handleRequest_work`: requests that open nothing leave the streams alone, and open nothing;
- `receiveFrame_cases`, `openStep_cases`, `output_cases`: the task of the connection;
- `forwarderReceive_cases`, `forwarderEnqueue_cases`, `forwarderCancel_cases`: the forwarders.
-/

namespace CliPocket

open Saturating (u32Max)

/-! ## Chunks -/

theorem mem_pieceFrames {stream : StreamId} {terminalId : TerminalId} {start : Nat} {out : OutboundOutput} :
    ∀ {sent : Nat} {pieces : List (List UInt8)}, out ∈ pieceFrames stream terminalId start sent pieces →
      out.stream = stream ∧ out.terminalId = terminalId ∧ out.frame.streamId = stream
  | _, [], h => by cases h
  | sent, piece :: pieces, h => by
    rcases List.mem_cons.mp h with rfl | h
    · exact ⟨rfl, rfl, rfl⟩
    · exact mem_pieceFrames h

/-- The frames of a chunk are on the stream of its forwarder. -/
theorem mem_liveOutputFrames {stream : StreamId} {terminalId : TerminalId} {chunk : OutputChunk}
    {frames : List OutboundOutput} (h : liveOutputFrames stream terminalId chunk = .ok frames) {out : OutboundOutput}
    (hout : out ∈ frames) : out.stream = stream ∧ out.terminalId = terminalId ∧ out.frame.streamId = stream := by
  unfold liveOutputFrames at h
  dsimp only at h
  split at h
  · cases h
    cases hout
  · split at h
    · cases h
    · cases h
      exact mem_pieceFrames hout

/-- A forwarder after what it has received. -/
def Forwarder.received (f : Forwarder) (received : OutputRecv) (next : Nat) : Forwarder :=
  match received with
  | .lagged _ => { f with next }
  | .chunk chunk =>
    match liveOutputFrames f.stream f.terminalId chunk with
    | .ok frames => { f with next, frames }
    | .error _ => { f with stopped := true }

theorem Forwarder.received_stream (f : Forwarder) (received : OutputRecv) (next : Nat) :
    (f.received received next).stream = f.stream := by
  unfold Forwarder.received
  split
  · rfl
  · split <;> rfl

theorem Forwarder.received_terminalId (f : Forwarder) (received : OutputRecv) (next : Nat) :
    (f.received received next).terminalId = f.terminalId := by
  unfold Forwarder.received
  split
  · rfl
  · split <;> rfl

theorem Forwarder.mem_received {f : Forwarder} {received : OutputRecv} {next : Nat} (hframes : f.frames = [])
    {out : OutboundOutput} (hout : out ∈ (f.received received next).frames) :
    out.stream = f.stream ∧ out.terminalId = f.terminalId ∧ out.frame.streamId = f.stream := by
  unfold Forwarder.received at hout
  split at hout
  · rw [show ({ f with next } : Forwarder).frames = [] from hframes] at hout
    cases hout
  · split at hout
    · next hlive => exact mem_liveOutputFrames hlive hout
    · rw [show ({ f with stopped := true } : Forwarder).frames = [] from hframes] at hout
      cases hout

namespace Daemon

variable {d e : Daemon}

/-- `e` has the streams and the tasks of `d`. -/
structure SameWork (d e : Daemon) : Prop where
  streams : e.streams = d.streams
  forwarders : e.forwarders = d.forwarders
  task : e.task = d.task

/-! ## Requests -/

theorem create_work {params : TerminalCreateParams} {env : Env} {info : TerminalInfo}
    (h : d.create params env = .ok (e, info)) : SameWork d e := by
  unfold create at h
  split at h
  · cases h
  · split at h
    · cases h
    · split at h
      · cases h
      · cases h
        exact ⟨rfl, rfl, rfl⟩

/-- **Requests that open nothing.** -/
theorem handleRequest_work (d : Daemon) (request : RequestFrame) (env : Env) :
    SameWork d (d.handleRequest request env).1 ∧
      ∀ ack, (d.handleRequest request env).2.result ≠ .ok (.openTerminal ack) := by
  unfold handleRequest
  dsimp only
  split
  · exact ⟨⟨rfl, rfl, rfl⟩, nofun⟩
  · split
    · next hcreate => exact ⟨create_work hcreate, nofun⟩
    · exact ⟨⟨rfl, rfl, rfl⟩, nofun⟩
  · exact ⟨⟨rfl, rfl, rfl⟩, nofun⟩
  · split <;> exact ⟨⟨rfl, rfl, rfl⟩, nofun⟩
  · split
    · exact ⟨⟨rfl, rfl, rfl⟩, nofun⟩
    · split
      · exact ⟨⟨rfl, rfl, rfl⟩, nofun⟩
      · split <;> exact ⟨⟨rfl, rfl, rfl⟩, nofun⟩
  · split <;> exact ⟨⟨rfl, rfl, rfl⟩, nofun⟩
  · split <;> exact ⟨⟨rfl, rfl, rfl⟩, nofun⟩
  · split <;> exact ⟨⟨rfl, rfl, rfl⟩, nofun⟩
  · split
    · split
      · split <;> exact ⟨⟨rfl, rfl, rfl⟩, nofun⟩
      · exact ⟨⟨rfl, rfl, rfl⟩, nofun⟩
    · exact ⟨⟨rfl, rfl, rfl⟩, nofun⟩

/-! ## The task of the connection -/

/-- An open begins: nothing is attached any more. -/
def cleared (d : Daemon) (id : RequestId) (terminalId : TerminalId) : Daemon :=
  let stream := d.streams.nextLocalStreamId
  { d with
    streams := { d.streams with map := ∅, nextLocalStreamId := Saturating.add u32Max stream 1 }
    forwarders := d.forwarders.map fun forwarder => { forwarder with aborted := true }
    task := .cleared id terminalId stream }

theorem plain_errorResponse (id : RequestId) (code : ProtocolError) : FrameBody.Plain (.response (errorResponse id code)) := trivial

theorem plain_response {response : ResponseFrame} (h : ∀ ack, response.result ≠ .ok (.openTerminal ack)) :
    FrameBody.Plain (.response response) := by
  obtain ⟨id, result⟩ := response
  unfold FrameBody.Plain
  split
  · contradiction
  · next heq =>
    cases heq
    exact h _ rfl
  · trivial

/-- **A frame from the client.** -/
theorem receiveFrame_cases {frame : FrameBody} {env : Env} {reply : Option FrameBody}
    (h : d.receiveFrame frame env = some (e, reply)) : d.task = .select ∧
    ((∃ id terminalId, (d.attach terminalId).isSome ∧ e = d.cleared id terminalId ∧ reply = none) ∨
      (∃ request, e = (d.handleRequest request env).1 ∧ reply = some (.response (d.handleRequest request env).2)) ∨
      ((e = d ∨ e = { d with task := .closed }) ∧ ∀ frame, reply = some frame → frame.Plain)) := by
  unfold receiveFrame at h
  split at h
  · next htask =>
    refine ⟨htask, ?_⟩
    split at h
    · next id terminalId =>
      unfold openStart at h
      cases hattach : d.attach terminalId with
      | none =>
        rw [hattach] at h
        cases h
        refine .inr (.inr ⟨.inl rfl, ?_⟩)
        rintro _ ⟨⟩
        exact plain_errorResponse _ _
      | some terminal =>
        rw [hattach] at h
        cases h
        exact .inl ⟨id, terminalId, by rw [hattach]; rfl, rfl, rfl⟩
    · next request _ =>
      cases h
      exact .inr (.inl ⟨request, rfl, rfl⟩)
    · cases h
      refine .inr (.inr ⟨.inl rfl, ?_⟩)
      rintro _ ⟨⟩
      trivial
    · cases h
      exact .inr (.inr ⟨.inr rfl, nofun⟩)
    · cases h
      exact .inr (.inr ⟨.inl rfl, nofun⟩)
  · cases h

/-- The answer to an open. -/
def openAck (stream : StreamId) (snapshot : Snapshot) (info : TerminalInfo) (terminal : Terminal) : OpenTerminalAck where
  streamId := stream
  info
  startSeq := startSeq snapshot
  endSeq := snapshot.headSeq
  renderBytes := renderBytes snapshot
  hasMoreHistory := (terminal.ring.historyPage (some (startSeq snapshot)) 1).hasMore

/-- The terminal is open. -/
def attached (d : Daemon) (stream : StreamId) (terminalId : TerminalId) (subscription : Nat) : Daemon :=
  { d with
    streams := { d.streams with map := d.streams.map.insert stream { terminalId } }
    forwarders := d.forwarders ++ [{ stream, terminalId, next := subscription }]
    task := .select }

/-- **The steps of an open.** -/
theorem openStep_cases {reply : Option ResponseFrame} (h : d.openStep = some (e, reply)) :
    (∃ id terminalId stream terminal, d.task = .cleared id terminalId stream ∧
      d.terminals.lookup terminalId = some terminal ∧
      e = { d with task := .subscribed id terminalId stream terminal.sent.length } ∧ reply = none) ∨
    (∃ id terminalId stream subscription terminal, d.task = .subscribed id terminalId stream subscription ∧
      d.terminals.lookup terminalId = some terminal ∧
      e = { d with task :=
        .snapshotted id terminalId stream subscription (terminal.ring.snapshotWithMaxBytes openTerminalMaxBytes) } ∧
      reply = none) ∨
    (∃ id terminalId stream subscription snapshot, d.task = .snapshotted id terminalId stream subscription snapshot ∧
      ((e = { d with task := .select } ∧ reply = some (errorResponse id .unknownTerminal)) ∨
        ∃ info, info.terminal = terminalId ∧
          e = { d with task := .found id terminalId stream subscription snapshot info } ∧ reply = none)) ∨
    (∃ id terminalId stream subscription snapshot info terminal,
      d.task = .found id terminalId stream subscription snapshot info ∧
      d.terminals.lookup terminalId = some terminal ∧ e = d.attached stream terminalId subscription ∧
      reply = some (okResponse id (.openTerminal (openAck stream snapshot info terminal)))) := by
  unfold openStep at h
  split at h
  · next id terminalId stream htask =>
    obtain ⟨terminal, hterminal, heq⟩ := Option.map_eq_some_iff.mp h
    cases heq
    exact .inl ⟨id, terminalId, stream, terminal, htask, hterminal, rfl, rfl⟩
  · next id terminalId stream subscription htask =>
    obtain ⟨terminal, hterminal, heq⟩ := Option.map_eq_some_iff.mp h
    cases heq
    exact .inr (.inl ⟨id, terminalId, stream, subscription, terminal, htask, hterminal, rfl, rfl⟩)
  · next id terminalId stream subscription snapshot htask =>
    refine .inr (.inr (.inl ⟨id, terminalId, stream, subscription, snapshot, htask, ?_⟩))
    split at h
    · cases h
      exact .inl ⟨rfl, rfl⟩
    · next info hinfo =>
      cases h
      exact .inr ⟨info, by simpa using List.find?_some hinfo, rfl, rfl⟩
  · next id terminalId stream subscription snapshot info htask =>
    obtain ⟨terminal, hterminal, heq⟩ := Option.map_eq_some_iff.mp h
    cases heq
    exact .inr (.inr (.inr ⟨id, terminalId, stream, subscription, snapshot, info, terminal, htask, hterminal, rfl, rfl⟩))
  · cases h
  · cases h

/-- **Output goes out**, when its stream is attached. -/
theorem output_cases {data : Option StreamDataFrame} (h : d.output = some (e, data)) : d.task = .select ∧
    ∃ out rest, d.streams.output.queue = out :: rest ∧
      e = { d with streams := { d.streams with output := { d.streams.output with queue := rest } } } ∧
      ((∃ attached, d.streams.map.lookup out.stream = some attached ∧ attached.terminalId = out.terminalId ∧
        data = some out.frame) ∨
        ((∀ attached, d.streams.map.lookup out.stream = some attached → attached.terminalId ≠ out.terminalId) ∧
          data = none)) := by
  unfold output at h
  split at h
  · next htask =>
    refine ⟨htask, ?_⟩
    obtain ⟨⟨out, output⟩, hrecv, heq⟩ := Option.map_eq_some_iff.mp h
    unfold Channel.Mpsc.recv at hrecv
    split at hrecv
    · cases hrecv
    · next rest hqueue =>
      cases hrecv
      rw [Prod.mk.injEq] at heq
      obtain ⟨rfl, rfl⟩ := heq
      refine ⟨out, rest, hqueue, rfl, ?_⟩
      split
      · next attached hattached =>
        by_cases hsame : attached.terminalId = out.terminalId
        · exact .inl ⟨attached, hattached, hsame, if_pos hsame⟩
        · refine .inr ⟨?_, if_neg hsame⟩
          intro other hother
          cases hattached.symm.trans hother
          exact hsame
      · next hnone =>
        refine .inr ⟨?_, rfl⟩
        intro other hother
        cases hnone.symm.trans hother
  · cases h

/-! ## The forwarders -/

/-- Output frames that have been made and not sent. -/
def unsent (d : Daemon) : List OutboundOutput := d.streams.output.queue ++ d.forwarders.flatMap Forwarder.frames

/-- One forwarder has gone on. -/
theorem mem_flatMap_set {i : Nat} {f : Forwarder} {forwarders : List Forwarder} {out : OutboundOutput}
    (h : out ∈ (forwarders.set i f).flatMap Forwarder.frames) :
    out ∈ f.frames ∨ out ∈ forwarders.flatMap Forwarder.frames := by
  obtain ⟨g, hg, hout⟩ := List.mem_flatMap.mp h
  rcases List.mem_or_eq_of_mem_set hg with hg | rfl
  · exact .inr (List.mem_flatMap.mpr ⟨g, hg, hout⟩)
  · exact .inl hout

theorem forwarderReceive_cases {i : Nat} (h : d.forwarderReceive i = some e) :
    ∃ f terminal received next, d.forwarders[i]? = some f ∧ f.stopped = false ∧ f.frames = [] ∧
      d.terminals.lookup f.terminalId = some terminal ∧ receive terminal.sent f.next = some (received, next) ∧
      e = { d with forwarders := d.forwarders.set i (Forwarder.received f received next) } := by
  unfold forwarderReceive at h
  split at h
  · cases h
  · next f hf =>
    split at h
    · next terminal hstopped hframes hterminal =>
      obtain ⟨⟨received, next⟩, hreceive, heq⟩ := Option.map_eq_some_iff.mp h
      exact ⟨f, terminal, received, next, hf, hstopped, hframes, hterminal, hreceive, heq.symm⟩
    · cases h

/-- What it receives. -/
theorem forwarderReceive_eq {i : Nat} {f : Forwarder} {t : Terminal} {received : OutputRecv} {next : Nat}
    (hf : d.forwarders[i]? = some f) (hrunning : f.stopped = false ∧ f.frames = [])
    (ht : d.terminals.lookup f.terminalId = some t) (hreceive : receive t.sent f.next = some (received, next)) :
    d.forwarderReceive i = some { d with forwarders := d.forwarders.set i (f.received received next) } := by
  obtain ⟨stream, terminalId, position, frames, aborted, stopped⟩ := f
  obtain ⟨rfl, rfl⟩ := hrunning
  unfold forwarderReceive
  rw [hf]
  dsimp only
  rw [ht]
  dsimp only
  rw [hreceive]
  rfl

theorem forwarderEnqueue_cases {i : Nat} (h : d.forwarderEnqueue i = some e) :
    ∃ f frame frames, d.forwarders[i]? = some f ∧ f.stopped = false ∧ f.frames = frame :: frames ∧
      e = { d with
        streams := { d.streams with
          output := { d.streams.output with queue := d.streams.output.queue ++ [frame] } }
        forwarders := d.forwarders.set i { f with frames } } := by
  unfold forwarderEnqueue at h
  split at h
  · cases h
  · next f hf =>
    split at h
    · cases h
    · cases h
    · next frame frames hstopped hframes =>
      split at h
      · next output hsend =>
        cases h
        obtain ⟨_, _, rfl⟩ := Channel.Mpsc.send_eq_sent.mp hsend
        exact ⟨f, frame, frames, hf, hstopped, hframes, rfl⟩
      · cases h

theorem forwarderCancel_cases {i : Nat} (h : d.forwarderCancel i = some e) :
    ∃ f, d.forwarders[i]? = some f ∧ f.aborted = true ∧
      e = { d with forwarders := d.forwarders.set i { f with frames := [], stopped := true } } := by
  unfold forwarderCancel at h
  split at h
  · cases h
  · next f hf =>
    split at h
    · next haborted =>
      cases h
      exact ⟨f, hf, haborted, rfl⟩
    · cases h

end Daemon

end CliPocket
