import CliPocket.Client.Streams
import CliPocket.Daemon.Work
import CliPocket.Lib.Inbox
import CliPocket.Stream.Talk

/-!
# Streams that the client knows

- `Talk.hear`: what a frame must find in the client, for it not to be on an unknown stream;
- `Talk.Known`: the frames on their way are on known streams, and so will be those that follow, unless the client has
  forgotten a stream that is attached;
- `no_unknown_stream`: **no frame is on an unknown stream**, as long as no output is on its way, or sent, on a stream
  that the client has dropped (`Talk.undisturbed`).
-/

namespace CliPocket

open Inbox (Reads reads_concat)
open Steps (run Meets)

namespace Talk

variable {s t : Talk} {frame : FrameBody} {frames : List FrameBody} {stream : StreamId}

/-! ## Frames on their way -/

/-- The streams that the client knows. -/
abbrev Streams := StreamId → Prop

variable {K K' : Streams → Prop} {known known' : Streams}

/-- Output must be on a known stream; an opened terminal makes its stream known. -/
def hear (frame : FrameBody) (K : Streams → Prop) (known : Streams) : Prop :=
  match frame with
  | .streamData data => known data.streamId ∧ K known
  | .response ⟨_, .ok (.openTerminal ack)⟩ => K fun stream => stream = ack.streamId ∨ known stream
  | _ => K known

/-- The frame opens `stream`. -/
def opens (stream : StreamId) : FrameBody → Bool
  | .response ⟨_, .ok (.openTerminal ack)⟩ => ack.streamId = stream
  | _ => false

/-- It is output on `stream`. -/
def outputs (stream : StreamId) : FrameBody → Bool
  | .streamData data => data.streamId = stream
  | _ => false

/-- No output on `stream` is on its way, before an answer that opens it. -/
def quiet (stream : StreamId) : List FrameBody → Bool
  | [] => true
  | frame :: rest => opens stream frame || (!outputs stream frame && quiet stream rest)

theorem hear_plain (h : frame.Plain) : hear frame K known = K known := by
  unfold hear
  split
  · exact h.elim
  · exact h.elim
  · rfl

theorem opens_plain (h : frame.Plain) : opens stream frame = false := by
  unfold opens
  split
  · exact h.elim
  · rfl

/-- To know more does no harm. -/
theorem carries_more : Inbox.Carries hear fun known known' : Streams => ∀ stream, known stream → known' stream := by
  intro frame K K' hK known known' hmore h
  rcases frame.stream_cases with ⟨data, rfl⟩ | ⟨_, ack, rfl⟩ | hplain
  · exact ⟨hmore _ h.1, hK _ _ hmore h.2⟩
  · exact hK _ _ (fun stream hstream => hstream.imp id (hmore stream)) h
  · rw [hear_plain hplain] at h ⊢
    exact hK _ _ hmore h

theorem carries_eq : Inbox.Carries hear Eq := by
  rintro frame K K' hK known _ rfl h
  rcases frame.stream_cases with ⟨data, rfl⟩ | ⟨_, ack, rfl⟩ | hplain
  · exact ⟨h.1, hK _ _ rfl h.2⟩
  · exact hK _ _ rfl h
  · rw [hear_plain hplain] at h ⊢
    exact hK _ _ rfl h

/-- What is known stays known. -/
theorem reads_grows : ∀ {frames : List FrameBody} {known : Streams}, Reads hear frames K known →
    Reads hear frames (fun known' => K known' ∧ ∀ stream, known stream → known' stream) known
  | [], _, h => ⟨h, fun _ => id⟩
  | frame :: rest, known, h => by
    rw [Inbox.reads_cons] at h ⊢
    rcases frame.stream_cases with ⟨data, rfl⟩ | ⟨_, ack, rfl⟩ | hplain
    · exact ⟨h.1, reads_grows h.2⟩
    · change Reads hear rest K _ at h
      refine Inbox.Reads.imp carries_eq (reads_grows h) ?_
      rintro known' ⟨hK, hgrows⟩
      exact ⟨hK, fun stream hstream => hgrows stream (.inr hstream)⟩
    · rw [hear_plain hplain] at h ⊢
      exact reads_grows h

/-- A stream that is about to be opened will be known. -/
theorem reads_acked : ∀ {frames : List FrameBody} {known : Streams}, frames.any (opens stream) = true →
    Reads hear frames K known → Reads hear frames (fun known' => K known' ∧ known' stream) known
  | frame :: rest, known, hopens, h => by
    rw [List.any_cons, Bool.or_eq_true] at hopens
    rw [Inbox.reads_cons] at h ⊢
    rcases frame.stream_cases with ⟨data, rfl⟩ | ⟨_, ack, rfl⟩ | hplain
    · exact ⟨h.1, reads_acked (hopens.resolve_left Bool.false_ne_true) h.2⟩
    · change Reads hear rest K _ at h
      rcases hopens with hhead | hrest
      · refine Inbox.Reads.imp carries_eq (reads_grows h) ?_
        rintro known' ⟨hK, hgrows⟩
        exact ⟨hK, hgrows stream (.inl (of_decide_eq_true hhead).symm)⟩
      · exact reads_acked hrest h
    · rw [hear_plain hplain] at h ⊢
      rw [opens_plain hplain] at hopens
      exact reads_acked (hopens.resolve_left Bool.false_ne_true) h

/-- **A stream is dropped** of which nothing is on its way. -/
theorem reads_drop (hK : ∀ known known', (∀ other, other ≠ stream → known other → known' other) → K known → K' known') :
    ∀ {frames : List FrameBody} {known known' : Streams}, quiet stream frames = true →
      (∀ other, other ≠ stream → known other → known' other) → Reads hear frames K known → Reads hear frames K' known'
  | [], _, _, _, hknown, h => hK _ _ hknown h
  | frame :: rest, known, known', hquiet, hknown, h => by
    rw [Inbox.reads_cons] at h ⊢
    unfold quiet at hquiet
    rw [Bool.or_eq_true, Bool.and_eq_true] at hquiet
    rcases frame.stream_cases with ⟨data, rfl⟩ | ⟨_, ack, rfl⟩ | hplain
    · obtain ⟨hother, hquiet⟩ := hquiet.resolve_left Bool.false_ne_true
      have hne : data.streamId ≠ stream := by simpa [outputs] using hother
      exact ⟨hknown _ hne h.1, reads_drop hK hquiet hknown h.2⟩
    · change Reads hear rest K _ at h
      rcases hquiet with hopens | ⟨_, hquiet⟩
      · have hstream : ack.streamId = stream := of_decide_eq_true hopens
        refine Inbox.Reads.sim carries_more h ?_ fun k k' hk => hK k k' fun other _ => hk other
        rintro other (rfl | hother)
        · exact .inl rfl
        · by_cases heq : other = ack.streamId
          · exact .inl heq
          · exact .inr (hknown other (fun h => heq (h.trans hstream.symm)) hother)
      · exact reads_drop hK hquiet (fun other hne => Or.imp id (hknown other hne)) h
    · rw [hear_plain hplain] at h ⊢
      rw [opens_plain hplain] at hquiet
      exact reads_drop hK (hquiet.resolve_left Bool.false_ne_true).2 hknown h

/-! ## The client -/

def knows (c : ClientConn) : Streams := fun stream => (c.runtime.activeStreams.lookup stream).isSome

theorem knows_insert {c d : ClientConn} {state : StreamState}
    (h : d.runtime.activeStreams = c.runtime.activeStreams.insert stream state) :
    knows d = fun other => other = stream ∨ knows c other := by
  funext other
  unfold knows
  rw [h]
  by_cases heq : other = stream
  · subst heq
    simp
  · simp [heq, AList.lookup_insert_ne heq]

theorem knows_same {c d : ClientConn} (h : c.SameStreams d) : knows d = knows c := by
  unfold knows
  rw [h.activeStreams]

/-- **A frame is handled**: what it must find, it has found. -/
theorem hear_of_handle {c d : ClientConn} {action : Action} (hc : c.Coherent)
    (hs : c.handleInboundFrame frame = .ok (d, action)) (h : hear frame K (knows c)) : K (knows d) := by
  rcases frame.stream_cases with ⟨data, rfl⟩ | ⟨_, ack, rfl⟩ | hplain
  · obtain ⟨state, hknown, hd⟩ := ClientConn.handleStreamDataFrame_ok (fun hactive => hc.terminal.trans hactive) hs
    rcases hd with ⟨_, rfl, _⟩ | ⟨active, handle, hd, _⟩
    · exact h.2
    · rw [knows_insert hd.activeStreams]
      have hsame : (fun other => other = data.streamId ∨ knows c other) = knows c := by
        funext other
        refine propext ⟨?_, .inr⟩
        rintro (rfl | hother)
        · exact h.1
        · exact hother
      rw [hsame]
      exact h.2
  · rw [knows_insert (ClientConn.handleInboundFrame_opened hs).activeStreams]
    exact h
  · rw [hear_plain hplain] at h
    rw [knows_same (ClientConn.handleInboundFrame_plain hplain hs)]
    exact h

/-- It was not on an unknown stream. -/
theorem known_of_hear {c : ClientConn} {e : ClientError} (hs : c.handleInboundFrame frame = .error e)
    (h : hear frame K (knows c)) : e ≠ ClientConn.unknownStream := by
  rintro rfl
  obtain ⟨data, rfl, hunknown⟩ := ClientConn.handleInboundFrame_unknownStream hs
  have hknown : (c.runtime.activeStreams.lookup data.streamId).isSome = true := h.1
  rw [hunknown] at hknown
  cases hknown

/-! ## The invariant -/

/-- What the client must know in the end: the attached stream, unless it has forgotten it. -/
def Attended (d : Daemon) (forgotten : List StreamId) (known : Streams) : Prop :=
  ∀ stream, (d.streams.map.lookup stream).isSome → known stream ∨ stream ∈ forgotten

structure Known (s : Talk) : Prop where
  coherent : s.client.Coherent
  outs : ∀ out ∈ s.daemon.unsent, out.frame.streamId = out.stream
  hears : Reads hear s.toClient (Attended s.daemon s.forgotten) (knows s.client)

/-- The daemon is about to send output. -/
def attaches (d : Daemon) (out : OutboundOutput) : Bool :=
  (d.streams.map.lookup out.stream).any fun attached => attached.terminalId = out.terminalId

/-- No output is on its way on a stream that is dropped, and none is sent on a stream that has been. -/
def undisturbed (s : Talk) : Move → Bool
  | .command cmd => (s.client.dropsStream cmd).all fun stream => quiet stream s.toClient
  | .output => s.daemon.streams.output.queue.head?.all fun out =>
    !attaches s.daemon out || out.stream ∉ s.forgotten || s.toClient.any (opens out.stream)
  | _ => true

/-! ## Steps -/

/-- The connection has not been failed by an unknown stream, and will not be by the frames on their way. -/
def Fine (t : Talk) : Prop := t.failed ≠ some ClientConn.unknownStream ∧ (t.failed = none → t.Known)

theorem Known.fine (h : s.Known) (hopen : s.failed = none) : s.Fine := ⟨by rw [hopen]; nofun, fun _ => h⟩

theorem fine_clientSend (h : s.Known) (hopen : s.failed = none) (frame : FrameBody) : (s.clientSend frame).Fine := by
  unfold clientSend
  split
  · exact Known.fine (s := { s with toDaemon := _ }) ⟨h.coherent, h.outs, h.hears⟩ hopen
  · exact ⟨fun heq => absurd (Option.some.inj heq) nofun, nofun⟩

theorem attended_empty {d : Daemon} (h : d.streams.map = ∅) (forgotten : List StreamId) (known : Streams) :
    Attended d forgotten known := by
  intro stream hstream
  rw [h, AList.lookup_empty] at hstream
  cases hstream

/-- The frames on their way are on known streams, whatever they leave known. -/
theorem Known.reads (h : s.Known) (hK : ∀ known, K known) : Reads hear s.toClient K (knows s.client) :=
  Inbox.Reads.imp carries_eq h.hears fun known _ => hK known

/-- **The daemon sends a frame**, and `d` is what it has become. -/
theorem fine_daemonSend (h : s.Known) (hopen : s.failed = none) {d : Daemon}
    (houts : ∀ out ∈ d.unsent, out.frame.streamId = out.stream)
    (hears : Reads hear (s.toClient ++ [frame]) (Attended d s.forgotten) (knows s.client)) :
    (daemonSend { s with daemon := d } frame).Fine := by
  unfold daemonSend
  split
  · exact Known.fine (s := { s with daemon := d, toClient := _ }) ⟨h.coherent, houts, hears⟩ hopen
  · refine Known.fine (s := { s with daemon := _ }) ⟨h.coherent, houts, ?_⟩ hopen
    exact h.reads (attended_empty rfl s.forgotten)

theorem fine_daemonSends {d : Daemon} (h : Known { s with daemon := d }) (hopen : s.failed = none)
    {reply : Option FrameBody} (hplain : ∀ frame, reply = some frame → frame.Plain) :
    (daemonSends { s with daemon := d } reply).Fine := by
  cases reply with
  | none => exact h.fine hopen
  | some frame =>
    refine fine_daemonSend h hopen h.outs ?_
    rw [reads_concat]
    exact Inbox.Reads.imp carries_eq h.hears fun known hK => by rwa [hear_plain (hplain frame rfl)]

/-- The daemon goes on with its streams as they are. -/
theorem Known.daemon (h : s.Known) {d : Daemon} (houts : ∀ out ∈ d.unsent, out.frame.streamId = out.stream)
    (hmap : d.streams.map = s.daemon.streams.map) : Known { s with daemon := d } := by
  refine ⟨h.coherent, houts, ?_⟩
  have hattended : Attended d s.forgotten = Attended s.daemon s.forgotten := by
    unfold Attended
    rw [hmap]
  show Reads hear s.toClient (Attended d s.forgotten) (knows s.client)
  rw [hattended]
  exact h.hears

theorem Known.work (h : s.Known) {d : Daemon} (hd : s.daemon.SameWork d) : Known { s with daemon := d } := by
  refine h.daemon ?_ (by rw [hd.streams])
  unfold Daemon.unsent
  rw [hd.streams, hd.forwarders]
  exact h.outs

/-- **A command is framed.** -/
theorem Known.ask (h : s.Known) (hopen : s.failed = none) {framed : Option (ClientConn × RequestFrame)}
    (hframed : ∀ client request, framed = some (client, request) → s.client.SameStreams client ∨
      ∃ stream, quiet stream s.toClient = true ∧ s.client.Dropped client stream)
    (hs : s.ask framed = some t) : t.Fine := by
  obtain ⟨⟨client, request⟩, heq, rfl⟩ := Option.map_eq_some_iff.mp hs
  refine fine_clientSend (s := { s with client, forgotten := _ }) ?_ hopen _
  rcases hframed client request heq with hsame | ⟨stream, hquiet, hdropped⟩
  · have hnone : (if client.runtime.active.isNone then s.client.runtime.activeStream.toList else []) = [] := by
      rw [hsame.active]
      unfold RuntimeState.activeStream
      cases s.client.runtime.active <;> rfl
    refine ⟨h.coherent.same hsame, h.outs, ?_⟩
    dsimp only
    rw [hnone, List.append_nil, knows_same hsame]
    exact h.hears
  · have hsome : (if client.runtime.active.isNone then s.client.runtime.activeStream.toList else []) = [stream] := by
      rw [hdropped.active, hdropped.was]
      rfl
    refine ⟨hdropped.coherent, h.outs, ?_⟩
    dsimp only
    rw [hsome]
    refine reads_drop ?_ hquiet ?_ h.hears
    · intro known known' hknown hK other hother
      by_cases heq : other = stream
      · exact .inr (List.mem_append_right _ (List.mem_singleton.mpr heq))
      · rcases hK other hother with hk | hk
        · exact .inl (hknown other heq hk)
        · exact .inr (List.mem_append_left _ hk)
    · intro other hne hother
      unfold knows at hother ⊢
      rw [hdropped.activeStreams, AList.lookup_erase_ne hne]
      exact hother

/-- **A frame is received.** -/
theorem Known.clientRecv (h : s.Known) (hopen : s.failed = none) (hs : s.clientRecv = some t) : t.Fine := by
  unfold Talk.clientRecv at hs
  split at hs
  · cases hs
  · next frame rest hframes =>
    have hhears := h.hears
    rw [hframes, Inbox.reads_cons] at hhears
    split at hs
    · next e he =>
      cases hs
      exact ⟨fun heq => known_of_hear he hhears (Option.some.inj heq), nofun⟩
    · next client action hok =>
      cases hs
      have hread := hear_of_handle h.coherent hok hhears
      have hcoherent := h.coherent.handleInboundFrame hok
      have hnote : Known (note { s with toClient := rest, client } frame action) := by
        have hsame : Known { s with toClient := rest, client } := ⟨hcoherent, h.outs, hread⟩
        unfold note
        split
        · next ack =>
          refine ⟨hcoherent, h.outs, ?_⟩
          refine Inbox.Reads.imp carries_eq (reads_grows hread) ?_
          rintro known ⟨hK, hgrows⟩ other hother
          by_cases heq : other = ack.streamId
          · refine .inl (hgrows other ?_)
            rw [knows_insert (ClientConn.handleInboundFrame_opened hok).activeStreams]
            exact .inl heq
          · refine (hK other hother).imp id fun hmem => List.mem_filter.mpr ⟨hmem, by simpa using heq⟩
        · exact ⟨hcoherent, h.outs, hread⟩
        · exact hsame
      have hopen' : (note { s with toClient := rest, client } frame action).failed = none := by
        unfold note
        split <;> exact hopen
      unfold act
      split
      · exact fine_clientSend hnote hopen' _
      · obtain ⟨reason, _, heq⟩ := ClientConn.handleInboundFrame_return (fun hactive => h.coherent.terminal.trans hactive) hok
        refine ⟨fun hfailed => ?_, nofun⟩
        cases heq
        have hbye := Option.some.inj hfailed
        split at hbye <;> cases hbye
      · obtain ⟨reason, _, heq⟩ := ClientConn.handleInboundFrame_return (fun hactive => h.coherent.terminal.trans hactive) hok
        cases heq
      · exact hnote.fine hopen'
      · exact hnote.fine hopen'

/-- **The daemon takes a frame.** -/
theorem Known.daemonRecv (h : s.Known) (hopen : s.failed = none) {env : Env} (hs : s.daemonRecv env = some t) :
    t.Fine := by
  unfold Talk.daemonRecv at hs
  split at hs
  · cases hs
  · next frame rest hframes =>
    split at hs
    · obtain ⟨⟨d, reply⟩, hreceive, rfl⟩ := Option.map_eq_some_iff.mp hs
      obtain ⟨htask, ⟨id, terminalId, _, rfl, rfl⟩ | ⟨request, rfl, rfl⟩ | ⟨hd, hplain⟩⟩ := Daemon.receiveFrame_cases hreceive
      · refine Known.fine (s := { s with daemon := _, toDaemon := rest }) ⟨h.coherent, ?_, ?_⟩ hopen
        · have hframes : (s.daemon.cleared id terminalId).unsent = s.daemon.unsent := by
            unfold Daemon.unsent Daemon.cleared
            rw [List.flatMap_map]
          rw [hframes]
          exact h.outs
        · exact h.reads (attended_empty rfl s.forgotten)
      · obtain ⟨hwork, hack⟩ := s.daemon.handleRequest_work request env
        have hknown := h.work hwork
        refine fine_daemonSends (s := { s with toDaemon := rest }) ⟨hknown.coherent, hknown.outs, hknown.hears⟩ hopen ?_
        rintro _ ⟨⟩
        exact Daemon.plain_response hack
      · refine fine_daemonSends (s := { s with toDaemon := rest }) ?_ hopen hplain
        rcases hd with rfl | rfl
        · exact ⟨h.coherent, h.outs, h.hears⟩
        · exact ⟨h.coherent, h.outs, h.hears⟩
    · cases hs

/-- **The steps of an open.** -/
theorem Known.openStep (h : s.Known) (hopen : s.failed = none) {d : Daemon} {reply : Option ResponseFrame}
    (hs : s.daemon.openStep = some (d, reply)) : (daemonSends { s with daemon := d } (reply.map .response)).Fine := by
  have hsame : ∀ task, Known { s with daemon := { s.daemon with task } } := fun _ => h.daemon h.outs rfl
  rcases Daemon.openStep_cases hs with ⟨_, _, _, _, _, _, rfl, rfl⟩ | ⟨_, _, _, _, _, _, _, rfl, rfl⟩ |
    ⟨_, _, _, _, _, _, ⟨rfl, rfl⟩ | ⟨_, _, rfl, rfl⟩⟩ |
    ⟨_, terminalId, stream, subscription, snapshot, info, terminal, _, _, rfl, rfl⟩
  · exact (hsame _).fine hopen
  · exact (hsame _).fine hopen
  · refine fine_daemonSends (hsame .select) hopen ?_
    rintro _ ⟨⟩
    exact Daemon.plain_errorResponse _ _
  · exact (hsame _).fine hopen
  · refine fine_daemonSend h hopen ?_ ?_
    · have hunsent : (s.daemon.attached stream terminalId subscription).unsent = s.daemon.unsent := by
        unfold Daemon.unsent Daemon.attached
        rw [List.flatMap_append]
        exact congrArg _ (List.append_nil _)
      rw [hunsent]
      exact h.outs
    · rw [reads_concat]
      refine Inbox.Reads.imp carries_eq h.hears ?_
      intro known hK other hother
      by_cases heq : other = stream
      · exact .inl (.inl heq)
      · have hold : (s.daemon.streams.map.lookup other).isSome = true := by
          rw [← hother]
          exact congrArg Option.isSome (AList.lookup_insert_ne heq).symm
        exact (hK other hold).imp .inr id

/-- **Output is sent.** -/
theorem Known.output (h : s.Known) (hopen : s.failed = none) (hc : s.undisturbed .output = true) {d : Daemon}
    {data : Option StreamDataFrame} (hs : s.daemon.output = some (d, data)) :
    (daemonSends { s with daemon := d } (data.map .streamData)).Fine := by
  obtain ⟨_, out, rest, hqueue, rfl, hsend⟩ := Daemon.output_cases hs
  have hunsent : s.daemon.unsent = out :: ({ s.daemon with streams :=
      { s.daemon.streams with output := { s.daemon.streams.output with queue := rest } } } : Daemon).unsent := by
    unfold Daemon.unsent
    rw [hqueue]
    rfl
  have houts := h.outs
  rw [hunsent] at houts
  have hrest := fun o ho => houts o (List.mem_cons_of_mem _ ho)
  rcases hsend with ⟨attached, hattached, hsame, rfl⟩ | ⟨_, rfl⟩
  · refine fine_daemonSend h hopen hrest ?_
    rw [reads_concat]
    unfold undisturbed attaches at hc
    rw [hqueue, List.head?_cons, Option.all_some, hattached] at hc
    have hstream := houts out List.mem_cons_self
    have hattends : (s.daemon.streams.map.lookup out.stream).isSome = true := by
      rw [hattached]
      rfl
    by_cases hforgotten : out.stream ∈ s.forgotten
    · have hacked : s.toClient.any (opens out.stream) = true := by simpa [hsame, hforgotten] using hc
      refine Inbox.Reads.imp carries_eq (reads_acked hacked h.hears) ?_
      rintro known ⟨hK, hknown⟩
      exact ⟨hstream ▸ hknown, hK⟩
    · refine Inbox.Reads.imp carries_eq h.hears fun known hK => ⟨?_, hK⟩
      rw [hstream]
      exact (hK _ hattends).resolve_right hforgotten
  · exact Known.fine (s := { s with daemon := _ }) ⟨h.coherent, hrest, h.hears⟩ hopen

/-- A forwarder moves. -/
theorem Known.forwarder (h : s.Known) {d : Daemon} {i : Nat}
    (hs : s.daemon.forwarderReceive i = some d ∨ s.daemon.forwarderEnqueue i = some d ∨
      s.daemon.forwarderCancel i = some d) : Known { s with daemon := d } := by
  have houts := h.outs
  unfold Daemon.unsent at houts
  rcases hs with hs | hs | hs
  · obtain ⟨f, terminal, received, next, _, _, hframes, _, _, rfl⟩ := Daemon.forwarderReceive_cases hs
    refine h.daemon (fun out hout => ?_) rfl
    rcases List.mem_append.mp hout with hqueue | hforwarder
    · exact houts out (List.mem_append_left _ hqueue)
    · rcases Daemon.mem_flatMap_set hforwarder with hnew | hold
      · obtain ⟨hstream, _, hframe⟩ := Forwarder.mem_received hframes hnew
        exact hframe.trans hstream.symm
      · exact houts out (List.mem_append_right _ hold)
  · obtain ⟨f, frame, frames, hf, _, hframes, rfl⟩ := Daemon.forwarderEnqueue_cases hs
    have hmem : ∀ out ∈ f.frames, out ∈ s.daemon.forwarders.flatMap Forwarder.frames := fun out hout =>
      List.mem_flatMap.mpr ⟨f, List.mem_of_getElem? hf, hout⟩
    refine h.daemon (fun out hout => ?_) rfl
    rcases List.mem_append.mp hout with hqueue | hforwarder
    · rcases List.mem_append.mp hqueue with hold | hnew
      · exact houts out (List.mem_append_left _ hold)
      · rw [List.mem_singleton.mp hnew]
        exact houts frame (List.mem_append_right _ (hmem frame (by rw [hframes]; exact List.mem_cons_self)))
    · rcases Daemon.mem_flatMap_set hforwarder with hnew | hold
      · exact houts out (List.mem_append_right _ (hmem out (by rw [hframes]; exact List.mem_cons_of_mem _ hnew)))
      · exact houts out (List.mem_append_right _ hold)
  · obtain ⟨f, _, _, rfl⟩ := Daemon.forwarderCancel_cases hs
    refine h.daemon (fun out hout => ?_) rfl
    rcases List.mem_append.mp hout with hqueue | hforwarder
    · exact houts out (List.mem_append_left _ hqueue)
    · rcases Daemon.mem_flatMap_set hforwarder with hnew | hold
      · cases hnew
      · exact houts out (List.mem_append_right _ hold)

/-- **A step that disturbs no stream.** -/
theorem Known.step (h : s.Known) {move : Move} (hc : s.undisturbed move = true) (hs : s.step move = some t) : t.Fine := by
  unfold Talk.step at hs
  split at hs
  · cases hs
  · next hopen =>
    cases move with
    | command cmd =>
      refine h.ask hopen ?_ hs
      intro client request hframed
      rcases ClientConn.frameForSessionCommand_streams h.coherent hframed with hsame | ⟨stream, hdrops, hdropped⟩
      · exact .inl hsame
      · unfold undisturbed at hc
        dsimp only at hc
        rw [hdrops] at hc
        exact .inr ⟨stream, hc, hdropped⟩
    | terminalCommand cmd => exact h.ask hopen (fun _ _ hframed => .inl (ClientConn.frameForCommand_streams hframed)) hs
    | ping nonce =>
      cases hs
      exact fine_clientSend h hopen _
    | clientRecv => exact h.clientRecv hopen hs
    | daemonRecv env => exact h.daemonRecv hopen hs
    | openStep =>
      obtain ⟨⟨d, reply⟩, hstep, rfl⟩ := Option.map_eq_some_iff.mp hs
      exact h.openStep hopen hstep
    | output =>
      obtain ⟨⟨d, data⟩, hstep, rfl⟩ := Option.map_eq_some_iff.mp hs
      exact h.output hopen hc hstep
    | revoked =>
      dsimp only at hs
      split at hs
      · cases hs
        unfold daemonSend
        split
        · refine Known.fine (s := { s with daemon := _, toClient := _ }) ⟨h.coherent, h.outs, ?_⟩ hopen
          dsimp only
          rw [reads_concat]
          exact Inbox.Reads.imp carries_eq h.hears fun known hK => hK
        · exact Known.fine (s := { s with daemon := _ }) ⟨h.coherent, h.outs, h.hears⟩ hopen
      · cases hs
    | receive i =>
      obtain ⟨d, hstep, rfl⟩ := Option.map_eq_some_iff.mp hs
      exact (h.forwarder (.inl hstep)).fine hopen
    | enqueue i =>
      obtain ⟨d, hstep, rfl⟩ := Option.map_eq_some_iff.mp hs
      exact (h.forwarder (.inr (.inl hstep))).fine hopen
    | cancel i =>
      obtain ⟨d, hstep, rfl⟩ := Option.map_eq_some_iff.mp hs
      exact (h.forwarder (.inr (.inr hstep))).fine hopen
    | terminal id move =>
      dsimp only at hs
      split at hs
      · cases hs
      · obtain ⟨terminal, _, rfl⟩ := Option.map_eq_some_iff.mp hs
        exact (h.work (d := s.daemon.setTerminal id terminal) ⟨rfl, rfl, rfl⟩).fine hopen
    | create params env =>
      dsimp only at hs
      split at hs
      · split at hs
        · next hcreate =>
          cases hs
          exact (h.work (Daemon.create_work hcreate)).fine hopen
        · cases hs
      · cases hs
    | configure scrollbackBytes =>
      cases hs
      exact (h.work (d := { s.daemon with scrollbackBytes }) ⟨rfl, rfl, rfl⟩).fine hopen

theorem known_new (terminals : AList fun _ : TerminalId => Terminal) (maxTerminals scrollbackBytes : Nat) :
    (new terminals maxTerminals scrollbackBytes).Known where
  coherent := ClientConn.coherent_new
  outs := nofun
  hears := attended_empty rfl _ _

/-- **No output on an unknown stream.** In a run in which no output is on its way on a stream when the client drops it,
and none is sent on it afterwards, the client never fails the connection because of an unknown stream. -/
theorem no_unknown_stream (terminals : AList fun _ : TerminalId => Terminal) (maxTerminals scrollbackBytes : Nat)
    {is : List Move} (hmeets : Meets step (fun s move => s.undisturbed move = true)
      (new terminals maxTerminals scrollbackBytes) is)
    (hs : run step (new terminals maxTerminals scrollbackBytes) is = some s) :
    s.failed ≠ some ClientConn.unknownStream := by
  have hfine : s.Fine := by
    refine Steps.run_invariant (I := Fine) ?_ hmeets hs ((known_new _ _ _).fine rfl)
    intro u move v hu hc hstep
    cases hopen : u.failed with
    | none => exact (hu.2 hopen).step hc hstep
    | some e =>
      unfold Talk.step at hstep
      rw [hopen] at hstep
      cases hstep
  exact hfine.1

set_option maxRecDepth 4000 in
/-- A terminal is opened, and left when its output has been read. -/
theorem no_unknown_stream_sample : ∃ t, run step sample
    (opening 1 ++ outputting 1 [120] ++ [.output, .clientRecv, .command (.openTerminal (sampleId 2) 1)]) = some t ∧
      t.accepted.length = 1 ∧ t.failed ≠ some ClientConn.unknownStream := by
  obtain ⟨t, hs, haccepted⟩ : ∃ t, run step sample
    (opening 1 ++ outputting 1 [120] ++ [.output, .clientRecv, .command (.openTerminal (sampleId 2) 1)]) = some t ∧
      t.accepted.length = 1 := ⟨_, rfl, rfl⟩
  exact ⟨t, hs, haccepted, no_unknown_stream _ _ _ (by decide) hs⟩

set_option maxRecDepth 4000 in
/-- Output on the stream that an open has just dropped. -/
theorem open_loses_stream : ∃ t, run step sample
    (opening 1 ++ outputting 1 [120] ++ [.command (.openTerminal (sampleId 2) 1), .output, .clientRecv]) = some t ∧
      t.failed = some ClientConn.unknownStream := ⟨_, rfl, rfl⟩

end Talk

end CliPocket
