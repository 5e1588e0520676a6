import CliPocket.Pty.Filter
import CliPocket.Stream.Replies

/-!
# The stream that is attached

One connection of the daemon behind its handshake, with all it has sent, whatever the client asks and whatever becomes of
the terminals, the forwarders and the transport. The readers read here, and their filter is between them and the ring.

- `DaemonConn.step`: one move;
- `Served`: what a move of the daemon does to the attached stream, with the frame that it sends;
- `Orderly`: identifiers are given in order, and what is attached is the last stream that has been acknowledged;
- `Orderly.step`: **every move keeps it**, as long as identifiers do not run out.
-/

namespace CliPocket

open Saturating (u32Max)

/-! ## One connection -/

/-- The buffer of `spawn_reader`. -/
def readBufferBytes : Nat := 8192

structure DaemonConn where
  daemon : Daemon
  /-- The processors of the readers, but for those that are new. -/
  readers : AList fun _ : TerminalId => ServerOutputProcessor := ∅
  skipInitialCursorResponse : Bool
  sent : List FrameBody := []
  /-- The identifiers that have been given to streams. -/
  opened : List StreamId := []

namespace DaemonConn

/-- With a move that may send a frame goes whether the transport takes it. -/
inductive Move
  | serve (move : Daemon.Move) (delivered : Bool)
  | read (id : TerminalId) (bytes : List UInt8) (cursor : Nat × Nat)
  | revoked (delivered : Bool)
  | lost

/-- The end of `run_connection_post_handshake`: the streams and the receiver of the output go. -/
def hangUp (d : Daemon) : Daemon :=
  { d with
    task := .closed
    streams := { d.streams with map := ∅, output := { d.streams.output with queue := [], closed := true } } }

/-- A frame is sent, or the connection ends. -/
def send (s : DaemonConn) (frame : FrameBody) (delivered : Bool) : DaemonConn :=
  if fitsNoise frame ∧ delivered = true then { s with sent := s.sent ++ [frame] } else { s with daemon := hangUp s.daemon }

def sends (s : DaemonConn) (frame : Option FrameBody) (delivered : Bool) : DaemonConn :=
  match frame with
  | some frame => s.send frame delivered
  | none => s

/-- What is left of a daemon whose task has come to its end. -/
def settle (d : Daemon) : Daemon :=
  match d.task with
  | .closed => hangUp d
  | _ => d

/-- The identifier that an open takes. -/
def taken (before after : Daemon) : List StreamId :=
  match before.task, after.task with
  | .select, .cleared _ _ stream => [stream]
  | _, _ => []

/-- Output is for the readers alone. -/
def isPush : Daemon.Move → Bool
  | .terminal _ (.push _) => true
  | _ => false

def serve (s : DaemonConn) (move : Daemon.Move) (delivered : Bool) : Option DaemonConn :=
  if isPush move then none
  else
    (s.daemon.serve move).map fun (daemon, frame) =>
      sends { s with daemon := settle daemon, opened := s.opened ++ taken s.daemon daemon } frame delivered

/-- One turn of the loop of `spawn_reader`, up to the push: `cursor` is where the ring had its cursor. -/
def read (s : DaemonConn) (id : TerminalId) (bytes : List UInt8) (cursor : Nat × Nat) : Option DaemonConn :=
  match s.daemon.terminals.lookup id with
  | none => none
  | some t =>
    if bytes = [] ∨ readBufferBytes < bytes.length ∨ t.pushed.isSome then none
    else
      let (p, filtered) := ((s.readers.lookup id).getD (.new s.skipInitialCursorResponse)).process bytes cursor
      let (title, p) := p.takePendingTitle
      let (_, p) := p.takePendingResponse
      let t := match title with
        | some title => { t with title := some title }
        | none => t
      let s := { s with readers := s.readers.insert id p }
      if filtered = [] then some { s with daemon := s.daemon.setTerminal id t }
      else (t.push filtered).map fun t => { s with daemon := s.daemon.setTerminal id t }

def step (s : DaemonConn) : Move → Option DaemonConn
  | .serve move delivered => s.serve move delivered
  | .read id bytes cursor => s.read id bytes cursor
  | .revoked delivered =>
    match s.daemon.task with
    | .select =>
      let s := s.send (.bye .revoked) delivered
      some { s with daemon := hangUp s.daemon }
    | _ => none
  | .lost =>
    match s.daemon.task with
    | .select => some { s with daemon := hangUp s.daemon }
    | _ => none

/-- A daemon that has just been started. -/
def new (maxTerminals scrollbackBytes : Nat) (skipInitialCursorResponse : Bool) : DaemonConn where
  daemon := { maxTerminals, scrollbackBytes }
  skipInitialCursorResponse

end DaemonConn

/-! ## What has been sent -/

/-- The stream that the frame announces. -/
def FrameBody.announces : FrameBody → Option StreamId
  | .response ⟨_, .ok (.openTerminal ack)⟩ => some ack.streamId
  | _ => none

/-- The streams that have been acknowledged. -/
def acknowledged (frames : List FrameBody) : List StreamId := frames.filterMap FrameBody.announces

theorem FrameBody.Plain.announces {frame : FrameBody} (h : frame.Plain) : frame.announces = none := by
  unfold FrameBody.announces
  split
  · exact h.elim
  · rfl

@[simp] theorem acknowledged_append (xs ys : List FrameBody) :
    acknowledged (xs ++ ys) = acknowledged xs ++ acknowledged ys := List.filterMap_append

theorem acknowledged_silent {frame : FrameBody} (h : frame.announces = none) : acknowledged [frame] = [] :=
  List.filterMap_cons_none h

/-! ## What a move does -/

namespace Daemon

variable {d e : Daemon}

/-- The streams of the forwarders. -/
def forwarded (d : Daemon) : List StreamId := d.forwarders.map Forwarder.stream

/-- The attached streams, the identifiers and the forwarders are as they were. -/
structure SameStreams (d e : Daemon) : Prop where
  map : e.streams.map = d.streams.map
  next : e.streams.nextLocalStreamId = d.streams.nextLocalStreamId
  forwarded : e.forwarded = d.forwarded

theorem SameWork.sameStreams (h : SameWork d e) : SameStreams d e :=
  ⟨by rw [h.streams], by rw [h.streams], by rw [Daemon.forwarded, h.forwarders]; rfl⟩

/-- What a move does to the attached stream, and the frame it sends. -/
inductive Served (d e : Daemon) : Option FrameBody → Prop
  | plain {reply : Option FrameBody} (same : SameStreams d e)
      (task : openRequest e.task = openRequest d.task ∨ openRequest e.task = none)
      (plain : ∀ frame, reply = some frame → frame.Plain) : Served d e reply
  | begun (id : RequestId) (terminalId : TerminalId) (idle : d.task = .select) (cleared : e = d.cleared id terminalId) :
      Served d e none
  | acked (id : RequestId) (ack : OpenTerminalAck) (terminalId : TerminalId) (subscription : Nat)
      (opening : openRequest d.task = some (id, ack.streamId))
      (attached : e = d.attached ack.streamId terminalId subscription) :
      Served d e (some (.response (okResponse id (.openTerminal ack))))
  | data (out : OutboundOutput) (attached : AttachedStream) (same : SameStreams d e) (task : e.task = d.task)
      (lookup : d.streams.map.lookup out.stream = some attached) (unsent : out ∈ d.unsent) :
      Served d e (some (.streamData out.frame))

theorem forwarded_set {i : Nat} {f g : Forwarder} (hf : d.forwarders[i]? = some f) (hstream : g.stream = f.stream) :
    (d.forwarders.set i g).map Forwarder.stream = d.forwarded := by
  have hmap : (d.forwarders.map Forwarder.stream)[i]? = some g.stream := by
    rw [List.getElem?_map, hf, hstream]
    rfl
  obtain ⟨hi, hget⟩ := List.getElem?_eq_some_iff.mp hmap
  rw [List.map_set, ← hget, List.set_getElem_self]
  rfl

/-- **One move of the daemon.** -/
theorem serve_served {move : Move} {reply : Option FrameBody} (h : d.serve move = some (e, reply)) : Served d e reply := by
  cases move with
  | frame frame env =>
    unfold serve at h
    dsimp only at h
    split at h
    · obtain ⟨htask, ⟨id, terminalId, _, rfl, rfl⟩ | ⟨request, rfl, rfl⟩ | ⟨he, hplain⟩⟩ := receiveFrame_cases h
      · exact .begun id terminalId htask rfl
      · obtain ⟨hwork, hno⟩ := handleRequest_work d request env
        refine .plain hwork.sameStreams (.inl (by rw [hwork.task])) ?_
        rintro _ ⟨⟩
        exact plain_response hno
      · rcases he with rfl | rfl
        · exact .plain ⟨rfl, rfl, rfl⟩ (.inl rfl) hplain
        · exact .plain ⟨rfl, rfl, rfl⟩ (.inr rfl) hplain
    · cases h
  | openStep =>
    obtain ⟨⟨e, response⟩, hopen, heq⟩ := Option.map_eq_some_iff.mp h
    cases heq
    obtain ⟨_, _, _, _, htask, _, rfl, rfl⟩ | ⟨_, _, _, _, _, htask, _, rfl, rfl⟩ |
      ⟨_, _, _, _, _, htask, ⟨rfl, rfl⟩ | ⟨_, _, rfl, rfl⟩⟩ |
      ⟨id, terminalId, stream, subscription, snapshot, info, terminal, htask, _, rfl, rfl⟩ := openStep_cases hopen
    · exact .plain ⟨rfl, rfl, rfl⟩ (.inl (by rw [htask]; rfl)) nofun
    · exact .plain ⟨rfl, rfl, rfl⟩ (.inl (by rw [htask]; rfl)) nofun
    · refine .plain ⟨rfl, rfl, rfl⟩ (.inr rfl) ?_
      rintro _ ⟨⟩
      exact plain_errorResponse _ _
    · exact .plain ⟨rfl, rfl, rfl⟩ (.inl (by rw [htask]; rfl)) nofun
    · exact .acked id (openAck stream snapshot info terminal) terminalId subscription (by rw [htask]; rfl) rfl
  | output =>
    obtain ⟨⟨e, data⟩, houtput, heq⟩ := Option.map_eq_some_iff.mp h
    cases heq
    obtain ⟨htask, out, rest, hqueue, rfl, ⟨attached, hlookup, _, rfl⟩ | ⟨_, rfl⟩⟩ := output_cases houtput
    · refine .data out attached ⟨rfl, rfl, rfl⟩ rfl hlookup (List.mem_append_left _ ?_)
      rw [hqueue]
      exact List.mem_cons_self
    · exact .plain ⟨rfl, rfl, rfl⟩ (.inl rfl) nofun
  | receive i =>
    obtain ⟨e, hreceive, heq⟩ := Option.map_eq_some_iff.mp h
    cases heq
    obtain ⟨f, _, received, next, hf, _, _, _, _, rfl⟩ := forwarderReceive_cases hreceive
    exact .plain ⟨rfl, rfl, forwarded_set hf (f.received_stream received next)⟩ (.inl rfl) nofun
  | enqueue i =>
    obtain ⟨e, henqueue, heq⟩ := Option.map_eq_some_iff.mp h
    cases heq
    obtain ⟨f, _, _, hf, _, _, rfl⟩ := forwarderEnqueue_cases henqueue
    exact .plain ⟨rfl, rfl, forwarded_set hf rfl⟩ (.inl rfl) nofun
  | cancel i =>
    obtain ⟨e, hcancel, heq⟩ := Option.map_eq_some_iff.mp h
    cases heq
    obtain ⟨f, hf, _, rfl⟩ := forwarderCancel_cases hcancel
    exact .plain ⟨rfl, rfl, forwarded_set hf rfl⟩ (.inl rfl) nofun
  | terminal id move =>
    unfold serve at h
    dsimp only at h
    split at h
    · cases h
    · obtain ⟨u, _, heq⟩ := Option.map_eq_some_iff.mp h
      cases heq
      exact .plain ⟨rfl, rfl, rfl⟩ (.inl rfl) nofun
  | create params env =>
    unfold serve at h
    dsimp only at h
    split at h
    · split at h
      · next hcreate =>
        cases h
        have hwork := create_work hcreate
        exact .plain hwork.sameStreams (.inl (by rw [hwork.task])) nofun
      · cases h
    · cases h
  | configure scrollbackBytes =>
    cases h
    exact .plain ⟨rfl, rfl, rfl⟩ (.inl rfl) nofun

/-- The frames that have been made are on the streams they were made for. -/
def Labelled (d : Daemon) : Prop := ∀ out ∈ d.unsent, out.frame.streamId = out.stream

/-- Work that leaves the frames alone. -/
theorem SameWork.labelled (h : SameWork d e) (hd : d.Labelled) : e.Labelled := by
  intro out hout
  refine hd out ?_
  unfold Daemon.unsent at hout ⊢
  rw [← h.streams, ← h.forwarders]
  exact hout

theorem Labelled.set {i : Nat} {g : Forwarder} {output : Channel.Mpsc OutboundOutput} (h : d.Labelled)
    (hframes : ∀ out ∈ g.frames, out.frame.streamId = out.stream)
    (hqueue : ∀ out ∈ output.queue, out.frame.streamId = out.stream) :
    Labelled { d with streams := { d.streams with output }, forwarders := d.forwarders.set i g } := by
  intro out hout
  rcases List.mem_append.mp hout with hout | hout
  · exact hqueue out hout
  · rcases mem_flatMap_set hout with hout | hout
    · exact hframes out hout
    · exact h out (List.mem_append_right _ hout)

theorem Labelled.queue (h : d.Labelled) {out : OutboundOutput} (hout : out ∈ d.streams.output.queue) :
    out.frame.streamId = out.stream := h out (List.mem_append_left _ hout)

theorem Labelled.frames (h : d.Labelled) {i : Nat} {f : Forwarder} (hf : d.forwarders[i]? = some f) {out : OutboundOutput}
    (hout : out ∈ f.frames) : out.frame.streamId = out.stream :=
  h out (List.mem_append_right _ (List.mem_flatMap.mpr ⟨f, List.mem_of_getElem? hf, hout⟩))

theorem Labelled.serve {move : Move} {reply : Option FrameBody} (h : d.Labelled) (hs : d.serve move = some (e, reply)) :
    e.Labelled := by
  cases move with
  | frame frame env =>
    unfold Daemon.serve at hs
    dsimp only at hs
    split at hs
    · obtain ⟨_, ⟨id, terminalId, _, rfl, _⟩ | ⟨request, rfl, _⟩ | ⟨he, _⟩⟩ := receiveFrame_cases hs
      · intro out hout
        refine h out ?_
        unfold Daemon.unsent cleared at hout
        rw [List.flatMap_map] at hout
        exact hout
      · exact (handleRequest_work d request env).1.labelled h
      · rcases he with rfl | rfl
        · exact h
        · exact h
    · cases hs
  | openStep =>
    obtain ⟨⟨e, response⟩, hopen, heq⟩ := Option.map_eq_some_iff.mp hs
    cases heq
    obtain ⟨_, _, _, _, _, _, rfl, _⟩ | ⟨_, _, _, _, _, _, _, rfl, _⟩ |
      ⟨_, _, _, _, _, _, ⟨rfl, _⟩ | ⟨_, _, rfl, _⟩⟩ | ⟨_, _, _, _, _, _, _, _, _, rfl, _⟩ := openStep_cases hopen
    · exact h
    · exact h
    · exact h
    · exact h
    · intro out hout
      refine h out ?_
      unfold Daemon.unsent attached at hout
      rw [List.flatMap_append, List.flatMap_singleton, List.append_nil] at hout
      exact hout
  | output =>
    obtain ⟨⟨e, data⟩, houtput, heq⟩ := Option.map_eq_some_iff.mp hs
    cases heq
    obtain ⟨_, out, rest, hqueue, rfl, _⟩ := output_cases houtput
    intro out' hout'
    refine h out' ?_
    unfold Daemon.unsent at hout' ⊢
    rw [hqueue]
    exact List.mem_cons_of_mem _ hout'
  | receive i =>
    obtain ⟨e, hreceive, heq⟩ := Option.map_eq_some_iff.mp hs
    cases heq
    obtain ⟨f, _, received, next, hf, _, hframes, _, _, rfl⟩ := forwarderReceive_cases hreceive
    refine h.set (fun out hout => ?_) fun out hout => h.queue hout
    obtain ⟨hstream, _, hid⟩ := Forwarder.mem_received hframes hout
    exact hid.trans hstream.symm
  | enqueue i =>
    obtain ⟨e, henqueue, heq⟩ := Option.map_eq_some_iff.mp hs
    cases heq
    obtain ⟨f, frame, frames, hf, _, hframes, rfl⟩ := forwarderEnqueue_cases henqueue
    refine h.set (fun out hout => h.frames hf (hframes ▸ List.mem_cons_of_mem _ hout)) fun out hout => ?_
    rcases List.mem_append.mp hout with hout | hout
    · exact h.queue hout
    · cases List.mem_singleton.mp hout
      exact h.frames hf (hframes ▸ List.mem_cons_self)
  | cancel i =>
    obtain ⟨e, hcancel, heq⟩ := Option.map_eq_some_iff.mp hs
    cases heq
    obtain ⟨f, _, _, rfl⟩ := forwarderCancel_cases hcancel
    exact h.set (fun _ hout => by cases hout) fun out hout => h.queue hout
  | terminal id move =>
    unfold Daemon.serve at hs
    dsimp only at hs
    split at hs
    · cases hs
    · obtain ⟨u, _, heq⟩ := Option.map_eq_some_iff.mp hs
      cases heq
      exact h
  | create params env =>
    unfold Daemon.serve at hs
    dsimp only at hs
    split at hs
    · split at hs
      · next hcreate =>
        cases hs
        exact (create_work hcreate).labelled h
      · cases hs
    · cases hs
  | configure scrollbackBytes =>
    cases hs
    exact h

end Daemon

/-! ## What is attached -/

namespace DaemonConn

open Daemon (openRequest Served)

variable {s t : DaemonConn} {d e : Daemon}

/-- Identifiers have been given in order, and those that were acknowledged, or have a forwarder, too. -/
structure Numbered (s : DaemonConn) : Prop where
  opened : s.opened = List.range' 1 s.opened.length
  next : s.daemon.streams.nextLocalStreamId = s.opened.length + 1
  acknowledged : ∀ k ∈ acknowledged s.sent, k ∈ s.opened
  ascending : (CliPocket.acknowledged s.sent).Pairwise (· < ·)
  forwarded : ∀ k ∈ s.daemon.forwarded, k ∈ s.opened
  rising : s.daemon.forwarded.Pairwise (· < ·)
  labelled : s.daemon.Labelled

/-- While a stream is being opened nothing is attached, and all other streams are older. -/
structure Opening (s : DaemonConn) (stream : StreamId) : Prop where
  opened : stream ∈ s.opened
  map : s.daemon.streams.map = ∅
  acknowledged : ∀ k ∈ acknowledged s.sent, k < stream
  forwarded : ∀ k ∈ s.daemon.forwarded, k < stream

/-- What is attached, if anything, is the stream that was acknowledged last. -/
def Attached (s : DaemonConn) : Prop := s.daemon.streams.map = ∅ ∨
  ∃ stream attached, s.daemon.streams.map = AList.insert stream attached ∅ ∧
    (acknowledged s.sent).getLast? = some stream

structure Orderly (s : DaemonConn) : Prop extends Numbered s where
  task : ∀ id stream, openRequest s.daemon.task = some (id, stream) → Opening s stream
  attached : Attached s
  data : ∀ before data after, s.sent = before ++ .streamData data :: after →
    (CliPocket.acknowledged before).getLast? = some data.streamId

/-- An attached stream is the last that was acknowledged. -/
theorem Attached.last {stream : StreamId} {attached : AttachedStream} (h : s.Attached)
    (hlookup : s.daemon.streams.map.lookup stream = some attached) : (acknowledged s.sent).getLast? = some stream := by
  rcases h with hmap | ⟨other, _, hmap, hlast⟩
  · rw [hmap, AList.lookup_empty] at hlookup
    cases hlookup
  · by_cases heq : stream = other
    · rw [heq]
      exact hlast
    · rw [hmap, AList.lookup_insert_ne heq, AList.lookup_empty] at hlookup
      cases hlookup

theorem Attached.length_le (h : s.Attached) : s.daemon.streams.map.entries.length ≤ 1 := by
  rcases h with hmap | ⟨stream, attached, hmap, _⟩
  · rw [hmap]
    exact Nat.zero_le _
  · rw [hmap, AList.entries_insert_of_notMem (AList.notMem_empty stream)]
    exact Nat.le_refl _

/-- What follows a frame, when one more is sent. -/
theorem data_append {P : List FrameBody → StreamDataFrame → Prop} {frames : List FrameBody} {frame : FrameBody}
    (h : ∀ before data after, frames = before ++ .streamData data :: after → P before data)
    (hframe : ∀ data, frame = .streamData data → P frames data) :
    ∀ before data after, frames ++ [frame] = before ++ .streamData data :: after → P before data := by
  intro before data after heq
  rcases List.eq_nil_or_concat after with rfl | ⟨rest, last, rfl⟩
  · obtain ⟨rfl, hlast⟩ := List.append_inj' heq rfl
    exact hframe data (List.cons.inj hlast).1
  · rw [List.concat_eq_append, ← List.cons_append, ← List.append_assoc] at heq
    exact h before data rest (List.append_inj' heq rfl).1

theorem hangUp_settle (d : Daemon) : hangUp (settle d) = hangUp d := by
  unfold settle
  split <;> rfl

theorem sends_cases (s : DaemonConn) (frame : Option FrameBody) (delivered : Bool) :
    s.sends frame delivered = { s with sent := s.sent ++ frame.toList } ∨
      s.sends frame delivered = { s with daemon := hangUp s.daemon } := by
  cases frame with
  | none => exact .inl (by rw [Option.toList_none, List.append_nil]; rfl)
  | some frame =>
    unfold sends send
    dsimp only
    split
    · exact .inl rfl
    · exact .inr rfl

/-- **The connection ends**, and what was about to be sent is not. -/
theorem Orderly.hungUp {frames : List FrameBody} (h : Orderly { s with sent := s.sent ++ frames }) :
    Orderly { s with daemon := hangUp s.daemon } where
  opened := h.opened
  next := h.next
  acknowledged k hk := h.acknowledged k (by rw [acknowledged_append]; exact List.mem_append_left _ hk)
  ascending := by
    have hascending := h.ascending
    rw [acknowledged_append] at hascending
    exact (List.pairwise_append.mp hascending).1
  forwarded := h.forwarded
  rising := h.rising
  labelled out hout := h.labelled out (List.mem_append_right _ hout)
  task _ _ htask := by cases htask
  attached := .inl rfl
  data before data after heq := by
    refine h.data before data (after ++ frames) ?_
    show s.sent ++ frames = _
    rw [heq, List.append_assoc, List.cons_append]

theorem Orderly.hangUp (h : Orderly s) : Orderly { s with daemon := hangUp s.daemon } := by
  refine @Orderly.hungUp s [] ?_
  rw [List.append_nil]
  exact h

theorem Orderly.settled (h : Orderly s) : Orderly { s with daemon := settle s.daemon } := by
  unfold settle
  split
  · exact h.hangUp
  · exact h

theorem taken_eq_nil (h : openRequest e.task = openRequest d.task ∨ openRequest e.task = none) : taken d e = [] := by
  unfold taken
  split
  · next hd he =>
    rw [hd, he] at h
    rcases h with h | h <;> cases h
  · rfl

/-- An identifier is taken. -/
theorem range'_concat {ids : List StreamId} (h : ids = List.range' 1 ids.length) :
    ids ++ [ids.length + 1] = List.range' 1 (ids ++ [ids.length + 1]).length := by
  rw [List.length_append, List.length_singleton, List.range'_concat, ← h, Nat.one_mul, Nat.add_comm 1]

theorem Numbered.le (h : Numbered s) {k : StreamId} (hk : k ∈ s.opened) : k ≤ s.opened.length := by
  rw [h.opened, List.mem_range'_1] at hk
  exact Nat.lt_one_add_iff.mp hk.2

/-- Frames without an acknowledgement, or output. -/
theorem Orderly.plain (h : Orderly s) {frame : FrameBody} (hplain : frame.Plain) :
    Orderly { s with sent := s.sent ++ [frame] } := by
  have hacks : acknowledged (s.sent ++ [frame]) = acknowledged s.sent := by
    rw [acknowledged_append, acknowledged_silent hplain.announces, List.append_nil]
  refine { h with acknowledged := ?_, ascending := ?_, task := ?_, attached := ?_, data := ?_ }
  · show ∀ k ∈ acknowledged (s.sent ++ [frame]), k ∈ s.opened
    rw [hacks]
    exact h.acknowledged
  · show (acknowledged (s.sent ++ [frame])).Pairwise (· < ·)
    rw [hacks]
    exact h.ascending
  · intro id stream htask
    obtain ⟨hopened, hmap, hall, hforwarded⟩ := h.task id stream htask
    refine ⟨hopened, hmap, ?_, hforwarded⟩
    show ∀ k ∈ acknowledged (s.sent ++ [frame]), k < stream
    rw [hacks]
    exact hall
  · unfold Attached
    rw [hacks]
    exact h.attached
  · refine data_append h.data ?_
    rintro data rfl
    exact hplain.elim

/-- The daemon goes on, with its streams as they were. -/
theorem Orderly.same (h : Orderly s) (hsame : Daemon.SameStreams s.daemon e) (hlabelled : e.Labelled)
    (htask : openRequest e.task = openRequest s.daemon.task ∨ openRequest e.task = none) : Orderly { s with daemon := e } where
  opened := h.opened
  next := hsame.next.trans h.next
  acknowledged := h.acknowledged
  ascending := h.ascending
  forwarded k hk := h.forwarded k (hsame.forwarded ▸ hk)
  rising := by
    show e.forwarded.Pairwise (· < ·)
    rw [hsame.forwarded]
    exact h.rising
  labelled := hlabelled
  task id stream hopen := by
    rcases htask with hkept | hnone
    · obtain ⟨hopened, hmap, hall, hforwarded⟩ := h.task id stream (hkept ▸ hopen)
      exact ⟨hopened, hsame.map.trans hmap, hall, fun k hk => hforwarded k (hsame.forwarded ▸ hk)⟩
    · cases hnone.symm.trans hopen
  attached := by
    unfold Attached
    rw [show ({ s with daemon := e } : DaemonConn).daemon.streams.map = s.daemon.streams.map from hsame.map]
    exact h.attached
  data := h.data

/-- An open begins. -/
theorem Orderly.begun (h : Orderly s) (hroom : s.opened.length + 1 < u32Max) (id : RequestId) (terminalId : TerminalId)
    (hlabelled : (s.daemon.cleared id terminalId).Labelled) :
    Orderly { s with daemon := s.daemon.cleared id terminalId, opened := s.opened ++ [s.opened.length + 1] } := by
  have hforwarded : (s.daemon.cleared id terminalId).forwarded = s.daemon.forwarded := by
    unfold Daemon.forwarded Daemon.cleared
    rw [List.map_map]
    rfl
  have hstays : ∀ {k}, k ∈ s.opened → k ∈ s.opened ++ [s.opened.length + 1] := List.mem_append_left _
  refine ⟨⟨range'_concat h.opened, ?_, fun k hk => hstays (h.acknowledged k hk), h.ascending, ?_, ?_, hlabelled⟩, ?_, .inl rfl,
    h.data⟩
  · show Saturating.add u32Max s.daemon.streams.nextLocalStreamId 1 = _
    rw [h.next, List.length_append, List.length_singleton]
    unfold Saturating.add
    omega
  · intro k hk
    exact hstays (h.forwarded k (hforwarded ▸ hk))
  · show (s.daemon.cleared id terminalId).forwarded.Pairwise (· < ·)
    rw [hforwarded]
    exact h.rising
  · intro id' stream htask
    cases htask
    show Opening _ s.daemon.streams.nextLocalStreamId
    rw [h.next]
    refine ⟨List.mem_append_right _ List.mem_cons_self, rfl, ?_, ?_⟩
    · intro k hk
      exact Nat.lt_succ_of_le (h.le (h.acknowledged k hk))
    · intro k hk
      exact Nat.lt_succ_of_le (h.le (h.forwarded k (hforwarded ▸ hk)))

/-- A stream is attached, and acknowledged. -/
theorem Orderly.acked (h : Orderly s) {id : RequestId} {ack : OpenTerminalAck} {terminalId : TerminalId} {subscription : Nat}
    (hopen : openRequest s.daemon.task = some (id, ack.streamId))
    (hlabelled : (s.daemon.attached ack.streamId terminalId subscription).Labelled) :
    Orderly { s with
      daemon := s.daemon.attached ack.streamId terminalId subscription
      sent := s.sent ++ [.response (okResponse id (.openTerminal ack))] } := by
  obtain ⟨hopened, hmap, hall, hforwarded⟩ := h.task _ _ hopen
  have hacks : acknowledged (s.sent ++ [.response (okResponse id (.openTerminal ack))]) =
      acknowledged s.sent ++ [ack.streamId] := acknowledged_append _ _
  have hstreams : (s.daemon.attached ack.streamId terminalId subscription).forwarded =
      s.daemon.forwarded ++ [ack.streamId] := List.map_append
  have hconcat : ∀ {ids : List StreamId}, ids.Pairwise (· < ·) → (∀ k ∈ ids, k < ack.streamId) →
      (ids ++ [ack.streamId]).Pairwise (· < ·) := by
    intro ids hids hlt
    refine List.pairwise_append.mpr ⟨hids, List.pairwise_singleton _ _, ?_⟩
    intro k hk k' hk'
    cases List.mem_singleton.mp hk'
    exact hlt k hk
  have hmem : ∀ {ids : List StreamId}, (∀ k ∈ ids, k ∈ s.opened) → ∀ k ∈ ids ++ [ack.streamId], k ∈ s.opened := by
    intro ids hids k hk
    rcases List.mem_append.mp hk with hk | hk
    · exact hids k hk
    · cases List.mem_singleton.mp hk
      exact hopened
  refine ⟨⟨h.opened, h.next, ?_, ?_, ?_, ?_, hlabelled⟩, fun _ _ htask => (by cases htask), .inr ⟨ack.streamId, ⟨terminalId⟩, ?_, ?_⟩,
    data_append h.data nofun⟩
  · show ∀ k ∈ acknowledged (s.sent ++ [_]), k ∈ s.opened
    rw [hacks]
    exact hmem h.acknowledged
  · show (acknowledged (s.sent ++ [_])).Pairwise (· < ·)
    rw [hacks]
    exact hconcat h.ascending hall
  · rw [hstreams]
    exact hmem h.forwarded
  · rw [hstreams]
    exact hconcat h.rising hforwarded
  · show s.daemon.streams.map.insert ack.streamId { terminalId } = _
    rw [hmap]
  · rw [hacks, List.getLast?_concat]

/-- Output is sent on the stream that is attached. -/
theorem Orderly.sentData (h : Orderly s) {data : StreamDataFrame}
    (hlast : (acknowledged s.sent).getLast? = some data.streamId) :
    Orderly { s with sent := s.sent ++ [.streamData data] } := by
  have hacks : acknowledged (s.sent ++ [.streamData data]) = acknowledged s.sent := by
    rw [acknowledged_append, acknowledged_silent rfl, List.append_nil]
  refine { h with acknowledged := ?_, ascending := ?_, task := ?_, attached := ?_, data := ?_ }
  · show ∀ k ∈ acknowledged (s.sent ++ [_]), k ∈ s.opened
    rw [hacks]
    exact h.acknowledged
  · show (acknowledged (s.sent ++ [_])).Pairwise (· < ·)
    rw [hacks]
    exact h.ascending
  · intro id stream htask
    obtain ⟨hopened, hmap, hall, hforwarded⟩ := h.task id stream htask
    refine ⟨hopened, hmap, ?_, hforwarded⟩
    show ∀ k ∈ acknowledged (s.sent ++ [_]), k < stream
    rw [hacks]
    exact hall
  · unfold Attached
    rw [hacks]
    exact h.attached
  · refine data_append h.data ?_
    rintro _ ⟨⟩
    exact hlast

/-- **One move of the daemon**, when its frame is sent. -/
theorem Orderly.served {reply : Option FrameBody} (h : Orderly s) (hserved : Served s.daemon e reply) (hlabelled : e.Labelled)
    (hroom : (s.opened ++ taken s.daemon e).length < u32Max) :
    Orderly { s with daemon := e, opened := s.opened ++ taken s.daemon e, sent := s.sent ++ reply.toList } := by
  cases hserved with
  | plain hsame htask hplain =>
    rw [taken_eq_nil htask, List.append_nil]
    have hnext := h.same hsame hlabelled htask
    cases reply with
    | none =>
      rw [Option.toList_none, List.append_nil]
      exact hnext
    | some frame => exact hnext.plain (hplain frame rfl)
  | begun id terminalId hidle hcleared =>
    subst hcleared
    have htaken : taken s.daemon (s.daemon.cleared id terminalId) = [s.opened.length + 1] := by
      unfold taken
      rw [hidle, ← h.next]
      rfl
    rw [htaken] at hroom ⊢
    rw [Option.toList_none, List.append_nil]
    rw [List.length_append, List.length_singleton] at hroom
    exact h.begun hroom id terminalId hlabelled
  | acked id ack terminalId subscription hopen hattached =>
    subst hattached
    rw [taken_eq_nil (.inr rfl), List.append_nil]
    exact h.acked hopen hlabelled
  | data out attached hsame htask hlookup hunsent =>
    rw [taken_eq_nil (.inl (by rw [htask])), List.append_nil]
    have hnext := h.same hsame hlabelled (.inl (by rw [htask]))
    refine hnext.sentData ?_
    rw [h.labelled out hunsent]
    exact h.attached.last hlookup

/-- **A turn of a reader.** -/
theorem read_cases {id : TerminalId} {bytes : List UInt8} {cursor : Nat × Nat} (h : s.read id bytes cursor = some t) :
    ∃ terminal p title u readers, s.daemon.terminals.lookup id = some terminal ∧ bytes.length ≤ readBufferBytes ∧
      (u = { terminal with title } ∨
        Terminal.push { terminal with title }
          (((s.readers.lookup id).getD (.new s.skipInitialCursorResponse)).process bytes cursor).2 = some u) ∧
      p.pending = (((s.readers.lookup id).getD (.new s.skipInitialCursorResponse)).process bytes cursor).1.pending ∧
      readers = s.readers.insert id p ∧ t = { s with readers, daemon := s.daemon.setTerminal id u } := by
  unfold read at h
  split at h
  · cases h
  · next terminal hterminal =>
    split at h
    · cases h
    · next hguard =>
      rw [not_or, not_or] at hguard
      have hlength : bytes.length ≤ readBufferBytes := Nat.not_lt.mp hguard.2.1
      revert h
      generalize hprocess : ((s.readers.lookup id).getD (.new s.skipInitialCursorResponse)).process bytes cursor = result
      obtain ⟨p, filtered⟩ := result
      obtain ⟨title, htitle⟩ : ∃ title, (match p.pendingTitle with
          | some title => ({ terminal with title := some title } : Terminal)
          | none => terminal) = { terminal with title } := by
        split
        · exact ⟨_, rfl⟩
        · exact ⟨terminal.title, rfl⟩
      intro h
      simp only [ServerOutputProcessor.takePendingTitle, ServerOutputProcessor.takePendingResponse, htitle] at h
      split at h
      · cases h
        exact ⟨terminal, { p with pendingTitle := none, pendingResponse := [] }, title, _, _, hterminal, hlength, .inl rfl, rfl, rfl,
          rfl⟩
      · obtain ⟨u, hpush, rfl⟩ := Option.map_eq_some_iff.mp h
        exact ⟨terminal, { p with pendingTitle := none, pendingResponse := [] }, title, u, _, hterminal, hlength, .inr hpush, rfl,
          rfl, rfl⟩

/-- Readers have nothing to do with streams. -/
theorem Orderly.readers (h : Orderly s) (readers : AList fun _ : TerminalId => ServerOutputProcessor) :
    Orderly { s with readers } where
  opened := h.opened
  next := h.next
  acknowledged := h.acknowledged
  ascending := h.ascending
  forwarded := h.forwarded
  rising := h.rising
  labelled := h.labelled
  task id stream htask := by
    obtain ⟨hopened, hmap, hall, hforwarded⟩ := h.task id stream htask
    exact ⟨hopened, hmap, hall, hforwarded⟩
  attached := h.attached
  data := h.data

/-- **Every move** keeps the streams in order, as long as identifiers do not run out. -/
theorem Orderly.step {move : Move} (h : Orderly s) (hs : s.step move = some t) (hroom : t.opened.length < u32Max) :
    Orderly t := by
  cases move with
  | serve move delivered =>
    unfold DaemonConn.step serve at hs
    dsimp only at hs
    split at hs
    · cases hs
    · obtain ⟨⟨e, reply⟩, hserve, rfl⟩ := Option.map_eq_some_iff.mp hs
      have hopened : ∀ (c : DaemonConn), (c.sends reply delivered).opened = c.opened := by
        intro c
        rcases c.sends_cases reply delivered with hsent | hlost
        · rw [hsent]
        · rw [hlost]
      rw [hopened] at hroom
      have hnext := h.served (Daemon.serve_served hserve) (h.labelled.serve hserve) hroom
      rcases sends_cases { s with daemon := settle e, opened := s.opened ++ taken s.daemon e } reply delivered with hsent | hlost
      · rw [hsent]
        exact hnext.settled
      · rw [hlost]
        dsimp only
        rw [hangUp_settle]
        exact @Orderly.hungUp { s with daemon := e, opened := s.opened ++ taken s.daemon e } _ hnext
  | read id bytes cursor =>
    obtain ⟨_, _, _, u, readers, _, _, _, _, _, rfl⟩ := read_cases hs
    exact (h.readers readers).same (e := s.daemon.setTerminal id u) ⟨rfl, rfl, rfl⟩ h.labelled (.inl rfl)
  | revoked delivered =>
    unfold DaemonConn.step at hs
    dsimp only at hs
    split at hs
    · cases hs
      unfold send
      split
      · exact (h.plain (show FrameBody.Plain (.bye .revoked) from trivial)).hangUp
      · exact h.hangUp.hangUp
    · cases hs
  | lost =>
    unfold DaemonConn.step at hs
    dsimp only at hs
    split at hs
    · cases hs
      exact h.hangUp
    · cases hs

end DaemonConn

end CliPocket
