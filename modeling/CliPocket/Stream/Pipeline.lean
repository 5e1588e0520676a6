import CliPocket.Stream.Cursor

/-!
# Output on its way to a client

From the chunks of a terminal, by its forwarder and the output queue, to the frames that are sent.

- `Daemon.Feeds`: one forwarder alone makes the frames that follow a place in the output;
- `Daemon.Goes`: what a forwarder's move does;
- `Daemon.Onto`: the daemon goes on, and what is ahead of a client still follows;
- `Daemon.flowing_openStep`, `flowing_output`: **an open, and a frame of output**.
-/

namespace CliPocket

open Saturating (u32Max u64Max)

/-! ## Chunks and their frames -/

theorem mem_chunks_le : ∀ {start : Nat} {chunks : List OutputChunk}, Chunks start chunks → ∀ chunk ∈ chunks,
    chunk.bytes ≠ [] ∧ chunk.bytes.length ≤ chunk.seqAtEnd
  | _, [], _, _, h => by cases h
  | start, chunk :: rest, ⟨hne, hseq, hrest⟩, c, h => by
    rcases List.mem_cons.mp h with rfl | h
    · refine ⟨hne, ?_⟩
      rw [hseq]
      exact Nat.le_add_left _ _
    · exact mem_chunks_le hrest c h

theorem bytes_pieceFrames {stream : StreamId} {terminalId : TerminalId} {start : Nat} {out : OutboundOutput} :
    ∀ {sent : Nat} {pieces : List (List UInt8)}, out ∈ pieceFrames stream terminalId start sent pieces →
      out.frame.bytes ∈ pieces
  | _, [], h => by cases h
  | sent, piece :: pieces, h => by
    rcases List.mem_cons.mp h with rfl | h
    · exact List.mem_cons_self
    · exact List.mem_cons_of_mem _ (bytes_pieceFrames h)

/-- No frame of a chunk is empty. -/
theorem liveFrames_ne_nil {stream : StreamId} {terminalId : TerminalId} {chunk : OutputChunk} {data : StreamDataFrame}
    (h : data ∈ liveFrames stream terminalId chunk) : data.bytes ≠ [] := by
  unfold liveFrames liveOutputFrames at h
  dsimp only at h
  split_ifs at h
  · cases h
  · cases h
  · obtain ⟨out, hout, rfl⟩ := List.mem_map.mp h
    exact (Chunks.mem_chunksOf (by decide) (bytes_pieceFrames hout)).1

theorem liveOutputFrames_ok {stream : StreamId} {terminalId : TerminalId} {chunk : OutputChunk}
    (h : chunk.bytes.length ≤ chunk.seqAtEnd) : ∃ frames, liveOutputFrames stream terminalId chunk = .ok frames ∧
      frames.map OutboundOutput.frame = liveFrames stream terminalId chunk := by
  unfold liveFrames
  cases hframes : liveOutputFrames stream terminalId chunk with
  | ok frames => exact ⟨frames, rfl, rfl⟩
  | error e =>
    unfold liveOutputFrames at hframes
    dsimp only at hframes
    rw [if_neg (Nat.not_lt.mpr h)] at hframes
    split at hframes <;> cases hframes

/-- The first of two frames that follow one another in `L` does not end it. -/
theorem Follows.first_lt {L : List UInt8} {last stop : Nat} {data next : StreamDataFrame} {rest : List StreamDataFrame}
    (h : Follows False L last (data :: next :: rest) stop) (hne : next.bytes ≠ []) : data.seq < stop := by
  obtain ⟨_, hrest⟩ := h.resolve_left And.left
  have hstop := hrest.bytes.1
  rw [List.flatMap_cons, List.length_append] at hstop
  have hpos := List.length_pos_iff.mpr hne
  rw [← hstop]
  refine Nat.lt_add_of_pos_right ?_
  exact Nat.lt_of_lt_of_le hpos (Nat.le_add_right _ _)

namespace Terminal

variable {torn : Prop} {t u : Terminal} {stream : StreamId} {terminalId : TerminalId}

/-- The frames of the output that a subscriber has still to get. -/
def ahead (t : Terminal) (next : Nat) (stream : StreamId) (terminalId : TerminalId) : List StreamDataFrame :=
  (t.remaining next).flatMap (liveFrames stream terminalId)

/-- **The seam** between a snapshot and a subscription before it: no frame is ahead, or more than one is, of which the
first goes back. -/
theorem Sound.seam (h : t.Sound) (hroom : t.output.length ≤ u64Max) {next : Nat}
    (hseam : (t.ahead next stream terminalId).length = 0 ∨ (torn ∧ 2 ≤ (t.ahead next stream terminalId).length)) :
    Follows torn t.output t.output.length (t.ahead next stream terminalId) t.output.length := by
  obtain ⟨start, hfollows⟩ := @Sound.follows False t h hroom next stream terminalId
  have hne : ∀ data ∈ t.ahead next stream terminalId, data.bytes ≠ [] := by
    intro data hdata
    obtain ⟨chunk, _, hlive⟩ := List.mem_flatMap.mp hdata
    exact liveFrames_ne_nil hlive
  unfold ahead at hne hseam ⊢
  match hframes : (t.remaining next).flatMap (liveFrames stream terminalId), hseam with
  | [], _ => rfl
  | [_], hseam =>
    rcases hseam with h | ⟨_, h⟩
    · cases h
    · exact absurd h (Nat.not_succ_le_self 1)
  | data :: data' :: rest, hseam =>
    rw [hframes] at hfollows hne
    have htorn : torn := (hseam.resolve_left (Nat.succ_ne_zero _)).1
    exact .inl ⟨htorn, hfollows.first_lt (hne data' (List.mem_cons_of_mem _ List.mem_cons_self))⟩

/-- A snapshot, taken when a subscriber had come to `subscription`. -/
structure Shot (torn : Prop) (t : Terminal) (stream : StreamId) (terminalId : TerminalId) (subscription : Nat)
    (snapshot : Snapshot) : Prop where
  length_le : snapshot.bytes.length ≤ snapshot.headSeq
  head_le : snapshot.headSeq ≤ t.output.length
  bytes : snapshot.bytes = (t.output.take snapshot.headSeq).drop (startSeq snapshot)
  follows : Follows torn t.output snapshot.headSeq (t.ahead subscription stream terminalId) t.output.length

theorem Shot.grows {subscription : Nat} {snapshot : Snapshot} (h : Shot torn t stream terminalId subscription snapshot)
    (hu : Grows torn t u) (hle : subscription ≤ t.sent.length) : Shot torn u stream terminalId subscription snapshot := by
  obtain ⟨more, houtput⟩ := hu.output
  have hfollows : Follows torn t.output snapshot.headSeq ([] ++ t.ahead subscription stream terminalId) t.output.length :=
    h.follows
  refine ⟨h.length_le, ?_, ?_, hu.follows hle hfollows⟩
  · rw [houtput, List.length_append]
    exact Nat.le_add_right_of_le h.head_le
  · rw [houtput, List.take_append_of_le_length h.head_le]
    exact h.bytes

/-- **A snapshot is taken.** -/
theorem Sound.shot (h : t.Sound) (hroom : t.output.length ≤ u64Max) {subscription : Nat} (maxBytes : Nat)
    (hseam : (t.ahead subscription stream terminalId).length = 0 ∨
      (torn ∧ 2 ≤ (t.ahead subscription stream terminalId).length)) :
    Shot torn t stream terminalId subscription (t.ring.snapshotWithMaxBytes maxBytes) := by
  have hhead := (h.window.snapshotWithMaxBytes_cases maxBytes).1
  obtain ⟨hbytes, hlength⟩ := h.window.snapshotWithMaxBytes_bytes maxBytes
  refine ⟨?_, Nat.le_of_eq hhead, ?_, ?_⟩
  · rw [hhead]
    exact Nat.le_trans hlength (Nat.le_trans (Nat.min_le_right _ _) (Nat.sub_le _ _))
  · unfold startSeq
    rw [hhead, List.take_length]
    exact hbytes
  · rw [hhead]
    exact h.seam hroom hseam

/-- The answer to the open shows it. -/
theorem Shot.shows {subscription : Nat} {snapshot : Snapshot} (h : Shot torn t stream terminalId subscription snapshot)
    (info : TerminalInfo) (terminal : Terminal) : Shows t.output (Daemon.openAck stream snapshot info terminal) where
  start_le := Nat.sub_le _ _
  end_le := h.head_le
  bytes := by
    have hlength : snapshot.headSeq - startSeq snapshot = snapshot.bytes.length := by
      unfold startSeq
      exact Nat.sub_sub_self h.length_le
    show (renderBytes snapshot).drop ((renderBytes snapshot).length - (snapshot.headSeq - startSeq snapshot)) = _
    rw [hlength]
    unfold renderBytes
    rw [List.length_append, Nat.add_sub_cancel_right, List.drop_left]
    exact h.bytes

end Terminal

/-! ## A daemon's frames -/

/-- The stream that is being opened. -/
def ConnTask.stream : ConnTask → Option StreamId
  | .cleared _ _ stream | .subscribed _ _ stream _ | .snapshotted _ _ stream _ _ | .found _ _ stream _ _ _ => some stream
  | .select | .closed => none

namespace Daemon

variable {torn : Prop} {d e : Daemon} {p : Cursor} {cursor : Option Cursor}

/-- All output of a terminal. -/
def outputs (d : Daemon) (id : TerminalId) : List UInt8 := (d.terminals.lookup id).elim [] Terminal.output

theorem outputs_eq {id : TerminalId} {t : Terminal} (h : d.terminals.lookup id = some t) : d.outputs id = t.output := by
  unfold outputs
  rw [h]
  rfl

/-- What the output queue has for the stream. -/
def queuedFor (d : Daemon) (stream : StreamId) (terminalId : TerminalId) : List StreamDataFrame :=
  (d.streams.output.queue.filter fun out => out.stream = stream ∧ out.terminalId = terminalId).map OutboundOutput.frame

/-- **Forwarder `i` alone** makes the frames that follow `p`. -/
structure Feeds (torn : Prop) (d : Daemon) (p : Cursor) (i : Nat) (f : Forwarder) (t : Terminal) : Prop where
  forwarder : d.forwarders[i]? = some f
  stream : f.stream = p.stream
  terminalId : f.terminalId = p.terminalId
  running : f.stopped = false ∧ f.aborted = false
  alone : ∀ (j : Nat) g, j ≠ i → d.forwarders[j]? = some g → g.stopped = true ∨ g.stream ≠ p.stream
  terminal : d.terminals.lookup p.terminalId = some t
  next_le : f.next ≤ t.sent.length
  follows : Follows torn t.output p.last (d.queuedFor p.stream p.terminalId ++ (f.frames.map OutboundOutput.frame ++
    t.ahead f.next p.stream p.terminalId)) t.output.length

/-- A client that will be at `cursor` is fed, if its stream is attached. -/
def Ahead (torn : Prop) (d : Daemon) (cursor : Option Cursor) : Prop :=
  ∀ p, cursor = some p → ∀ attached, d.streams.map.lookup p.stream = some attached →
    attached.terminalId = p.terminalId ∧ ∃ i f t, Feeds torn d p i f t

theorem ahead_none : Ahead torn d none := fun _ h => by cases h

theorem ahead_detached (h : d.streams.map = ∅) : Ahead torn d cursor := by
  intro p _ attached hattached
  rw [h, AList.lookup_empty] at hattached
  cases hattached

/-- The frames that have been made are of the forwarder that has them. -/
structure Tagged (d : Daemon) : Prop where
  frames : ∀ f ∈ d.forwarders, ∀ out ∈ f.frames,
    out.stream = f.stream ∧ out.terminalId = f.terminalId ∧ out.frame.streamId = f.stream
  queue : ∀ out ∈ d.streams.output.queue, out.frame.streamId = out.stream

/-- All streams that frames are made for are below `n`. -/
structure Below (d : Daemon) (n : StreamId) : Prop where
  queue : ∀ out ∈ d.streams.output.queue, out.stream < n
  forwarders : ∀ f ∈ d.forwarders, f.stream < n

/-- Nothing is left of a stream with this identifier. -/
def Unused (d : Daemon) (stream : StreamId) : Prop :=
  (∀ out ∈ d.streams.output.queue, out.stream ≠ stream) ∧ ∀ f ∈ d.forwarders, f.stopped = true ∨ f.stream ≠ stream

instance (d : Daemon) (stream : StreamId) : Decidable (d.Unused stream) := inferInstanceAs (Decidable (_ ∧ _))

theorem Below.unused {n : StreamId} (h : d.Below n) : d.Unused n :=
  ⟨fun out hout => Nat.ne_of_lt (h.queue out hout), fun f hf => .inr (Nat.ne_of_lt (h.forwarders f hf))⟩

theorem Below.mono {n m : StreamId} (h : d.Below n) (hle : n ≤ m) : d.Below m :=
  ⟨fun out hout => Nat.lt_of_lt_of_le (h.queue out hout) hle, fun f hf => Nat.lt_of_lt_of_le (h.forwarders f hf) hle⟩

/-- Identifiers go up, until they have run out. -/
structure Counted (d : Daemon) : Prop where
  next : d.streams.nextLocalStreamId < u32Max → d.Below d.streams.nextLocalStreamId
  opening : ∀ stream, d.task.stream = some stream → (d.Below stream ∧ d.streams.nextLocalStreamId = stream + 1) ∨
    (u32Max ≤ stream ∧ u32Max ≤ d.streams.nextLocalStreamId)

/-- Nothing is attached while a terminal is being opened. -/
def Opening (torn : Prop) (d : Daemon) : Prop :=
  match d.task with
  | .cleared _ _ _ => d.streams.map = ∅
  | .subscribed _ terminalId _ subscription => d.streams.map = ∅ ∧
    ∃ t, d.terminals.lookup terminalId = some t ∧ subscription ≤ t.sent.length
  | .snapshotted _ terminalId stream subscription snapshot => d.streams.map = ∅ ∧
    ∃ t, d.terminals.lookup terminalId = some t ∧ subscription ≤ t.sent.length ∧
      Terminal.Shot torn t stream terminalId subscription snapshot
  | .found _ terminalId stream subscription snapshot info => d.streams.map = ∅ ∧ info.terminal = terminalId ∧
    ∃ t, d.terminals.lookup terminalId = some t ∧ subscription ≤ t.sent.length ∧
      Terminal.Shot torn t stream terminalId subscription snapshot
  | .select | .closed => True

structure Flowing (torn : Prop) (d : Daemon) : Prop where
  recorded : d.Recorded
  tagged : d.Tagged
  counted : d.Counted
  opening : d.Opening torn

/-- The daemon goes on, and what is ahead of a client still follows. -/
structure Onto (torn : Prop) (d e : Daemon) : Prop where
  flowing : Flowing torn e
  outputs : ∀ id, d.outputs id <+: e.outputs id
  ahead : ∀ cursor, Ahead torn d cursor → Ahead torn e cursor

/-! ### The terminals go on -/

theorem Grown.outputs (h : Grown torn d e) (id : TerminalId) : d.outputs id <+: e.outputs id := by
  cases hid : d.terminals.lookup id with
  | none =>
    unfold Daemon.outputs
    rw [hid]
    exact List.nil_prefix
  | some t =>
    obtain ⟨u, hu, hgrows⟩ := h.grows id t hid
    obtain ⟨more, hmore⟩ := hgrows.output
    rw [outputs_eq hid, outputs_eq hu, hmore]
    exact List.prefix_append _ _

/-- They are the terminals of what is fed and of what is being opened. -/
theorem Flowing.grown (h : Flowing torn d) (hgrown : Grown torn d e) (hstreams : e.streams = d.streams)
    (hforwarders : e.forwarders = d.forwarders) (htask : e.task = d.task) : Onto torn d e where
  flowing := by
    refine ⟨hgrown.recorded, ⟨hforwarders ▸ h.tagged.frames, hstreams ▸ h.tagged.queue⟩, ⟨?_, ?_⟩, ?_⟩
    · intro hlt
      rw [hstreams] at hlt ⊢
      obtain ⟨hqueue, hall⟩ := h.counted.next hlt
      exact ⟨by rw [hstreams]; exact hqueue, by rw [hforwarders]; exact hall⟩
    · intro stream hstream
      rw [hstreams]
      refine (h.counted.opening stream (htask ▸ hstream)).imp ?_ id
      rintro ⟨⟨hqueue, hall⟩, hnext⟩
      exact ⟨⟨by rw [hstreams]; exact hqueue, by rw [hforwarders]; exact hall⟩, hnext⟩
    · have hopening := h.opening
      unfold Opening at hopening ⊢
      rw [htask]
      split at hopening
      · rw [hstreams]
        exact hopening
      · obtain ⟨hmap, t, ht, hle⟩ := hopening
        obtain ⟨u, hu, hgrows⟩ := hgrown.grows _ t ht
        exact ⟨by rw [hstreams]; exact hmap, u, hu, Nat.le_trans hle hgrows.sent⟩
      · obtain ⟨hmap, t, ht, hle, hshot⟩ := hopening
        obtain ⟨u, hu, hgrows⟩ := hgrown.grows _ t ht
        exact ⟨by rw [hstreams]; exact hmap, u, hu, Nat.le_trans hle hgrows.sent, hshot.grows hgrows hle⟩
      · obtain ⟨hmap, hinfo, t, ht, hle, hshot⟩ := hopening
        obtain ⟨u, hu, hgrows⟩ := hgrown.grows _ t ht
        exact ⟨by rw [hstreams]; exact hmap, hinfo, u, hu, Nat.le_trans hle hgrows.sent, hshot.grows hgrows hle⟩
      · trivial
      · trivial
  outputs := hgrown.outputs
  ahead cursor hahead := by
    intro p hp attached hattached
    obtain ⟨hid, i, f, t, hfeeds⟩ := hahead p hp attached (hstreams ▸ hattached)
    obtain ⟨u, hu, hgrows⟩ := hgrown.grows _ t hfeeds.terminal
    refine ⟨hid, i, f, u, ⟨hforwarders ▸ hfeeds.forwarder, hfeeds.stream, hfeeds.terminalId, hfeeds.running, ?_, hu,
      Nat.le_trans hfeeds.next_le hgrows.sent, ?_⟩⟩
    · rw [hforwarders]
      exact hfeeds.alone
    · have hfollows := hfeeds.follows
      rw [← List.append_assoc] at hfollows ⊢
      unfold queuedFor at hfollows ⊢
      rw [hstreams]
      exact hgrows.follows hfeeds.next_le hfollows

/-! ### The forwarders -/

/-- Forwarder `j` goes on, and queues the frames `added`: what it makes of the output stays the same. -/
structure Goes (d e : Daemon) (j : Nat) (g g' : Forwarder) (added : List OutboundOutput) : Prop where
  was : d.forwarders[j]? = some g
  now : e = { d with
    streams := { d.streams with output := { d.streams.output with queue := d.streams.output.queue ++ added } }
    forwarders := d.forwarders.set j g' }
  stream : g'.stream = g.stream
  terminalId : g'.terminalId = g.terminalId
  stopped : g.stopped = true → added = [] ∧ g'.stopped = true
  tagged : ∀ out ∈ added ++ g'.frames,
    out.stream = g.stream ∧ out.terminalId = g.terminalId ∧ out.frame.streamId = g.stream
  flow : g.aborted = false → ∀ t, d.terminals.lookup g.terminalId = some t → g.next ≤ t.sent.length →
    (g'.stopped = false ∧ g'.aborted = false) ∧ g'.next ≤ t.sent.length ∧
      (added ++ g'.frames).map OutboundOutput.frame ++ t.ahead g'.next g.stream g.terminalId =
        g.frames.map OutboundOutput.frame ++ t.ahead g.next g.stream g.terminalId

/-- A forwarder that is not aborted has not fallen behind. -/
def Keeps (d : Daemon) (j : Nat) : Prop :=
  ∀ g, d.forwarders[j]? = some g → g.aborted = false → ∀ t, d.terminals.lookup g.terminalId = some t →
    t.sent.length - subscriberCap ≤ g.next

instance (d : Daemon) (j : Nat) : Decidable (d.Keeps j) :=
  inferInstanceAs (Decidable (∀ g ∈ d.forwarders[j]?, g.aborted = false → ∀ t ∈ d.terminals.lookup g.terminalId,
    t.sent.length - subscriberCap ≤ g.next))

/-- **It receives**, and has not fallen behind. -/
theorem goes_receive (hrecorded : d.Recorded) {j : Nat} (hs : d.forwarderReceive j = some e) (hkeeps : d.Keeps j) :
    ∃ g g', Goes d e j g g' [] := by
  obtain ⟨g, terminal, received, next, hg, hstopped, hframes, hterminal, hreceive, rfl⟩ := forwarderReceive_cases hs
  refine ⟨g, g.received received next, hg, ?_, g.received_stream received next, g.received_terminalId received next, ?_, ?_, ?_⟩
  · rw [List.append_nil]
  · rw [hstopped]
    nofun
  · intro out hout
    exact Forwarder.mem_received hframes hout
  · intro haborted t ht hle
    cases hterminal.symm.trans ht
    have hnear := hkeeps g hg haborted terminal hterminal
    unfold CliPocket.receive at hreceive
    dsimp only at hreceive
    rw [if_neg (Nat.not_lt.mpr hnear)] at hreceive
    obtain ⟨chunk, hchunk, heq⟩ := Option.map_eq_some_iff.mp hreceive
    cases heq
    have hmem : chunk ∈ terminal.sent ++ terminal.pushed.toList := List.mem_append_left _ (List.mem_of_getElem? hchunk)
    have hsound := (hrecorded _ _ hterminal).1
    obtain ⟨frames, hlive, hmap⟩ := @liveOutputFrames_ok g.stream g.terminalId chunk (mem_chunks_le hsound.chunks chunk hmem).2
    have hreceived : g.received (.chunk chunk) (g.next + 1) = { g with next := g.next + 1, frames } := by
      unfold Forwarder.received
      dsimp only
      rw [hlive]
    have hahead : terminal.ahead g.next g.stream g.terminalId =
        liveFrames g.stream g.terminalId chunk ++ terminal.ahead (g.next + 1) g.stream g.terminalId := by
      unfold Terminal.ahead Terminal.remaining
      rw [List.drop_eq_getElem?_toList_append, hchunk]
      rfl
    rw [hreceived, List.nil_append, hframes, List.map_nil, List.nil_append, hahead, ← hmap]
    exact ⟨⟨hstopped, haborted⟩, (List.getElem?_eq_some_iff.mp hchunk).1, rfl⟩

/-- **It queues a frame.** -/
theorem goes_enqueue (htagged : d.Tagged) {j : Nat} (hs : d.forwarderEnqueue j = some e) :
    ∃ g g' added, Goes d e j g g' added := by
  obtain ⟨g, frame, frames, hg, hstopped, hframes, rfl⟩ := forwarderEnqueue_cases hs
  refine ⟨g, { g with frames }, [frame], hg, rfl, rfl, rfl, ?_, ?_, ?_⟩
  · rw [hstopped]
    nofun
  · intro out hout
    exact htagged.frames g (List.mem_of_getElem? hg) out (hframes ▸ hout)
  · intro haborted t ht hle
    refine ⟨⟨hstopped, haborted⟩, hle, ?_⟩
    rw [hframes]
    rfl

/-- **It comes to its end.** -/
theorem goes_cancel {j : Nat} (hs : d.forwarderCancel j = some e) : ∃ g g', Goes d e j g g' [] := by
  obtain ⟨g, hg, haborted, rfl⟩ := forwarderCancel_cases hs
  refine ⟨g, { g with frames := [], stopped := true }, hg, ?_, rfl, rfl, fun _ => ⟨rfl, rfl⟩, ?_, ?_⟩
  · rw [List.append_nil]
  · intro out hout
    cases hout
  · rw [haborted]
    nofun

variable {j : Nat} {g g' : Forwarder} {added : List OutboundOutput}

theorem Goes.mem (h : Goes d e j g g' added) {f : Forwarder} (hf : f ∈ e.forwarders) : f = g' ∨ f ∈ d.forwarders := by
  rw [h.now] at hf
  exact (List.mem_or_eq_of_mem_set hf).symm

theorem Goes.below (h : Goes d e j g g' added) {n : StreamId} (hn : d.Below n) : e.Below n where
  queue out hout := by
    rw [h.now] at hout
    rcases List.mem_append.mp hout with hout | hout
    · exact hn.queue out hout
    · rw [(h.tagged out (List.mem_append_left _ hout)).1]
      exact hn.forwarders g (List.mem_of_getElem? h.was)
  forwarders f hf := by
    rcases h.mem hf with rfl | hf
    · rw [h.stream]
      exact hn.forwarders g (List.mem_of_getElem? h.was)
    · exact hn.forwarders f hf

/-- What the queue has for a stream. -/
theorem Goes.queuedFor (h : Goes d e j g g' added) (stream : StreamId) (terminalId : TerminalId) :
    e.queuedFor stream terminalId = d.queuedFor stream terminalId ++
      (added.filter fun out => out.stream = stream ∧ out.terminalId = terminalId).map OutboundOutput.frame := by
  unfold Daemon.queuedFor
  rw [h.now]
  dsimp only
  rw [List.filter_append, List.map_append]

/-- **The frames ahead stay the same.** -/
theorem Goes.feeds (h : Goes d e j g g' added) {i : Nat} {f : Forwarder} {t : Terminal} (hfeeds : Feeds torn d p i f t) :
    ∃ f', Feeds torn e p i f' t := by
  have hterminal : e.terminals.lookup p.terminalId = some t := by
    rw [h.now]
    exact hfeeds.terminal
  have hset : e.forwarders = d.forwarders.set j g' := by rw [h.now]
  by_cases hij : i = j
  · subst hij
    cases hfeeds.forwarder.symm.trans h.was
    have hi := (List.getElem?_eq_some_iff.mp h.was).1
    obtain ⟨hrunning, hle, hflow⟩ := h.flow hfeeds.running.2 t (hfeeds.terminalId ▸ hfeeds.terminal) hfeeds.next_le
    refine ⟨g', ?_, h.stream.trans hfeeds.stream, h.terminalId.trans hfeeds.terminalId, hrunning, ?_, hterminal, hle, ?_⟩
    · rw [hset]
      exact List.getElem?_set_self hi
    · intro k f hk hf
      rw [hset, List.getElem?_set_ne (Ne.symm hk)] at hf
      exact hfeeds.alone k f hk hf
    · have hall : (added.filter fun out => out.stream = p.stream ∧ out.terminalId = p.terminalId) = added := by
        refine List.filter_eq_self.mpr ?_
        intro out hout
        obtain ⟨hstream, hid, _⟩ := h.tagged out (List.mem_append_left _ hout)
        exact decide_eq_true ⟨hstream.trans hfeeds.stream, hid.trans hfeeds.terminalId⟩
      have hfollows := hfeeds.follows
      rw [← hfeeds.stream, ← hfeeds.terminalId, ← hflow, hfeeds.stream, hfeeds.terminalId] at hfollows
      rw [h.queuedFor, hall, List.append_assoc, ← List.append_assoc (added.map _), ← List.map_append]
      exact hfollows
  · refine ⟨f, ?_, hfeeds.stream, hfeeds.terminalId, hfeeds.running, ?_, hterminal, hfeeds.next_le, ?_⟩
    · rw [hset, List.getElem?_set_ne (Ne.symm hij)]
      exact hfeeds.forwarder
    · intro k f' hk hf'
      rw [hset] at hf'
      by_cases hjk : j = k
      · subst hjk
        have hj := (List.getElem?_eq_some_iff.mp h.was).1
        cases (List.getElem?_set_self hj).symm.trans hf'
        rcases hfeeds.alone j g (Ne.symm hij) h.was with hstopped | hother
        · exact .inl (h.stopped hstopped).2
        · exact .inr (by rw [h.stream]; exact hother)
      · rw [List.getElem?_set_ne hjk] at hf'
        exact hfeeds.alone k f' hk hf'
    · have hnone : (added.filter fun out => out.stream = p.stream ∧ out.terminalId = p.terminalId) = [] := by
        rcases hfeeds.alone j g (Ne.symm hij) h.was with hstopped | hother
        · rw [(h.stopped hstopped).1]
          rfl
        · refine List.filter_eq_nil_iff.mpr ?_
          intro out hout hsame
          have hsame := of_decide_eq_true hsame
          exact hother ((h.tagged out (List.mem_append_left _ hout)).1.symm.trans hsame.1)
      rw [h.queuedFor, hnone, List.map_nil, List.append_nil]
      exact hfeeds.follows

/-- **A forwarder moves.** -/
theorem Flowing.goes (h : Flowing torn d) (hgoes : Goes d e j g g' added) : Onto torn d e where
  flowing := by
    have hnow := hgoes.now
    refine ⟨?_, ⟨?_, ?_⟩, ⟨?_, ?_⟩, ?_⟩
    · rw [hnow]
      exact h.recorded
    · intro f hf
      rcases hgoes.mem hf with rfl | hf
      · intro out hout
        rw [hgoes.stream, hgoes.terminalId]
        exact hgoes.tagged out (List.mem_append_right _ hout)
      · exact h.tagged.frames f hf
    · intro out hout
      rw [hnow] at hout
      rcases List.mem_append.mp hout with hout | hout
      · exact h.tagged.queue out hout
      · obtain ⟨hstream, _, hframe⟩ := hgoes.tagged out (List.mem_append_left _ hout)
        exact hframe.trans hstream.symm
    · intro hlt
      have hnext : e.streams.nextLocalStreamId = d.streams.nextLocalStreamId := by rw [hnow]
      rw [hnext] at hlt ⊢
      exact hgoes.below (h.counted.next hlt)
    · intro stream hstream
      have hnext : e.streams.nextLocalStreamId = d.streams.nextLocalStreamId := by rw [hnow]
      rw [hnow] at hstream
      rw [hnext]
      exact (h.counted.opening stream hstream).imp (fun hbelow => ⟨hgoes.below hbelow.1, hbelow.2⟩) id
    · rw [hnow]
      exact h.opening
  outputs id := by
    rw [hgoes.now]
    exact List.prefix_rfl
  ahead cursor hahead := by
    intro p hp attached hattached
    rw [hgoes.now] at hattached
    obtain ⟨hid, i, f, t, hfeeds⟩ := hahead p hp attached hattached
    obtain ⟨f', hfeeds'⟩ := hgoes.feeds hfeeds
    exact ⟨hid, i, f', t, hfeeds'⟩

/-! ### The task of the connection -/

/-- Only the task has changed. -/
theorem Flowing.retask (h : Flowing torn d) {task : ConnTask} (hstream : task.stream = d.task.stream ∨ task.stream = none)
    (hopening : Opening torn { d with task }) : Onto torn d { d with task } where
  flowing := by
    refine ⟨h.recorded, ⟨h.tagged.frames, h.tagged.queue⟩, ⟨?_, ?_⟩, hopening⟩
    · intro hlt
      obtain ⟨hqueue, hall⟩ := h.counted.next hlt
      exact ⟨hqueue, hall⟩
    · intro stream hsome
      rcases hstream with hsame | hnone
      · refine (h.counted.opening stream (hsame ▸ hsome)).imp ?_ id
        rintro ⟨⟨hqueue, hall⟩, hnext⟩
        exact ⟨⟨hqueue, hall⟩, hnext⟩
      · cases hnone.symm.trans hsome
  outputs _ := List.prefix_rfl
  ahead cursor hahead := by
    intro p hp attached hattached
    obtain ⟨hid, i, f, t, hfeeds⟩ := hahead p hp attached hattached
    exact ⟨hid, i, f, t, hfeeds.forwarder, hfeeds.stream, hfeeds.terminalId, hfeeds.running, hfeeds.alone,
      hfeeds.terminal, hfeeds.next_le, hfeeds.follows⟩

/-- **The connection ends.** -/
theorem Flowing.closed (h : Flowing torn d) :
    Onto torn d { d with task := .closed, streams := { d.streams with map := ∅ } } where
  flowing := by
    refine ⟨h.recorded, ⟨h.tagged.frames, h.tagged.queue⟩, ⟨?_, ?_⟩, trivial⟩
    · intro hlt
      obtain ⟨hqueue, hall⟩ := h.counted.next hlt
      exact ⟨hqueue, hall⟩
    · intro stream hsome
      cases hsome
  outputs _ := List.prefix_rfl
  ahead _ _ := ahead_detached rfl

/-- The next identifier. -/
theorem next_cases (n : Nat) : (n < u32Max ∧ Saturating.add u32Max n 1 = n + 1) ∨
    (u32Max ≤ n ∧ Saturating.add u32Max n 1 = u32Max) := by
  unfold Saturating.add
  omega

theorem next_of_room {n : Nat} (h : Saturating.add u32Max n 1 < u32Max) :
    n < u32Max ∧ Saturating.add u32Max n 1 = n + 1 := by
  rcases next_cases n with hroom | ⟨_, hout⟩
  · exact hroom
  · exact absurd h (Nat.not_lt.mpr (Nat.le_of_eq hout.symm))

/-- **An open begins.** -/
theorem Flowing.cleared (h : Flowing torn d) (id : RequestId) (terminalId : TerminalId) :
    Onto torn d (d.cleared id terminalId) where
  flowing := by
    have hbelow : ∀ n, d.Below n → (d.cleared id terminalId).Below n := by
      intro n hn
      refine ⟨hn.queue, ?_⟩
      intro f hf
      obtain ⟨g, hg, rfl⟩ := List.mem_map.mp hf
      exact hn.forwarders g hg
    have hnext : (d.cleared id terminalId).streams.nextLocalStreamId =
        Saturating.add u32Max d.streams.nextLocalStreamId 1 := rfl
    refine ⟨h.recorded, ⟨?_, h.tagged.queue⟩, ⟨?_, ?_⟩, rfl⟩
    · intro f hf
      obtain ⟨g, hg, rfl⟩ := List.mem_map.mp hf
      exact h.tagged.frames g hg
    · intro hlt
      rw [hnext] at hlt ⊢
      obtain ⟨hold, hsucc⟩ := next_of_room hlt
      rw [hsucc]
      exact (hbelow _ (h.counted.next hold)).mono (Nat.le_succ _)
    · intro stream hsome
      cases hsome
      rw [hnext]
      rcases next_cases d.streams.nextLocalStreamId with ⟨hlt, hsucc⟩ | ⟨hout, hsame⟩
      · exact .inl ⟨hbelow _ (h.counted.next hlt), hsucc⟩
      · exact .inr ⟨hout, Nat.le_of_eq hsame.symm⟩
  outputs _ := List.prefix_rfl
  ahead _ _ := ahead_detached rfl

/-- What a step of an open finds: `seam` of the number of frames that are in the snapshot and in the subscription; and no
remains of another stream with its identifier, when the identifiers have run out. -/
def Seamless (seam : Nat → Prop) (d : Daemon) : Prop :=
  match d.task with
  | .subscribed _ terminalId stream subscription =>
    ∀ t, d.terminals.lookup terminalId = some t → seam (t.ahead subscription stream terminalId).length
  | .found _ _ stream _ _ _ => u32Max ≤ stream → d.Unused stream
  | _ => True

instance {seam : Nat → Prop} [DecidablePred seam] (d : Daemon) : Decidable (d.Seamless seam) := by
  unfold Seamless
  split
  · next terminalId stream subscription _ =>
    exact inferInstanceAs (Decidable (∀ t ∈ d.terminals.lookup terminalId,
      seam (t.ahead subscription stream terminalId).length))
  · infer_instance
  · infer_instance

/-- **The terminal is open.** -/
theorem Flowing.attached (h : Flowing torn d) {stream : StreamId} {snapshot : Snapshot} {info : TerminalInfo}
    {t : Terminal} {subscription : Nat} (hstream : d.task.stream = some stream) (hunused : d.Unused stream)
    (ht : d.terminals.lookup info.terminal = some t) (hle : subscription ≤ t.sent.length)
    (hshot : Terminal.Shot torn t stream info.terminal subscription snapshot) (terminal : Terminal) :
    Flowing torn (d.attached stream info.terminal subscription) ∧
      Ahead torn (d.attached stream info.terminal subscription) (some (openAck stream snapshot info terminal).cursor) := by
  refine ⟨⟨h.recorded, ⟨?_, h.tagged.queue⟩, ⟨?_, ?_⟩, trivial⟩, ?_⟩
  · intro f hf
    rcases List.mem_append.mp hf with hf | hf
    · exact h.tagged.frames f hf
    · cases List.mem_singleton.mp hf
      intro out hout
      cases hout
  · intro hlt
    replace hlt : d.streams.nextLocalStreamId < u32Max := hlt
    show Daemon.Below _ d.streams.nextLocalStreamId
    rcases h.counted.opening stream hstream with ⟨hbelow, hnext⟩ | ⟨_, hout⟩
    · have hold := hbelow.mono (Nat.le_succ stream)
      rw [hnext]
      refine ⟨hold.queue, ?_⟩
      intro f hf
      rcases List.mem_append.mp hf with hf | hf
      · exact hold.forwarders f hf
      · cases List.mem_singleton.mp hf
        exact Nat.lt_succ_self _
    · exact absurd hlt (Nat.not_lt.mpr hout)
  · intro stream' hsome
    cases hsome
  · rintro _ ⟨⟩ attached hattached
    have hlookup : (d.streams.map.insert stream { terminalId := info.terminal }).lookup stream = some attached := hattached
    cases (AList.lookup_insert _).symm.trans hlookup
    refine ⟨rfl, d.forwarders.length, { stream, terminalId := info.terminal, next := subscription }, t, ?_, rfl, rfl,
      ⟨rfl, rfl⟩, ?_, ht, hle, ?_⟩
    · exact List.getElem?_concat_length
    · intro j g hj hg
      have hlt : j < d.forwarders.length := by
        have hlt := (List.getElem?_eq_some_iff.mp hg).1
        replace hlt : j < (d.forwarders ++ [_]).length := hlt
        rw [List.length_append, List.length_singleton] at hlt
        omega
      have hold : d.forwarders[j]? = some g := (List.getElem?_append_left hlt).symm.trans hg
      exact hunused.2 g (List.mem_of_getElem? hold)
    · have hnone : (d.attached stream info.terminal subscription).queuedFor stream info.terminal = [] := by
        unfold queuedFor
        rw [List.filter_eq_nil_iff.mpr]
        · rfl
        · intro out hout hsame
          exact hunused.1 out hout (of_decide_eq_true hsame).1
      show Follows torn t.output snapshot.headSeq (Daemon.queuedFor _ stream info.terminal ++ _) t.output.length
      rw [hnone]
      exact hshot.follows

/-- **A step of an open.** -/
theorem flowing_openStep {seam : Nat → Prop} (hseam : ∀ n, seam n → n = 0 ∨ (torn ∧ 2 ≤ n)) (h : Flowing torn d)
    (hc : d.Seamless seam) {reply : Option ResponseFrame} (hs : d.openStep = some (e, reply)) :
    (Onto torn d e ∧ ∀ response, reply = some response → FrameBody.Plain (.response response)) ∨
      (Flowing torn e ∧ (∀ id, d.outputs id <+: e.outputs id) ∧ ∃ id ack,
        reply = some (okResponse id (.openTerminal ack)) ∧ Shows (e.outputs ack.info.terminal) ack ∧
        Ahead torn e (some ack.cursor)) := by
  have hopening := h.opening
  unfold Opening at hopening
  unfold Seamless at hc
  obtain ⟨id, terminalId, stream, t, htask, ht, rfl, rfl⟩ | ⟨id, terminalId, stream, subscription, t, htask, ht, rfl, rfl⟩ |
    ⟨id, terminalId, stream, subscription, snapshot, htask, ⟨rfl, rfl⟩ | ⟨info, hinfo, rfl, rfl⟩⟩ |
    ⟨id, terminalId, stream, subscription, snapshot, info, terminal, htask, hterminal, rfl, rfl⟩ := openStep_cases hs
  all_goals rw [htask] at hopening hc
  · exact .inl ⟨h.retask (.inl (by rw [htask]; rfl)) ⟨hopening, t, ht, Nat.le_refl _⟩, nofun⟩
  · obtain ⟨hmap, t', ht', hle⟩ := hopening
    cases ht.symm.trans ht'
    obtain ⟨hsound, hroom⟩ := h.recorded _ t ht
    have hshot := hsound.shot hroom openTerminalMaxBytes (hseam _ (hc t ht))
    exact .inl ⟨h.retask (.inl (by rw [htask]; rfl)) ⟨hmap, t, ht, hle, hshot⟩, nofun⟩
  · refine .inl ⟨h.retask (.inr rfl) trivial, ?_⟩
    rintro _ ⟨⟩
    exact plain_errorResponse _ _
  · obtain ⟨hmap, hshot⟩ := hopening
    exact .inl ⟨h.retask (.inl (by rw [htask]; rfl)) ⟨hmap, hinfo, hshot⟩, nofun⟩
  · obtain ⟨_, rfl, t, ht, hle, hshot⟩ := hopening
    have hstream : d.task.stream = some stream := by rw [htask]; rfl
    have hunused : d.Unused stream := by
      rcases h.counted.opening stream hstream with ⟨hbelow, _⟩ | ⟨hout, _⟩
      · exact hbelow.unused
      · exact hc hout
    obtain ⟨hflowing, hahead⟩ := h.attached hstream hunused ht hle hshot terminal
    refine .inr ⟨hflowing, fun _ => List.prefix_rfl, id, openAck stream snapshot info terminal, rfl, ?_, hahead⟩
    show Shows (d.outputs info.terminal) _
    rw [outputs_eq ht]
    exact hshot.shows info terminal

/-! ### Output -/

section Output

variable {out : OutboundOutput} {rest : List OutboundOutput}

/-- A frame has left the output queue. -/
def popped (d : Daemon) (rest : List OutboundOutput) : Daemon :=
  { d with streams := { d.streams with output := { d.streams.output with queue := rest } } }

theorem Flowing.popped (h : Flowing torn d) (hqueue : d.streams.output.queue = out :: rest) :
    Flowing torn (d.popped rest) := by
  have hmem : ∀ out' ∈ rest, out' ∈ d.streams.output.queue := by
    intro out' hout'
    rw [hqueue]
    exact List.mem_cons_of_mem _ hout'
  have hbelow : ∀ n, d.Below n → (d.popped rest).Below n := fun n hn =>
    ⟨fun out' hout' => hn.queue out' (hmem out' hout'), hn.forwarders⟩
  refine ⟨h.recorded, ⟨h.tagged.frames, fun out' hout' => h.tagged.queue out' (hmem out' hout')⟩, ⟨?_, ?_⟩, h.opening⟩
  · intro hlt
    exact hbelow _ (h.counted.next hlt)
  · intro stream hsome
    exact (h.counted.opening stream hsome).imp (fun hopening => ⟨hbelow _ hopening.1, hopening.2⟩) id

/-- It was for another stream. -/
theorem Feeds.popped {i : Nat} {f : Forwarder} {t : Terminal} (h : Feeds torn d p i f t)
    (hqueue : d.streams.output.queue = out :: rest) (hother : ¬(out.stream = p.stream ∧ out.terminalId = p.terminalId)) :
    Feeds torn (d.popped rest) p i f t where
  forwarder := h.forwarder
  stream := h.stream
  terminalId := h.terminalId
  running := h.running
  alone := h.alone
  terminal := h.terminal
  next_le := h.next_le
  follows := by
    have hfollows := h.follows
    unfold queuedFor at hfollows
    rw [hqueue, List.filter_cons_of_neg (by rw [decide_eq_true_eq]; exact hother)] at hfollows
    exact hfollows

/-- **Output goes out**: it is what the client has to hear, or nobody hears it. -/
theorem flowing_output (h : Flowing torn d) {data : Option StreamDataFrame} (hs : d.output = some (e, data)) :
    Flowing torn e ∧ (∀ id, d.outputs id <+: e.outputs id) ∧ ∀ cursor, Ahead torn d cursor →
      match data with
      | some data => Cursor.hear torn d.outputs (.streamData data) (Ahead torn e) cursor
      | none => Ahead torn e cursor := by
  obtain ⟨_, out, rest, hqueue, rfl, hsend⟩ := output_cases hs
  refine ⟨h.popped hqueue, fun _ => List.prefix_rfl, ?_⟩
  intro cursor hahead
  have hframe : out.frame.streamId = out.stream := h.tagged.queue out (by rw [hqueue]; exact List.mem_cons_self)
  rcases hsend with ⟨attached, hattached, hid, rfl⟩ | ⟨hnone, rfl⟩
  · dsimp only
    cases cursor with
    | none => exact ahead_none
    | some p =>
      rw [Cursor.hear_data]
      split
      · next hstream =>
        rw [hframe] at hstream
        obtain ⟨hpid, i, f, t, hfeeds⟩ := hahead p rfl attached (hstream ▸ hattached)
        have hfollows := hfeeds.follows
        have hmine : out.stream = p.stream ∧ out.terminalId = p.terminalId := ⟨hstream.symm, hid.symm.trans hpid⟩
        unfold queuedFor at hfollows
        rw [hqueue, List.filter_cons_of_pos (by rw [decide_eq_true_eq]; exact hmine), List.map_cons,
          List.cons_append] at hfollows
        refine hfollows.imp (fun hback => ⟨hback.1, hback.2, ahead_none⟩) ?_
        rintro ⟨hnext, hrest⟩
        refine ⟨outputs_eq hfeeds.terminal ▸ hnext, ?_⟩
        rintro _ ⟨⟩ attached' hattached'
        cases (hstream ▸ hattached : d.streams.map.lookup p.stream = some attached).symm.trans hattached'
        exact ⟨hpid, i, f, t, hfeeds.forwarder, hfeeds.stream, hfeeds.terminalId, hfeeds.running, hfeeds.alone,
          hfeeds.terminal, hfeeds.next_le, hrest⟩
      · next hstream =>
        rintro _ ⟨⟩ attached' hattached'
        obtain ⟨hpid, i, f, t, hfeeds⟩ := hahead p rfl attached' hattached'
        refine ⟨hpid, i, f, t, hfeeds.popped hqueue ?_⟩
        exact fun hmine => hstream (hframe.trans hmine.1).symm
  · intro p hp attached hattached
    obtain ⟨hpid, i, f, t, hfeeds⟩ := hahead p hp attached hattached
    refine ⟨hpid, i, f, t, hfeeds.popped hqueue ?_⟩
    rintro ⟨hstream, hid⟩
    exact hnone attached (hstream ▸ hattached) (hpid.trans hid.symm)

end Output

end Daemon

end CliPocket
