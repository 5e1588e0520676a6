import CliPocket.Client.Outgoing
import CliPocket.Stream.Growth

/-!
# Frames fit one Noise message

What the daemon answers and what a client asks, against the size of a Noise message.

- `Daemon.serve`: one move of a daemon, with the frame it encodes;
- `Daemon.room`: whether what the move has to answer leaves it room;
- `Ranged`: what bounds the frames of output, and its step lemma;
- `frames_fit`: **a frame fits exactly when there is room, on both sides.**
-/

namespace CliPocket

open Saturating (u16Max u32Max u64Max)
open Steps (run Meets)

/-! ## Answers -/

/-- Room for an answer whose body takes `size` bytes. -/
def responseRoom (id : RequestId) (size : Nat) : Bool := 1 + (uintSize id + 1 + size) ≤ frameRoom

/-- Room for an error with a text of the system's, which it tells twice. -/
def otherRoom (id : RequestId) (message : String) : Bool :=
  responseRoom id (1 + strSize message + (uintSize (7 + textSize message) + (7 + textSize message)))

theorem fitsNoise_okResponse (id : RequestId) (body : ResponseBody) :
    fitsNoise (.response (okResponse id body)) ↔ responseRoom id body.size = true := by
  rw [fitsNoise_iff_size (length_response _)]
  exact decide_eq_true_iff.symm

theorem fitsNoise_errorResponse (id : RequestId) (code : ProtocolError) :
    fitsNoise (.response (errorResponse id code)) ↔ responseRoom id (code.size + strSize code.toMessage) = true := by
  rw [fitsNoise_iff_size (length_response _)]
  exact decide_eq_true_iff.symm

theorem fitsNoise_otherResponse (id : RequestId) (message : String) :
    fitsNoise (.response (otherResponse id message)) ↔ otherRoom id message = true := by
  have htext : strSize ("other: " ++ message) = uintSize (7 + textSize message) + (7 + textSize message) := by
    unfold strSize
    rw [textSize_append]
    rfl
  unfold otherRoom
  rw [← htext]
  exact fitsNoise_errorResponse id (.other message)

theorem responseRoom_of_le {id : RequestId} {size : Nat} (hid : id ≤ u32Max) (hsize : size ≤ 60000) :
    responseRoom id size = true := by
  have hlength : uintSize id ≤ 10 := uintSize_le (Nat.lt_of_le_of_lt hid (by decide))
  unfold responseRoom frameRoom noiseMaxMsgLen noiseTagLen
  rw [decide_eq_true_iff]
  omega

theorem otherRoom_of_le {id : RequestId} {message : String} (hid : id ≤ u32Max) (h : message.length ≤ 1000) :
    otherRoom id message = true := by
  have htext := textSize_le message
  have hstr : strSize message ≤ 10 + 4000 := strSize_le (by decide) (by omega)
  have huint : uintSize (7 + textSize message) ≤ 10 := uintSize_le (by omega)
  refine responseRoom_of_le hid ?_
  omega

theorem fitsNoise_unknownTerminal {id : RequestId} (hid : id ≤ u32Max) :
    fitsNoise (.response (errorResponse id .unknownTerminal)) :=
  (fitsNoise_errorResponse id _).mpr (responseRoom_of_le hid (by decide))

/-! ## Texts -/

theorem length_toString_le {n : Nat} (h : n ≤ u64Max) : (toString n).length ≤ 20 := by
  rw [Nat.toString_eq_repr, Nat.length_repr_le_iff (by decide)]
  exact Nat.lt_of_le_of_lt h (by decide)

theorem Uuid.length_display (u : Uuid) : u.display.length = 36 := by
  have hhex : ∀ run : List UInt8, (String.join (run.map Uuid.hexByte)).length = 2 * run.length := by
    intro run
    rw [String.length_join, List.map_map]
    induction run with
    | nil => rfl
    | cons b run ih =>
      have hbyte : (Uuid.hexByte b).length = 2 := String.length_ofList
      rw [List.map_cons, List.sum_cons, ih, List.length_cons, Function.comp_apply, hbyte]
      omega
  unfold Uuid.display
  simp only [String.length_append, hhex, List.length_drop, List.length_take, u.length_eq]
  rfl

/-! ## A daemon and its frames -/

namespace Daemon

inductive Move
  -- the task of the connection
  | frame (frame : FrameBody) (env : Env)
  | openStep
  | output
  -- the forwarders
  | receive (i : Nat)
  | enqueue (i : Nat)
  | cancel (i : Nat)
  -- the terminals, and other connections
  | terminal (id : TerminalId) (move : TerminalMove)
  | create (params : TerminalCreateParams) (env : Env)
  | configure (scrollbackBytes : Nat)

/-- A move, and the frame that the daemon encodes in it. -/
def serve (d : Daemon) : Move → Option (Daemon × Option FrameBody)
  | .frame frame env => if Talk.freshSpawn d env then d.receiveFrame frame env else none
  | .openStep => d.openStep.map fun (d, reply) => (d, reply.map .response)
  | .output => d.output.map fun (d, data) => (d, data.map .streamData)
  | .receive i => (d.forwarderReceive i).map fun d => (d, none)
  | .enqueue i => (d.forwarderEnqueue i).map fun d => (d, none)
  | .cancel i => (d.forwarderCancel i).map fun d => (d, none)
  | .terminal id move =>
    match d.terminals.lookup id with
    | none => none
    | some t => (moveTerminal t move).map fun t => (d.setTerminal id t, none)
  | .create params env =>
    if Talk.freshSpawn d env then
      match d.create params env with
      | .ok (d, _) => some (d, none)
      | .error _ => none
    else none
  | .configure scrollbackBytes => some ({ d with scrollbackBytes }, none)

def step (d : Daemon) (move : Move) : Option Daemon := (d.serve move).map Prod.fst

/-- The numbers of a move are those of their types, and a stream of output ends at a sequence number. -/
def inRange (d : Daemon) : Move → Bool
  | .frame frame env => frame.inRange && env.now ≤ u64Max
  | .terminal id (.push bytes) => (d.terminals.lookup id).all fun t => t.ring.headSeq + bytes.length ≤ u64Max
  | .configure scrollbackBytes => scrollbackBytes ≤ u64Max
  | _ => true

/-! ## Room -/

/-- What a terminal takes in a list. -/
def infoSize (t : Terminal) : Nat :=
  uuidSize + uintSize t.ring.cols + uintSize t.ring.rows + uintSize t.createdAtUnixMs + optionSize strSize t.title + 1

/-- Room for the answer to a request. -/
def answerRoom (d : Daemon) (request : RequestFrame) (env : Env) : Bool :=
  match request.body with
  | .listTerminals =>
    responseRoom request.id
      (1 + (uintSize d.registered.length + (d.registered.map fun entry => infoSize entry.2).sum))
  | .createTerminal params =>
    match env.spawned with
    | .error message => d.maxTerminals ≤ d.registered.length || otherRoom request.id message
    | .ok _ =>
      d.maxTerminals ≤ d.registered.length || maxCapacityBytes < d.scrollbackBytes ||
        responseRoom request.id (1 + (uuidSize + uintSize (max params.cols 1) + uintSize (max params.rows 1) +
          uintSize env.now + optionSize strSize env.title + 1))
  | .readHistory terminalId before maxBytes =>
    (d.attach terminalId).all fun terminal =>
      let stop := ScrollbackRing.clamp (before.getD terminal.ring.headSeq) terminal.ring.tailSeq terminal.ring.headSeq
      let taken := min maxBytes (stop - terminal.ring.tailSeq)
      responseRoom request.id (1 + (uuidSize + uintSize (stop - taken) + uintSize stop + (uintSize taken + taken) + 1))
  | .killTerminal terminalId =>
    (d.attach terminalId).all fun terminal =>
      match env.killed with
      | .error message => terminal.exited || otherRoom request.id message
      | .ok () => true
  | .setServerConfig _ =>
    match env.saved with
    | .error message => otherRoom request.id message
    | .ok () => true
  | _ => true

/-- Whether there is room for what a move has to answer. -/
def room (d : Daemon) : Move → Bool
  | .frame (.request ⟨_, .openTerminal _⟩) _ => true
  | .frame (.request request) env => d.answerRoom request env
  | .openStep =>
    match d.task with
    | .found id _ stream _ snapshot info =>
      let rendered := (renderPrefixFromAnchor snapshot.anchorState).length + snapshot.bytes.length
      responseRoom id (1 + (uintSize stream + info.size + uintSize (startSeq snapshot) + uintSize snapshot.headSeq +
        (uintSize rendered + rendered) + 1))
    | _ => true
  | _ => true

variable {d e : Daemon}

/-! ## What bounds the frames -/

/-- A frame of output. -/
structure Small (frame : StreamDataFrame) : Prop where
  streamId : frame.streamId ≤ u32Max
  seq : frame.seq ≤ u64Max
  offset : frame.offset = none
  bytes : frame.bytes.length ≤ outputChunkBytes

theorem Small.fitsNoise {frame : StreamDataFrame} (h : Small frame) : fitsNoise (.streamData frame) := by
  have hid : uintSize frame.streamId ≤ 10 := uintSize_le (Nat.lt_of_le_of_lt h.streamId (by decide))
  have hseq : uintSize frame.seq ≤ 10 := uintSize_le (Nat.lt_of_le_of_lt h.seq (by decide))
  have hbytes : frame.bytes.length ≤ 16384 := h.bytes
  have hlength : uintSize frame.bytes.length ≤ 10 := uintSize_le (by omega)
  rw [fitsNoise_iff_size (length_streamData frame), h.offset]
  show 1 + uintSize frame.streamId + uintSize frame.seq + 1 + (uintSize frame.bytes.length + frame.bytes.length) + 1 ≤ 65519
  omega

/-- The request that an open answers. -/
def openRequest (task : ConnTask) : Option (RequestId × StreamId) :=
  match task with
  | .cleared id _ stream | .subscribed id _ stream _ | .snapshotted id _ stream _ _ | .found id _ stream _ _ _ =>
    some (id, stream)
  | .select | .closed => none

/-- The numbers of a daemon are those of their types, and its output goes in small frames. -/
structure Ranged (d : Daemon) : Prop where
  recorded : d.Recorded
  maxTerminals : d.maxTerminals ≤ u64Max
  scrollbackBytes : d.scrollbackBytes ≤ u64Max
  nextLocalStreamId : d.streams.nextLocalStreamId ≤ u32Max
  task : ∀ id stream, openRequest d.task = some (id, stream) → id ≤ u32Max ∧ stream ≤ u32Max
  forwarders : ∀ f ∈ d.forwarders, f.stream ≤ u32Max
  unsent : ∀ out ∈ d.unsent, Small out.frame

/-- A daemon without terminals. -/
theorem ranged_new {maxTerminals scrollbackBytes : Nat} (hmax : maxTerminals ≤ u64Max)
    (hscrollback : scrollbackBytes ≤ u64Max) : Ranged { maxTerminals, scrollbackBytes } where
  recorded id t h := by cases (AList.lookup_empty id).symm.trans h
  maxTerminals := hmax
  scrollbackBytes := hscrollback
  nextLocalStreamId := show 1 ≤ u32Max by decide
  task _ _ h := by cases h
  forwarders _ h := by cases h
  unsent _ h := by cases h

/-- The frames of a chunk are small. -/
theorem small_pieceFrames {stream : StreamId} {terminalId : TerminalId} {start : Nat} (hstream : stream ≤ u32Max)
    {out : OutboundOutput} : ∀ {sent : Nat} {pieces : List (List UInt8)},
      (∀ piece ∈ pieces, piece.length ≤ outputChunkBytes) → out ∈ pieceFrames stream terminalId start sent pieces →
      Small out.frame
  | _, [], _, h => by cases h
  | sent, piece :: pieces, hpieces, h => by
    rcases List.mem_cons.mp h with rfl | h
    · exact ⟨hstream, Saturating.add_le _ _ _, rfl, hpieces piece List.mem_cons_self⟩
    · exact small_pieceFrames hstream (fun p hp => hpieces p (List.mem_cons_of_mem _ hp)) h

theorem small_received {f : Forwarder} {received : OutputRecv} {next : Nat} (hframes : f.frames = [])
    (hstream : f.stream ≤ u32Max) {out : OutboundOutput} (hout : out ∈ (f.received received next).frames) :
    Small out.frame := by
  unfold Forwarder.received at hout
  split at hout
  · rw [show ({ f with next } : Forwarder).frames = [] from hframes] at hout
    cases hout
  · split at hout
    · next chunk frames hlive =>
      unfold liveOutputFrames at hlive
      dsimp only at hlive
      split at hlive
      · cases hlive
        cases hout
      · split at hlive
        · cases hlive
        · cases hlive
          exact small_pieceFrames hstream (fun piece hp => (Chunks.mem_chunksOf (by decide) hp).2) hout
    · rw [show ({ f with stopped := true } : Forwarder).frames = [] from hframes] at hout
      cases hout

/-- The forwarders go on. -/
theorem Ranged.set {i : Nat} {f g : Forwarder} {output : Channel.Mpsc OutboundOutput} (h : d.Ranged)
    (hf : d.forwarders[i]? = some f) (hstream : g.stream = f.stream) (hframes : ∀ out ∈ g.frames, Small out.frame)
    (hqueue : ∀ out ∈ output.queue, Small out.frame) :
    Ranged { d with streams := { d.streams with output }, forwarders := d.forwarders.set i g } where
  recorded := h.recorded
  maxTerminals := h.maxTerminals
  scrollbackBytes := h.scrollbackBytes
  nextLocalStreamId := h.nextLocalStreamId
  task := h.task
  forwarders k hk := by
    rcases List.mem_or_eq_of_mem_set hk with hk | rfl
    · exact h.forwarders k hk
    · rw [hstream]
      exact h.forwarders f (List.mem_of_getElem? hf)
  unsent out hout := by
    rcases List.mem_append.mp hout with hout | hout
    · exact hqueue out hout
    · rcases mem_flatMap_set hout with hout | hout
      · exact hframes out hout
      · exact h.unsent out (List.mem_append_right _ hout)

theorem Ranged.queue (h : d.Ranged) {out : OutboundOutput} (hout : out ∈ d.streams.output.queue) : Small out.frame :=
  h.unsent out (List.mem_append_left _ hout)

theorem Ranged.frames (h : d.Ranged) {i : Nat} {f : Forwarder} (hf : d.forwarders[i]? = some f) {out : OutboundOutput}
    (hout : out ∈ f.frames) : Small out.frame :=
  h.unsent out (List.mem_append_right _ (List.mem_flatMap.mpr ⟨f, List.mem_of_getElem? hf, hout⟩))

/-- What has nothing to do with the streams. -/
theorem Ranged.of_work (h : d.Ranged) (hwork : SameWork d e) (hrecorded : e.Recorded) (hmax : e.maxTerminals = d.maxTerminals)
    (hscrollback : e.scrollbackBytes ≤ u64Max) : e.Ranged where
  recorded := hrecorded
  maxTerminals := hmax ▸ h.maxTerminals
  scrollbackBytes := hscrollback
  nextLocalStreamId := by
    rw [hwork.streams]
    exact h.nextLocalStreamId
  task := by
    rw [hwork.task]
    exact h.task
  forwarders := by
    rw [hwork.forwarders]
    exact h.forwarders
  unsent := by
    unfold Daemon.unsent
    rw [hwork.streams, hwork.forwarders]
    exact h.unsent

theorem create_limits {params : TerminalCreateParams} {env : Env} {info : TerminalInfo}
    (h : d.create params env = .ok (e, info)) : e.maxTerminals = d.maxTerminals ∧ e.scrollbackBytes = d.scrollbackBytes := by
  unfold create at h
  split at h
  · cases h
  · split at h
    · cases h
    · split at h
      · cases h
      · cases h
        exact ⟨rfl, rfl⟩

/-- The limits are changed by `SetServerConfig` alone. -/
theorem handleRequest_limits (d : Daemon) (request : RequestFrame) (env : Env) :
    (d.handleRequest request env).1.maxTerminals = d.maxTerminals ∧
      ((d.handleRequest request env).1.scrollbackBytes = d.scrollbackBytes ∨
        ∃ config, request.body = .setServerConfig config ∧
          (d.handleRequest request env).1.scrollbackBytes = config.scrollbackBytes) := by
  unfold handleRequest
  dsimp only
  split
  case h_2 =>
    split
    · next hcreate =>
      obtain ⟨hmax, hscrollback⟩ := create_limits hcreate
      exact ⟨hmax, .inl hscrollback⟩
    · exact ⟨rfl, .inl rfl⟩
  case h_7 config hbody =>
    split
    · exact ⟨rfl, .inr ⟨config, hbody, rfl⟩⟩
    · exact ⟨rfl, .inl rfl⟩
  case h_5 =>
    split
    · exact ⟨rfl, .inl rfl⟩
    · split
      · exact ⟨rfl, .inl rfl⟩
      · split <;> exact ⟨rfl, .inl rfl⟩
  case h_9 =>
    split
    · split
      · split <;> exact ⟨rfl, .inl rfl⟩
      · exact ⟨rfl, .inl rfl⟩
    · exact ⟨rfl, .inl rfl⟩
  all_goals first
    | exact ⟨rfl, .inl rfl⟩
    | split <;> exact ⟨rfl, .inl rfl⟩

/-- A request. -/
theorem Ranged.handleRequest (h : d.Ranged) {request : RequestFrame} {env : Env}
    (hrange : (FrameBody.request request).inRange = true) (hfresh : Talk.freshSpawn d env = true) :
    (d.handleRequest request env).1.Ranged := by
  obtain ⟨hmax, hscrollback⟩ := handleRequest_limits d request env
  have hgrown : Grown True d (d.handleRequest request env).1 := h.recorded.grown_handleRequest request hfresh
  refine h.of_work (handleRequest_work d request env).1 hgrown.recorded hmax ?_
  rcases hscrollback with hsame | ⟨config, hbody, hconfig⟩
  · rw [hsame]
    exact h.scrollbackBytes
  · have hbytes := (FrameBody.request_inRange.mp hrange).2
    rw [hbody] at hbytes
    rw [hconfig]
    exact Nat.le_trans (of_decide_eq_true hbytes) (by decide)

/-- A frame of the client's. -/
theorem Ranged.receiveFrame (h : d.Ranged) {frame : FrameBody} {env : Env} {reply : Option FrameBody}
    (hrange : frame.inRange = true) (hfresh : Talk.freshSpawn d env = true)
    (hs : d.receiveFrame frame env = some (e, reply)) : e.Ranged := by
  unfold Daemon.receiveFrame at hs
  split at hs
  · split at hs
    · next id terminalId =>
      have hid : id ≤ u32Max := (FrameBody.request_inRange.mp hrange).1
      unfold openStart at hs
      cases hattach : d.attach terminalId with
      | none =>
        rw [hattach] at hs
        cases hs
        exact h
      | some terminal =>
        rw [hattach] at hs
        cases hs
        refine ⟨h.recorded, h.maxTerminals, h.scrollbackBytes, Saturating.add_le _ _ _, ?_, ?_, ?_⟩
        · rintro _ _ ⟨⟩
          exact ⟨hid, h.nextLocalStreamId⟩
        · intro f hf
          obtain ⟨g, hg, rfl⟩ := List.mem_map.mp hf
          exact h.forwarders g hg
        · intro out hout
          refine h.unsent out ?_
          unfold Daemon.unsent at hout ⊢
          rw [List.flatMap_map] at hout
          exact hout
    · cases hs
      exact h.handleRequest hrange hfresh
    · cases hs
      exact h
    · cases hs
      exact ⟨h.recorded, h.maxTerminals, h.scrollbackBytes, h.nextLocalStreamId, fun _ _ ht => (by cases ht),
        h.forwarders, h.unsent⟩
    · cases hs
      exact h
  · cases hs

/-- A step of an open. -/
theorem Ranged.openStep (h : d.Ranged) {reply : Option ResponseFrame} (hs : d.openStep = some (e, reply)) : e.Ranged := by
  obtain ⟨id, terminalId, stream, terminal, htask, _, rfl, _⟩ |
    ⟨id, terminalId, stream, subscription, terminal, htask, _, rfl, _⟩ |
    ⟨id, terminalId, stream, subscription, snapshot, htask, ⟨rfl, _⟩ | ⟨info, _, rfl, _⟩⟩ |
    ⟨id, terminalId, stream, subscription, snapshot, info, terminal, htask, _, rfl, _⟩ := openStep_cases hs
  all_goals have hnumbers := h.task id stream (by rw [htask]; rfl)
  · exact ⟨h.recorded, h.maxTerminals, h.scrollbackBytes, h.nextLocalStreamId,
      fun _ _ ht => (by cases ht; exact hnumbers), h.forwarders, h.unsent⟩
  · exact ⟨h.recorded, h.maxTerminals, h.scrollbackBytes, h.nextLocalStreamId,
      fun _ _ ht => (by cases ht; exact hnumbers), h.forwarders, h.unsent⟩
  · exact ⟨h.recorded, h.maxTerminals, h.scrollbackBytes, h.nextLocalStreamId, fun _ _ ht => (by cases ht),
      h.forwarders, h.unsent⟩
  · exact ⟨h.recorded, h.maxTerminals, h.scrollbackBytes, h.nextLocalStreamId,
      fun _ _ ht => (by cases ht; exact hnumbers), h.forwarders, h.unsent⟩
  · refine ⟨h.recorded, h.maxTerminals, h.scrollbackBytes, h.nextLocalStreamId, fun _ _ ht => (by cases ht), ?_, ?_⟩
    · intro f hf
      rcases List.mem_append.mp hf with hf | hf
      · exact h.forwarders f hf
      · cases List.mem_singleton.mp hf
        exact hnumbers.2
    · intro out hout
      refine h.unsent out ?_
      unfold Daemon.unsent attached at hout
      rw [List.flatMap_append, List.flatMap_singleton, List.append_nil] at hout
      exact hout

/-- **What bounds the frames is kept.** -/
theorem Ranged.step {move : Move} (h : d.Ranged) (hmove : d.inRange move = true) (hs : d.step move = some e) : e.Ranged := by
  obtain ⟨⟨e, reply⟩, hserve, rfl⟩ := Option.map_eq_some_iff.mp hs
  cases move with
  | frame frame env =>
    unfold inRange at hmove
    rw [Bool.and_eq_true] at hmove
    unfold serve at hserve
    dsimp only at hserve
    split at hserve
    · next hfresh => exact h.receiveFrame hmove.1 hfresh hserve
    · cases hserve
  | openStep =>
    obtain ⟨⟨e, reply⟩, hopen, heq⟩ := Option.map_eq_some_iff.mp hserve
    cases heq
    exact h.openStep hopen
  | output =>
    obtain ⟨⟨e, data⟩, houtput, heq⟩ := Option.map_eq_some_iff.mp hserve
    cases heq
    obtain ⟨_, out, rest, hqueue, rfl, _⟩ := output_cases houtput
    refine ⟨h.recorded, h.maxTerminals, h.scrollbackBytes, h.nextLocalStreamId, h.task, h.forwarders, ?_⟩
    intro out' hout'
    refine h.unsent out' ?_
    unfold Daemon.unsent at hout' ⊢
    rw [hqueue]
    exact List.mem_cons_of_mem _ hout'
  | receive i =>
    obtain ⟨e, hreceive, heq⟩ := Option.map_eq_some_iff.mp hserve
    cases heq
    obtain ⟨f, terminal, received, next, hf, _, hframes, _, _, rfl⟩ := forwarderReceive_cases hreceive
    exact h.set hf (f.received_stream received next)
      (fun out hout => small_received hframes (h.forwarders f (List.mem_of_getElem? hf)) hout) fun out hout => h.queue hout
  | enqueue i =>
    obtain ⟨e, henqueue, heq⟩ := Option.map_eq_some_iff.mp hserve
    cases heq
    obtain ⟨f, frame, frames, hf, _, hframes, rfl⟩ := forwarderEnqueue_cases henqueue
    refine h.set hf rfl (fun out hout => h.frames hf (hframes ▸ List.mem_cons_of_mem _ hout)) fun out hout => ?_
    rcases List.mem_append.mp hout with hout | hout
    · exact h.queue hout
    · cases List.mem_singleton.mp hout
      exact h.frames hf (hframes ▸ List.mem_cons_self)
  | cancel i =>
    obtain ⟨e, hcancel, heq⟩ := Option.map_eq_some_iff.mp hserve
    cases heq
    obtain ⟨f, hf, _, rfl⟩ := forwarderCancel_cases hcancel
    exact h.set hf rfl (fun _ hout => by cases hout) fun out hout => h.queue hout
  | terminal id move =>
    unfold serve at hserve
    dsimp only at hserve
    split at hserve
    · cases hserve
    · next t ht =>
      obtain ⟨u, hu, heq⟩ := Option.map_eq_some_iff.mp hserve
      cases heq
      suffices hgrown : Grown True d (d.setTerminal id u) from
        h.of_work ⟨rfl, rfl, rfl⟩ hgrown.recorded rfl h.scrollbackBytes
      refine h.recorded.grown_terminal ht ?_ hu
      rintro bytes rfl
      unfold inRange at hmove
      dsimp only at hmove
      rw [ht, Option.all_some] at hmove
      exact of_decide_eq_true hmove
  | create params env =>
    unfold serve at hserve
    dsimp only at hserve
    split at hserve
    · next hfresh =>
      split at hserve
      · next d' info hcreate =>
        cases hserve
        obtain ⟨hmax, hscrollback⟩ := create_limits hcreate
        have hgrown : Grown True d e := h.recorded.grown_create hfresh hcreate
        exact h.of_work (create_work hcreate) hgrown.recorded hmax
          (hscrollback ▸ h.scrollbackBytes)
      · cases hserve
    · cases hserve
  | configure scrollbackBytes =>
    cases hserve
    exact ⟨h.recorded, h.maxTerminals, of_decide_eq_true hmove, h.nextLocalStreamId, h.task, h.forwarders, h.unsent⟩

/-! ## What fits -/

/-- A terminal that is created: there was room for it, its ring has been allocated, and its title is told. -/
theorem create_ok {params : TerminalCreateParams} {env : Env} {info : TerminalInfo}
    (hs : d.create params env = .ok (e, info)) :
    ¬d.maxTerminals ≤ d.registered.length ∧ (∃ id, env.spawned = .ok id) ∧ ¬maxCapacityBytes < d.scrollbackBytes ∧
      info.size = uuidSize + uintSize (max params.cols 1) + uintSize (max params.rows 1) + uintSize env.now +
        optionSize strSize env.title + 1 := by
  unfold create at hs
  split at hs
  · cases hs
  · next hroom =>
    split at hs
    · cases hs
    · next id hid =>
      split at hs
      · cases hs
      · next ring hring =>
        cases hs
        unfold ScrollbackRing.new at hring
        dsimp only at hring
        split at hring
        · cases hring
        · next hcapacity =>
          cases hring
          exact ⟨hroom, ⟨id, hid⟩, hcapacity, rfl⟩

/-- The texts of the daemon's own are short. -/
theorem create_error (h : d.Ranged) {params : TerminalCreateParams} {env : Env} {message : String}
    (hs : d.create params env = .error message) :
    (message.length ≤ 1000 ∧ (d.maxTerminals ≤ d.registered.length ∨
        (∃ id, env.spawned = .ok id) ∧ maxCapacityBytes < d.scrollbackBytes)) ∨
      (¬d.maxTerminals ≤ d.registered.length ∧ env.spawned = .error message) := by
  unfold create at hs
  split at hs
  · next hfull =>
    cases hs
    refine .inl ⟨?_, .inl hfull⟩
    have hn := length_toString_le h.maxTerminals
    have htext : "internal: terminal limit reached (".length + ")".length ≤ 100 := by decide
    rw [String.length_append, String.length_append]
    omega
  · next hroom =>
    split at hs
    · next hspawned =>
      cases hs
      exact .inr ⟨hroom, hspawned⟩
    · next id hid =>
      split at hs
      · next capacity hring =>
        cases hs
        unfold ScrollbackRing.new at hring
        dsimp only at hring
        split at hring
        · next hcapacity =>
          cases hring
          refine .inl ⟨?_, .inr ⟨⟨id, hid⟩, hcapacity⟩⟩
          have hn := length_toString_le h.scrollbackBytes
          have hm := length_toString_le (show maxCapacityBytes ≤ u64Max by decide)
          have htext : "pty: ring error: capacity ".length + " exceeds the per-terminal limit ".length ≤ 100 := by decide
          rw [String.length_append, String.length_append, String.length_append, Option.getD_some]
          omega
        · cases hring
      · cases hs

/-- What is in a page. -/
theorem historyPage_sizes {r : ScrollbackRing} {L : List UInt8} (hw : Window r L) (before : Option StreamSeq) (maxBytes : Nat) :
    let page := r.historyPage before maxBytes
    page.endSeq = ScrollbackRing.clamp (before.getD r.headSeq) r.tailSeq r.headSeq ∧
      page.startSeq = page.endSeq - page.bytes.length ∧ page.bytes.length = min maxBytes (page.endSeq - r.tailSeq) := by
  obtain ⟨hend, hle, hlength, hbytes, _⟩ := hw.historyPage_eq before maxBytes
  have hrange : r.tailOffset ≤ r.headSeq := by
    rw [hw.head]
    exact hw.tail_le
  obtain ⟨_, hhi⟩ := Window.clamp_mem (before.getD r.headSeq) hrange
  have hstop : (r.historyPage before maxBytes).endSeq ≤ L.length := by
    rw [hend, ← hw.head]
    exact hhi
  have htaken : (r.historyPage before maxBytes).bytes.length =
      (r.historyPage before maxBytes).endSeq - (r.historyPage before maxBytes).startSeq := by
    rw [hbytes, List.length_drop, List.length_take, Nat.min_eq_left hstop]
  refine ⟨hend, ?_, htaken.trans hlength⟩
  rw [htaken]
  exact (Nat.sub_sub_self hle).symm

/-- **The answer to a request.** -/
theorem fitsNoise_handleRequest (h : d.Ranged) {request : RequestFrame} {env : Env}
    (hrange : (FrameBody.request request).inRange = true) :
    fitsNoise (.response (d.handleRequest request env).2) ↔ d.answerRoom request env = true := by
  obtain ⟨hid, hbody⟩ := FrameBody.request_inRange.mp hrange
  obtain ⟨id, body⟩ := request
  have hok : ∀ body : ResponseBody, body.size ≤ 100 → fitsNoise (.response (okResponse id body)) := fun body hsize =>
    (fitsNoise_okResponse id body).mpr (responseRoom_of_le hid (by omega))
  have hother : ∀ message : String, message.length ≤ 1000 → fitsNoise (.response (otherResponse id message)) :=
    fun message hlength => (fitsNoise_otherResponse id message).mpr (otherRoom_of_le hid hlength)
  unfold handleRequest answerRoom
  dsimp only
  cases body with
  | listTerminals =>
    rw [fitsNoise_okResponse]
    have hsize : (ResponseBody.listTerminals d.list).size =
        1 + (uintSize d.registered.length + (d.registered.map fun entry => infoSize entry.2).sum) := by
      show 1 + (uintSize d.list.length + (d.list.map TerminalInfo.size).sum) = _
      unfold list
      rw [List.length_map, List.map_map]
      rfl
    rw [hsize]
  | createTerminal params =>
    dsimp only
    split
    · next e info hcreate =>
      obtain ⟨hroom, ⟨id', hspawned⟩, hcapacity, hsize⟩ := create_ok hcreate
      rw [hspawned, fitsNoise_okResponse, decide_eq_false hroom, decide_eq_false hcapacity, Bool.false_or, Bool.false_or,
        ← hsize]
      rfl
    · next message hcreate =>
      rcases create_error h hcreate with ⟨hshort, hfull | ⟨⟨id', hspawned⟩, hcapacity⟩⟩ | ⟨hroom, hspawned⟩
      · refine iff_of_true (hother message hshort) ?_
        rw [decide_eq_true hfull]
        split
        · rw [Bool.true_or]
        · rw [Bool.true_or, Bool.true_or]
      · refine iff_of_true (hother message hshort) ?_
        rw [hspawned, decide_eq_true hcapacity]
        dsimp only
        rw [Bool.or_true, Bool.true_or]
      · rw [hspawned, fitsNoise_otherResponse]
        dsimp only
        rw [decide_eq_false hroom, Bool.false_or]
  | openTerminal => exact iff_of_true (fitsNoise_unknownTerminal hid) rfl
  | readHistory terminalId before maxBytes =>
    dsimp only
    cases hattach : d.attach terminalId with
    | none => exact iff_of_true (fitsNoise_unknownTerminal hid) rfl
    | some terminal =>
      have hterminal : d.terminals.lookup terminalId = some terminal := (Option.filter_eq_some_iff.mp hattach).1
      obtain ⟨hsound, _⟩ := h.recorded terminalId terminal hterminal
      obtain ⟨hend, hstart, hbytes⟩ := historyPage_sizes hsound.window before maxBytes
      rw [Option.all_some]
      dsimp only
      rw [fitsNoise_okResponse, ← hend, ← hbytes]
      show responseRoom id (1 + (uuidSize + uintSize (terminal.ring.historyPage before maxBytes).startSeq + _ + _ + 1)) = true ↔ _
      rw [hstart]
  | killTerminal terminalId =>
    dsimp only
    cases hattach : d.attach terminalId with
    | none =>
      refine iff_of_true (hother _ ?_) rfl
      have htext : "internal: unknown terminal ".length + "TerminalId(".length + ")".length ≤ 100 := by decide
      unfold TerminalId.debug
      rw [String.length_append, String.length_append, String.length_append, Uuid.length_display]
      omega
    | some terminal =>
      rw [Option.all_some]
      dsimp only
      cases hexited : terminal.exited with
      | true =>
        rw [if_pos rfl]
        refine iff_of_true (hok .killTerminal (by decide)) ?_
        split <;> rfl
      | false =>
        rw [if_neg Bool.false_ne_true]
        cases env.killed with
        | ok _ => exact iff_of_true (hok .killTerminal (by decide)) rfl
        | error message =>
          dsimp only
          rw [Bool.false_or]
          exact fitsNoise_otherResponse id message
  | getServerConfig =>
    refine iff_of_true ?_ rfl
    unfold serverConfig
    dsimp only
    split
    · next config hconfig =>
      split at hconfig
      · next hbytes =>
        cases hconfig
        have hsize : uintSize d.scrollbackBytes ≤ 10 := uintSize_le (Nat.lt_of_le_of_lt hbytes (by decide))
        exact hok _ (show 1 + uintSize d.scrollbackBytes ≤ 100 by omega)
      · cases hconfig
    · next message hconfig =>
      split at hconfig
      · cases hconfig
      · cases hconfig
        exact hother _ (by decide)
  | setServerConfig config =>
    cases env.saved with
    | ok _ =>
      have hsize : uintSize config.scrollbackBytes ≤ 10 :=
        uintSize_le (Nat.lt_of_le_of_lt (of_decide_eq_true hbody) (by decide))
      exact iff_of_true (hok _ (show 1 + uintSize config.scrollbackBytes ≤ 100 by omega)) rfl
    | error message => exact fitsNoise_otherResponse id message
  | sendInput =>
    dsimp only
    split
    · exact iff_of_true (hok _ (by decide)) rfl
    · exact iff_of_true (fitsNoise_unknownTerminal hid) rfl
  | resizeTerminal =>
    refine iff_of_true ?_ rfl
    dsimp only
    split
    · split
      · split
        · exact hok _ (by decide)
        · exact hok _ (by decide)
      · exact hok _ (by decide)
    · exact fitsNoise_unknownTerminal hid

/-- **What the daemon encodes.** -/
theorem fitsNoise_serve (h : d.Ranged) {move : Move} (hmove : d.inRange move = true) {frame : FrameBody}
    (hs : d.serve move = some (e, some frame)) : fitsNoise frame ↔ d.room move = true := by
  cases move with
  | frame inbound env =>
    unfold inRange at hmove
    rw [Bool.and_eq_true, decide_eq_true_iff] at hmove
    obtain ⟨hrange, -⟩ := hmove
    unfold serve at hs
    dsimp only at hs
    split at hs
    · unfold receiveFrame at hs
      split at hs
      · split at hs
        · next id terminalId =>
          unfold openStart at hs
          cases hattach : d.attach terminalId with
          | none =>
            rw [hattach] at hs
            cases hs
            exact iff_of_true (fitsNoise_unknownTerminal (FrameBody.request_inRange.mp hrange).1) rfl
          | some terminal =>
            rw [hattach] at hs
            cases hs
        · next request hopen =>
          cases hs
          refine (fitsNoise_handleRequest h hrange).trans ?_
          unfold room
          split
          · next hrequest =>
            cases hrequest
            exact absurd rfl (hopen _ _)
          · next hrequest =>
            cases hrequest
            exact Iff.rfl
          · next hother => cases hother
          · next hnone _ => exact absurd rfl (hnone request env)
        · cases hs
          exact iff_of_true (fitsNoise_ping (Nat.lt_of_le_of_lt (of_decide_eq_true hrange) (by decide))).2 rfl
        · cases hs
        · cases hs
      · cases hs
    · cases hs
  | openStep =>
    obtain ⟨⟨e, reply⟩, hopen, heq⟩ := Option.map_eq_some_iff.mp hs
    obtain ⟨_, _, _, _, _, _, _, rfl⟩ | ⟨_, _, _, _, _, _, _, _, rfl⟩ |
      ⟨id, terminalId, stream, subscription, snapshot, htask, ⟨_, rfl⟩ | ⟨_, _, _, rfl⟩⟩ |
      ⟨id, terminalId, stream, subscription, snapshot, info, terminal, htask, _, _, rfl⟩ := openStep_cases hopen
    all_goals cases heq
    · have hid := (h.task id stream (by rw [htask]; rfl)).1
      refine iff_of_true (fitsNoise_unknownTerminal hid) ?_
      unfold room
      rw [htask]
    · have hsize : (renderBytes snapshot).length =
          (renderPrefixFromAnchor snapshot.anchorState).length + snapshot.bytes.length := List.length_append
      unfold room
      rw [htask, fitsNoise_okResponse]
      dsimp only
      rw [← hsize]
      rfl
  | output =>
    obtain ⟨⟨e, data⟩, houtput, heq⟩ := Option.map_eq_some_iff.mp hs
    obtain ⟨_, out, rest, hqueue, _, ⟨_, _, _, rfl⟩ | ⟨_, rfl⟩⟩ := output_cases houtput
    all_goals cases heq
    exact iff_of_true (h.queue (by rw [hqueue]; exact List.mem_cons_self)).fitsNoise rfl
  | receive | enqueue | cancel =>
    obtain ⟨_, _, heq⟩ := Option.map_eq_some_iff.mp hs
    cases heq
  | terminal id move =>
    unfold serve at hs
    dsimp only at hs
    split at hs
    · cases hs
    · obtain ⟨_, _, heq⟩ := Option.map_eq_some_iff.mp hs
      cases heq
  | create params env =>
    unfold serve at hs
    dsimp only at hs
    split at hs
    · split at hs <;> cases hs
    · cases hs
  | configure => cases hs

end Daemon

/-! ## Both sides -/

/-- A frame fits one message when there is room, and only then it is not refused. -/
structure FitsWhen (frame : FrameBody) (room : Bool) : Prop where
  fits : fitsNoise frame ↔ room = true
  refused : ∀ noise : NoiseSession, noise.encrypt frame = .error .payloadTooLarge ↔ room = false

theorem fitsWhen_of_iff {frame : FrameBody} {room : Bool} (h : fitsNoise frame ↔ room = true) : FitsWhen frame room where
  fits := h
  refused noise := by
    rw [NoiseSession.encrypt_eq_payloadTooLarge, h, Bool.not_eq_true]

/-- **Frames fit when there is room.** What a daemon that has been running encodes, and what a session seals: where
there is none, the session's connection ends, and its commands stay to be sent again. -/
theorem frames_fit {maxTerminals scrollbackBytes : Nat} (hmax : maxTerminals ≤ u64Max)
    (hscrollback : scrollbackBytes ≤ u64Max) {is : List Daemon.Move} {d e : Daemon}
    (hm : Meets Daemon.step (fun d move => d.inRange move = true) { maxTerminals, scrollbackBytes } is)
    (hr : run Daemon.step { maxTerminals, scrollbackBytes } is = some d) {move : Daemon.Move}
    (hmove : d.inRange move = true) {frame : FrameBody} (hserve : d.serve move = some (e, some frame))
    {s t : Session} {sending : Session.Move} (hs : s.step sending = some t) :
    FitsWhen frame (d.room move) ∧ s.Sends (s.outgoing sending) t ∧
      ∀ out, s.outgoing sending = some out → out.inRange = true → FitsWhen out (s.room sending) := by
  have hranged : d.Ranged := Steps.run_invariant (fun _ _ _ hd hc ht => hd.step hc ht) hm hr
    (Daemon.ranged_new hmax hscrollback)
  exact ⟨fitsWhen_of_iff (Daemon.fitsNoise_serve hranged hmove hserve), Session.sends_step hs,
    fun _ hout hrange => fitsWhen_of_iff (Session.fitsNoise_iff_room hout hrange)⟩

/-- A terminal with a title. -/
def titled (title : String) : List Daemon.Move :=
  [.create { cols := 80, rows := 24, cwd := none, cmd := [], env := [] }
      { Talk.sampleEnv with spawned := .ok (Talk.sampleId 1) },
    .terminal (Talk.sampleId 1) (.title title)]

/-- A client that asks for the terminals. -/
def listing : Daemon.Move := .frame (.request ⟨1, .listTerminals⟩) Talk.sampleEnv

set_option maxRecDepth 8000 in
theorem frames_fit_sample : ∃ d e frame s t,
    run Daemon.step { maxTerminals := 8, scrollbackBytes := 8 } (titled "sh") = some d ∧
      d.serve listing = some (e, some frame) ∧
      run Session.step (.new none) [.loop .start, .loop .announced, .loop (.transport (.ok ()))] = some s ∧
      s.step (.setup .handshaken) = some t ∧ FitsWhen frame (d.room listing) ∧
      s.Sends (s.outgoing (.setup .handshaken)) t ∧
      ∀ out, s.outgoing (.setup .handshaken) = some out → out.inRange = true → FitsWhen out (s.room (.setup .handshaken)) := by
  have hm : Meets Daemon.step (fun d move => d.inRange move = true) { maxTerminals := 8, scrollbackBytes := 8 }
      (titled "sh") := by decide
  exact ⟨_, _, _, _, _, rfl, rfl, rfl, rfl, frames_fit (by decide) (by decide) hm rfl (by decide) rfl rfl⟩

/-- A long title. -/
def longTitle : String := String.ofList (List.replicate 65536 'a')

theorem textSize_longTitle : textSize longTitle = 65536 := by
  have hreplicate : ∀ n, ((List.replicate n 'a').flatMap String.utf8EncodeChar).length = n := by
    intro n
    induction n with
    | zero => rfl
    | succ n ih =>
      rw [List.replicate_succ, List.flatMap_cons, List.length_append, ih]
      exact Nat.add_comm 1 n
  unfold textSize longTitle
  rw [String.toList_ofList]
  exact hreplicate 65536

set_option maxRecDepth 8000 in
theorem titled_answer (title : String) : ∃ d e info,
    run Daemon.step { maxTerminals := 8, scrollbackBytes := 8 } (titled title) = some d ∧
      d.serve listing = some (e, some (.response (okResponse 1 (.listTerminals [info])))) ∧
      strSize title ≤ (ResponseBody.listTerminals [info]).size := by
  refine ⟨_, _, _, rfl, rfl, ?_⟩
  show strSize title ≤ 1 + (1 + (17 + 1 + 1 + 1 + (1 + strSize title) + 1))
  omega

theorem large_answer {title : String} {id : RequestId} {info : TerminalInfo} (htitle : frameRoom < textSize title)
    (hsize : strSize title ≤ (ResponseBody.listTerminals [info]).size) :
    ¬fitsNoise (.response (okResponse id (.listTerminals [info]))) := by
  rw [fitsNoise_okResponse]
  unfold responseRoom
  unfold strSize at hsize
  rw [decide_eq_true_iff]
  omega

/-- The list of one terminal does not fit. -/
theorem title_does_not_fit : ∃ d e frame, run Daemon.step { maxTerminals := 8, scrollbackBytes := 8 } (titled longTitle) = some d ∧
    d.serve listing = some (e, some frame) ∧ ¬fitsNoise frame ∧
      ∀ noise : NoiseSession, noise.encrypt frame = .error .payloadTooLarge := by
  obtain ⟨d, e, info, hr, hserve, hsize⟩ := titled_answer longTitle
  have htitle : frameRoom < textSize longTitle := by
    rw [textSize_longTitle]
    decide
  have hlarge : ¬fitsNoise (.response (okResponse 1 (.listTerminals [info]))) := large_answer htitle hsize
  exact ⟨d, e, _, hr, hserve, hlarge, fun noise => NoiseSession.encrypt_eq_payloadTooLarge.mpr hlarge⟩

end CliPocket
