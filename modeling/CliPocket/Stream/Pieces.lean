import CliPocket.Daemon.Work

/-!
# The frames of one chunk

`live_output_frames` cuts a chunk into pieces of 16 KiB at most, and gives each frame the place in the output where its
piece ends.

- `seq_pieceFrames`: what is behind a frame says where it ends;
- `liveOutputFrames_partition`: **the frames are the chunk**, and there is an error exactly where the output would begin
  below zero.
-/

namespace CliPocket

open Saturating (u64Max)

namespace OutboundOutput

/-- The bytes of frames. -/
def bytesOf (frames : List OutboundOutput) : List UInt8 := frames.flatMap fun out => out.frame.bytes

@[simp] theorem bytesOf_nil : bytesOf [] = [] := rfl

@[simp] theorem bytesOf_cons (out : OutboundOutput) (frames : List OutboundOutput) :
    bytesOf (out :: frames) = out.frame.bytes ++ bytesOf frames := rfl

@[simp] theorem bytesOf_append (frames more : List OutboundOutput) :
    bytesOf (frames ++ more) = bytesOf frames ++ bytesOf more := by
  simp [bytesOf]

/-- Each frame says where it ends, when what is behind it ends at `stop`. -/
def Numbered (stop : Nat) (frames : List OutboundOutput) : Prop :=
  ∀ before out after, frames = before ++ out :: after → out.frame.seq + (bytesOf after).length = stop

theorem Numbered.cons {stop : Nat} {out : OutboundOutput} {frames : List OutboundOutput} (h : Numbered stop frames)
    (hout : out.frame.seq + (bytesOf frames).length = stop) : Numbered stop (out :: frames) := by
  rintro before next after heq
  cases before with
  | nil =>
    cases heq
    exact hout
  | cons first before =>
    cases heq
    exact h before next after rfl

theorem lt_of_sums {a b x y stop : Nat} (h : a + x = stop) (h' : b + y = stop) (hlt : y < x) : a < b := by omega

/-- Frames that are not empty, and say where they end, go up. -/
theorem Numbered.increasing {stop : Nat} {frames : List OutboundOutput} (h : Numbered stop frames)
    (hne : ∀ out ∈ frames, out.frame.bytes ≠ []) : (frames.map fun out => out.frame.seq).Pairwise (· < ·) := by
  induction frames with
  | nil => simp
  | cons out frames ih =>
    have hrest : Numbered stop frames := fun before next after heq => h (out :: before) next after (by simp [heq])
    simp only [List.map_cons, List.pairwise_cons, List.mem_map]
    refine ⟨?_, ih hrest fun next hnext => hne next (List.mem_cons_of_mem _ hnext)⟩
    rintro _ ⟨next, hnext, rfl⟩
    obtain ⟨before, after, rfl⟩ := List.append_of_mem hnext
    have hout : out.frame.seq + (bytesOf (before ++ next :: after)).length = stop := h [] out _ rfl
    have hthere := hrest before next after rfl
    have hpos := List.length_pos_iff.mpr (hne next (List.mem_cons_of_mem _ hnext))
    refine lt_of_sums hout hthere ?_
    simp only [bytesOf_append, bytesOf_cons, List.length_append]
    omega

/-- The last one ends where the chunk does. -/
theorem Numbered.last {stop : Nat} {frames : List OutboundOutput} (h : Numbered stop frames) {out : OutboundOutput}
    (hlast : frames.getLast? = some out) : out.frame.seq = stop := by
  obtain ⟨before, rfl⟩ := List.getLast?_eq_some_iff.mp hlast
  simpa using h before out [] rfl

end OutboundOutput

open OutboundOutput

section Pieces

variable {stream : StreamId} {terminalId : TerminalId} {start : Nat}

theorem bytesOf_pieceFrames (pieces : List (List UInt8)) :
    ∀ sent, bytesOf (pieceFrames stream terminalId start sent pieces) = pieces.flatten := by
  induction pieces with
  | nil => simp [pieceFrames]
  | cons piece pieces ih => simp [pieceFrames, ih]

/-- **Where the pieces end**, while the numbers do not run out. -/
theorem seq_pieceFrames (pieces : List (List UInt8)) : ∀ sent, start + sent + pieces.flatten.length ≤ u64Max →
    Numbered (start + sent + pieces.flatten.length) (pieceFrames stream terminalId start sent pieces) := by
  induction pieces with
  | nil =>
    rintro sent _ before out after heq
    simp [pieceFrames] at heq
  | cons piece pieces ih =>
    intro sent hroom
    simp only [List.flatten_cons, List.length_append] at hroom ⊢
    have hrest := ih (sent + piece.length) (by omega)
    rw [show start + (sent + piece.length) + pieces.flatten.length =
      start + sent + (piece.length + pieces.flatten.length) by omega] at hrest
    apply hrest.cons
    rw [bytesOf_pieceFrames]
    have hseq : Saturating.add u64Max start (sent + piece.length) = start + (sent + piece.length) :=
      Saturating.add_eq (by omega)
    show Saturating.add u64Max start (sent + piece.length) + _ = _
    omega

theorem pieces_pieceFrames {pieces : List (List UInt8)} :
    ∀ {sent out}, out ∈ pieceFrames stream terminalId start sent pieces → out.frame.bytes ∈ pieces := by
  induction pieces with
  | nil => simp [pieceFrames]
  | cons piece pieces ih =>
    intro sent out hout
    rcases List.mem_cons.mp hout with rfl | hout
    · exact List.mem_cons_self
    · exact List.mem_cons_of_mem _ (ih hout)

end Pieces

/-- The frames are the chunk in pieces, each of which says where it ends. -/
structure Partition (stream : StreamId) (terminalId : TerminalId) (chunk : OutputChunk) (frames : List OutboundOutput) :
    Prop where
  bytes : bytesOf frames = chunk.bytes
  pieces : ∀ out ∈ frames, out.frame.bytes ≠ [] ∧ out.frame.bytes.length ≤ 16 * 1024
  increasing : (frames.map fun out => out.frame.seq).Pairwise (· < ·)
  last : ∀ out, frames.getLast? = some out → out.frame.seq = chunk.seqAtEnd
  seq : ∀ before out after, frames = before ++ out :: after →
    out.frame.seq = chunk.seqAtEnd - (bytesOf after).length ∧ (bytesOf after).length ≤ chunk.seqAtEnd
  carries : ∀ out ∈ frames, out.stream = stream ∧ out.terminalId = terminalId ∧ out.frame.streamId = stream

/-- **The frames of a chunk**, whose number fits into 64 bits. -/
theorem liveOutputFrames_partition (stream : StreamId) (terminalId : TerminalId) (chunk : OutputChunk)
    (hroom : chunk.seqAtEnd ≤ u64Max) :
    (chunk.bytes.length ≤ chunk.seqAtEnd →
      ∃ frames, liveOutputFrames stream terminalId chunk = .ok frames ∧ Partition stream terminalId chunk frames) ∧
    ((∃ e, liveOutputFrames stream terminalId chunk = .error e) ↔
      chunk.bytes.length ≠ 0 ∧ chunk.seqAtEnd < chunk.bytes.length) := by
  by_cases hempty : chunk.bytes.length = 0
  · have hok : liveOutputFrames stream terminalId chunk = .ok [] := by simp [liveOutputFrames, hempty]
    refine ⟨fun _ => ⟨[], hok, ?_⟩, by simp [hok, hempty]⟩
    exact ⟨(List.length_eq_zero_iff.mp hempty).symm, by simp, by simp, by simp, by simp, by simp⟩
  by_cases hless : chunk.seqAtEnd < chunk.bytes.length
  · have herror : liveOutputFrames stream terminalId chunk =
        .error ("output sequence underflow for terminal " ++ terminalId.debug) := by
      simp [liveOutputFrames, hempty, hless]
    exact ⟨fun hle => absurd hless (Nat.not_lt.mpr hle), by simp [herror, hempty, hless]⟩
  have hflatten := Chunks.chunksOf_flatten (show 0 < outputChunkBytes by decide) chunk.bytes
  obtain ⟨frames, hframes⟩ : ∃ frames, frames = pieceFrames stream terminalId (chunk.seqAtEnd - chunk.bytes.length) 0
    (Chunks.chunksOf outputChunkBytes chunk.bytes) := ⟨_, rfl⟩
  have hok : liveOutputFrames stream terminalId chunk = .ok frames := by
    simp [liveOutputFrames, hempty, hless, hframes]
  have hpieces : ∀ out ∈ frames, out.frame.bytes ≠ [] ∧ out.frame.bytes.length ≤ outputChunkBytes := by
    intro out hout
    exact Chunks.mem_chunksOf (by decide) (pieces_pieceFrames (hframes ▸ hout))
  have hnumbered : Numbered chunk.seqAtEnd frames := by
    have hstop : chunk.seqAtEnd - chunk.bytes.length + 0 + chunk.bytes.length = chunk.seqAtEnd := by
      rw [Nat.add_zero]
      exact Nat.sub_add_cancel (Nat.not_lt.mp hless)
    have hseq := @seq_pieceFrames stream terminalId (chunk.seqAtEnd - chunk.bytes.length)
      (Chunks.chunksOf outputChunkBytes chunk.bytes) 0
    rw [hflatten, hstop, ← hframes] at hseq
    exact hseq hroom
  refine ⟨fun _ => ⟨frames, hok, ?_⟩, by simp [hok, hless]⟩
  refine ⟨?_, hpieces, hnumbered.increasing fun out hout => (hpieces out hout).1, fun out => hnumbered.last, ?_, ?_⟩
  · rw [hframes, bytesOf_pieceFrames, hflatten]
  · intro before out after heq
    have hout := hnumbered before out after heq
    exact ⟨Nat.eq_sub_of_add_eq hout, hout ▸ Nat.le_add_left _ _⟩
  · intro out hout
    exact mem_pieceFrames (hframes ▸ hout)

/-- Two pieces, the first of which is full. -/
theorem liveOutputFrames_partition_sample :
    let chunk : OutputChunk := { seqAtEnd := 20000, bytes := List.replicate 16385 97 }
    ∃ frames, liveOutputFrames 1 ⟨.splat 1⟩ chunk = .ok frames ∧ Partition 1 ⟨.splat 1⟩ chunk frames :=
  (liveOutputFrames_partition 1 ⟨.splat 1⟩ { seqAtEnd := 20000, bytes := List.replicate 16385 97 } (by decide)).1
    (by rw [List.length_replicate]; decide)

end CliPocket
