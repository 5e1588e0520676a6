import CliPocket.Pty.Reads

/-!
# A terminal of the daemon

The ring of a terminal, its reader, and the broadcast of its output.

- `Terminal.push`, `Terminal.broadcast`: the two steps of the reader with one chunk;
- `receive`: a subscriber of the broadcast channel, which keeps the last `subscriberCap` chunks;
- `Terminal.Sound`: ring and chunks belong to one stream of output.
-/

namespace CliPocket

open Saturating (u64Max)

/-! ## Output -/

structure OutputChunk where
  seqAtEnd : StreamSeq
  bytes : List UInt8
  deriving DecidableEq

def subscriberCap : Nat := 1024

inductive OutputRecv
  | chunk (chunk : OutputChunk)
  | lagged (skipped : Nat)
  deriving DecidableEq

/-- `OutputStream::recv`, for a subscriber that has come to `next` in all that has been sent: what it gets, and where
it is then. -/
def receive (sent : List OutputChunk) (next : Nat) : Option (OutputRecv × Nat) :=
  let oldest := sent.length - subscriberCap
  if next < oldest then some (.lagged (oldest - next), oldest)
  else sent[next]?.map fun chunk => (.chunk chunk, next + 1)

structure Terminal where
  createdAtUnixMs : Nat
  title : Option String := none
  ring : ScrollbackRing
  /-- The chunk that the reader has pushed and not sent. -/
  pushed : Option OutputChunk := none
  /-- All chunks sent. -/
  sent : List OutputChunk := []
  exited : Bool := false
  /-- In the table of the session manager. -/
  registered : Bool := true

namespace Terminal

/-- `seq_at_end` in `spawn_reader`: the ring has the chunk. -/
def push (t : Terminal) (bytes : List UInt8) : Option Terminal :=
  match t.pushed, bytes with
  | none, _ :: _ =>
    let ring := t.ring.push bytes
    some { t with ring, pushed := some { seqAtEnd := ring.headSeq, bytes } }
  | _, _ => none

/-- The subscribers have it. -/
def broadcast (t : Terminal) : Option Terminal :=
  t.pushed.map fun chunk => { t with sent := t.sent ++ [chunk], pushed := none }

def info (t : Terminal) (id : TerminalId) : TerminalInfo :=
  { terminal := id
    cols := t.ring.cols
    rows := t.ring.rows
    createdAtUnixMs := t.createdAtUnixMs
    label := t.title
    attachedClients := 0 }

/-- All output there has been. -/
def output (t : Terminal) : List UInt8 := (t.sent ++ t.pushed.toList).flatMap OutputChunk.bytes

end Terminal

/-! ## One stream of output -/

/-- The chunks follow one another in a stream, from `start` on. -/
def Chunks (start : Nat) : List OutputChunk → Prop
  | [] => True
  | chunk :: rest =>
    chunk.bytes ≠ [] ∧ chunk.seqAtEnd = start + chunk.bytes.length ∧ Chunks (start + chunk.bytes.length) rest

theorem chunks_append : ∀ {start : Nat} {xs ys : List OutputChunk},
    Chunks start (xs ++ ys) ↔ Chunks start xs ∧ Chunks (start + (xs.flatMap OutputChunk.bytes).length) ys
  | start, [], ys => by simp [Chunks]
  | start, chunk :: xs, ys => by
    simp only [List.cons_append, Chunks, @chunks_append _ xs, List.flatMap_cons, List.length_append, Nat.add_assoc,
      and_assoc]

structure Terminal.Sound (t : Terminal) : Prop where
  window : Window t.ring t.output
  chunks : Chunks 0 (t.sent ++ t.pushed.toList)

namespace Terminal

variable {t u : Terminal}

/-- A new terminal. -/
theorem sound_new {ring : ScrollbackRing} (hring : Window ring []) (createdAtUnixMs : Nat) (title : Option String) :
    Sound { createdAtUnixMs, title, ring } where
  window := hring
  chunks := trivial

theorem push_eq_some {bytes : List UInt8} (h : t.push bytes = some u) : t.pushed = none ∧ bytes ≠ [] ∧
    u = { t with ring := t.ring.push bytes, pushed := some { seqAtEnd := (t.ring.push bytes).headSeq, bytes } } := by
  unfold push at h
  split at h
  · next hpushed =>
    cases h
    exact ⟨hpushed, List.cons_ne_nil _ _, rfl⟩
  · cases h

theorem output_push {bytes : List UInt8} (h : t.push bytes = some u) : u.output = t.output ++ bytes := by
  obtain ⟨hpushed, _, rfl⟩ := push_eq_some h
  simp [output, hpushed]

theorem output_broadcast (h : t.broadcast = some u) : u.output = t.output := by
  obtain ⟨chunk, hpushed, rfl⟩ := Option.map_eq_some_iff.mp h
  simp [output, hpushed]

/-- **The reader pushes a chunk**, before the head saturates. -/
theorem Sound.push (h : t.Sound) {bytes : List UInt8} (hs : t.push bytes = some u)
    (hroom : t.ring.headSeq + bytes.length ≤ u64Max) : u.Sound := by
  have houtput := output_push hs
  have hlength := h.window.head
  obtain ⟨hpushed, hne, rfl⟩ := push_eq_some hs
  have hwindow : Window (t.ring.push bytes) (t.output ++ bytes) := h.window.push bytes (by rw [← hlength]; exact hroom)
  refine ⟨?_, ?_⟩
  · rw [houtput]
    exact hwindow
  · have hchunks := h.chunks
    rw [hpushed, Option.toList_none, List.append_nil] at hchunks
    show Chunks 0 (t.sent ++ [_])
    rw [chunks_append]
    refine ⟨hchunks, hne, ?_, trivial⟩
    show (t.ring.push bytes).headSeq = _
    rw [hwindow.head, output, hpushed, Option.toList_none, List.append_nil, List.length_append, Nat.zero_add]

/-- The reader sends it. -/
theorem Sound.broadcast (h : t.Sound) (hs : t.broadcast = some u) : u.Sound := by
  have houtput := output_broadcast hs
  obtain ⟨chunk, hpushed, rfl⟩ := Option.map_eq_some_iff.mp hs
  refine ⟨?_, ?_⟩
  · rw [houtput]
    exact h.window
  · have hchunks := h.chunks
    rw [hpushed] at hchunks
    show Chunks 0 ((t.sent ++ [chunk]) ++ [])
    rwa [List.append_nil]

end Terminal

end CliPocket
