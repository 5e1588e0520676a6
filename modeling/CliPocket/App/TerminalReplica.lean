import CliPocket.Lib.Ordered
import CliPocket.Lib.Utf8
import Mathlib.Data.Int.Order.Basic

/-!
# The text of the terminal on screen

The controller keeps the text that its terminal shows, in chunks, beside the range of the stream that the text stands for.

- `TerminalReplica`: the chunks, what waits for a terminal or for a redraw, and a cache of the text;
- `TerminalReplica.text`: the text of the chunks;
- `TerminalReplica.Coherent`: the cache is that text, which no operation breaks.
-/

namespace CliPocket.App

structure TerminalReplica.BufferedLiveOutput where
  seq : Int
  chunk : String
  deriving DecidableEq

structure TerminalReplica.LoadedRange where
  startSeq : Option Int
  endSeq : Option Int
  deriving DecidableEq

structure TerminalReplica.PendingSnapshot where
  terminalId : String
  snapshot : String
  startSeq : Option Int
  deriving DecidableEq

structure TerminalReplica where
  renderedTextCache : Option String := some ""
  prependedHistoryChunks : List String := []
  bodyChunks : List String := []
  loadedRange : TerminalReplica.LoadedRange := { startSeq := none, endSeq := none }
  pendingSnapshot : Option TerminalReplica.PendingSnapshot := none
  isRedrawing : Bool := false
  bufferedLiveOutput : List TerminalReplica.BufferedLiveOutput := []
  pendingDetachedLiveOutput : List TerminalReplica.BufferedLiveOutput := []
  deriving DecidableEq

namespace TerminalReplica

/-- `utf8Encoder.encode(chunk).length`. -/
def encodedLength (chunk : String) : Int := (Utf8.encode chunk).length

def chunkEndSeq (startSeq : Int) (chunk : String) : Int := startSeq + encodedLength chunk

variable (r : TerminalReplica)

def getLoadedRange : LoadedRange := r.loadedRange

def reset (_ : TerminalReplica) : TerminalReplica := {}

def queueSnapshot (terminalId snapshot : String) (startSeq : Option Int) : TerminalReplica :=
  { r with pendingSnapshot := some { terminalId, snapshot, startSeq } }

def hasPendingSnapshot (terminalId : String) : Bool := r.pendingSnapshot.any (·.terminalId = terminalId)

def consumePendingSnapshot (terminalId : String) : Option PendingSnapshot × TerminalReplica :=
  if r.hasPendingSnapshot terminalId then (r.pendingSnapshot, { r with pendingSnapshot := none }) else (none, r)

def queueDetachedLiveOutput (seq : Int) (chunk : String) : TerminalReplica :=
  if chunk = "" then r
  else { r with pendingDetachedLiveOutput := r.pendingDetachedLiveOutput ++ [{ seq, chunk }] }

def drainDetachedLiveOutput : List BufferedLiveOutput × TerminalReplica :=
  (r.pendingDetachedLiveOutput, { r with pendingDetachedLiveOutput := [] })

def beginRedraw : TerminalReplica := { r with isRedrawing := true }

def endRedraw : TerminalReplica := { r with isRedrawing := false }

def drainBufferedLiveOutput : List BufferedLiveOutput × TerminalReplica :=
  (r.bufferedLiveOutput, { r with bufferedLiveOutput := [] })

/-- From the end of the buffer, behind the first one that is not later. -/
def bufferLiveOutput (seq : Int) (chunk : String) : TerminalReplica :=
  { r with bufferedLiveOutput := Ordered.insert BufferedLiveOutput.seq { seq, chunk } r.bufferedLiveOutput }

def setSnapshotContent (snapshot : String) (startSeq : Option Int) : TerminalReplica :=
  { r with
    prependedHistoryChunks := []
    bodyChunks := if snapshot = "" then [] else [snapshot]
    renderedTextCache := some snapshot
    loadedRange := { startSeq, endSeq := startSeq.map (chunkEndSeq · snapshot) } }

def prependHistoryChunk (chunk : String) (startSeq : Int) : TerminalReplica :=
  if chunk = "" then { r with loadedRange := { r.loadedRange with startSeq := some startSeq } }
  else { r with
    prependedHistoryChunks := r.prependedHistoryChunks ++ [chunk]
    renderedTextCache := none
    loadedRange := { r.loadedRange with startSeq := some startSeq } }

def appendLiveChunk (chunk : String) (seq : Int) : TerminalReplica :=
  if chunk = "" then r
  else { r with
    bodyChunks := r.bodyChunks ++ [chunk]
    renderedTextCache := none
    loadedRange := {
      startSeq := some (r.loadedRange.startSeq.getD (seq - encodedLength chunk))
      endSeq := some seq } }

def currentRenderedText : String × TerminalReplica :=
  match r.renderedTextCache with
  | some text => (text, r)
  | none =>
    let text := String.join (r.prependedHistoryChunks.reverse ++ r.bodyChunks)
    (text, { r with renderedTextCache := some text })

/-! ## The text -/

/-- The text of the chunks. -/
def text : String := String.join (r.prependedHistoryChunks.reverse ++ r.bodyChunks)

/-- The cache is the text. -/
def Coherent : Prop := ∀ text ∈ r.renderedTextCache, text = r.text

variable {r}

theorem coherent_initial : Coherent {} := by
  intro text h
  cases h
  rfl

theorem Coherent.currentRenderedText (h : r.Coherent) :
    r.currentRenderedText = (r.text, { r with renderedTextCache := some r.text }) := by
  obtain ⟨cache, pages, body, range, pending, redrawing, buffered, detached⟩ := r
  cases cache with
  | some text =>
    have htext := h text rfl
    show (text, _) = _
    rw [← htext]
  | none => rfl

theorem coherent_cached (r : TerminalReplica) : Coherent { r with renderedTextCache := some r.text } := by
  intro text h
  cases h
  rfl

theorem text_setSnapshotContent (snapshot : String) (startSeq : Option Int) :
    (r.setSnapshotContent snapshot startSeq).text = snapshot := by
  unfold text setSnapshotContent
  dsimp only
  split
  · next h =>
    rw [h]
    rfl
  · simp

theorem coherent_setSnapshotContent (snapshot : String) (startSeq : Option Int) :
    (r.setSnapshotContent snapshot startSeq).Coherent := by
  intro text h
  cases h
  exact (text_setSnapshotContent snapshot startSeq).symm

theorem text_prependHistoryChunk (chunk : String) (startSeq : Int) :
    (r.prependHistoryChunk chunk startSeq).text = chunk ++ r.text := by
  unfold prependHistoryChunk
  split
  · next h =>
    rw [h, String.empty_append]
    rfl
  · unfold text
    simp

theorem Coherent.prependHistoryChunk (h : r.Coherent) (chunk : String) (startSeq : Int) :
    (r.prependHistoryChunk chunk startSeq).Coherent := by
  unfold TerminalReplica.prependHistoryChunk
  split
  · exact h
  · nofun

theorem text_appendLiveChunk (chunk : String) (seq : Int) : (r.appendLiveChunk chunk seq).text = r.text ++ chunk := by
  unfold appendLiveChunk
  split
  · next h => rw [h, String.append_empty]
  · unfold text
    simp [String.append_assoc]

theorem Coherent.appendLiveChunk (h : r.Coherent) (chunk : String) (seq : Int) : (r.appendLiveChunk chunk seq).Coherent := by
  unfold TerminalReplica.appendLiveChunk
  split
  · exact h
  · nofun

end TerminalReplica

end CliPocket.App
