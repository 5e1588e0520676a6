import CliPocket.App.TerminalReplica

/-!
# The controller of the terminal on screen

The controller draws one terminal, when there is a place on the page for it. A call may throw: a write may, and so does
what looks at a terminal that is gone.

- `TerminalController`: its fields, as far as the text depends on them;
- `flushPendingState`: what has waited for the terminal on screen is shown;
- `prependHistoryPage`, `measured`, `written`: a redraw with an older page in front, between its awaits;
- `appendLiveOutputs_mounted`: what output does to a terminal that takes it.
-/

namespace CliPocket.App

/-- What has been written to the terminal since it has been reset; `takes`: the writes before one throws. -/
structure MountedTerminal where
  written : String := ""
  takes : Option Nat := none
  deriving DecidableEq

namespace MountedTerminal

def reset (t : MountedTerminal) : MountedTerminal := { t with written := "" }

def write (t : MountedTerminal) (data : String) : Option MountedTerminal :=
  match t.takes with
  | some 0 => none
  | some (n + 1) => some { written := t.written ++ data, takes := some n }
  | none => some { t with written := t.written ++ data }

end MountedTerminal

structure TerminalController where
  replica : TerminalReplica := {}
  activeTerminalId : Option String := none
  host : Bool := false
  /-- Whether a terminal is being made. -/
  initPromise : Bool := false
  terminal : Option MountedTerminal := none
  deriving DecidableEq

/-- The base64 text stands for its bytes. -/
structure TerminalHistoryPageRecord where
  terminalId : String
  startSeq : Int
  bytes : List UInt8
  deriving DecidableEq

inductive RedrawPhase
  | measuring (chunk : String) (startSeq : Int)
  /-- `scrolls`: lines have been added; `thrown`: the write has thrown. -/
  | writing (scrolls thrown : Bool)
  | over
  deriving DecidableEq

/-- A `prependHistoryPage` that has begun. -/
structure Redraw where
  previousLiveBuffered : List TerminalReplica.BufferedLiveOutput
  phase : RedrawPhase
  deriving DecidableEq

namespace TerminalController

variable (c : TerminalController)

/-! ## Output and snapshots -/

/-- `false` where the call has thrown. -/
def appendLiveOutput (chunk : String) (seq : Int) : TerminalController × Bool :=
  match c.terminal with
  | none => (c, true)
  | some terminal =>
    let c := { c with replica := c.replica.appendLiveChunk chunk seq }
    match terminal.write chunk with
    | some terminal => ({ c with terminal := some terminal }, true)
    | none => (c, false)

/-- The loops over output that has been held back. -/
def appendLiveOutputs (c : TerminalController) : List TerminalReplica.BufferedLiveOutput → TerminalController × Bool
  | [] => (c, true)
  | output :: rest =>
    match c.appendLiveOutput output.chunk output.seq with
    | (c, true) => appendLiveOutputs c rest
    | (c, false) => (c, false)

def replayDetached : TerminalController × Bool :=
  let (replay, replica) := c.replica.drainDetachedLiveOutput
  { c with replica }.appendLiveOutputs replay

def applySnapshot (terminalId snapshot : String) (startSeq : Option Int) : TerminalController × Bool :=
  match c.terminal with
  | none => (c, true)
  | some terminal =>
    if c.activeTerminalId = some terminalId then
      let terminal := terminal.reset
      let c := { c with replica := c.replica.setSnapshotContent snapshot startSeq, terminal := some terminal }
      if snapshot = "" then c.replayDetached
      else
        match terminal.write snapshot with
        | some terminal => { c with terminal := some terminal }.replayDetached
        | none => (c, false)
    else (c, true)

def flushPendingState : TerminalController × Bool :=
  match c.terminal, c.activeTerminalId with
  | some _, some activeTerminalId =>
    match c.replica.consumePendingSnapshot activeTerminalId with
    | (some pendingSnapshot, replica) =>
      { c with replica }.applySnapshot pendingSnapshot.terminalId pendingSnapshot.snapshot pendingSnapshot.startSeq
    | (none, _) => c.replayDetached
  | _, _ => (c, true)

def renderSnapshot (terminalId snapshot : String) (startSeq : Option Int) : TerminalController × Bool :=
  { c with replica := c.replica.queueSnapshot terminalId snapshot startSeq }.flushPendingState

def appendActiveOutput (terminalId chunk : String) (seq : Int) : TerminalController × Bool :=
  if c.activeTerminalId ≠ some terminalId ∨ chunk = "" then (c, true)
  else
    match c.terminal with
    | none => ({ c with replica := c.replica.queueDetachedLiveOutput seq chunk }, true)
    | some _ =>
      if c.replica.isRedrawing then ({ c with replica := c.replica.bufferLiveOutput seq chunk }, true)
      else c.appendLiveOutput chunk seq

/-! ## Switching and mounting -/

def reset : TerminalController :=
  { c with activeTerminalId := none, replica := c.replica.reset, terminal := c.terminal.map MountedTerminal.reset }

def setActiveTerminal (terminalId : Option String) : TerminalController × Bool :=
  { c with activeTerminalId := terminalId }.flushPendingState

def mount : TerminalController :=
  { c with host := true, initPromise := c.initPromise || c.terminal.isNone }

/-- The modules of the terminal are there: the rest of `createTerminal`. -/
def createTerminal : Option (TerminalController × Bool) :=
  if c.initPromise then
    let c := { c with initPromise := false }
    some (if c.host then { c with terminal := some {} }.flushPendingState else (c, true))
  else none

def detachTerminal : TerminalController :=
  let replica :=
    match c.activeTerminalId with
    | some activeTerminalId =>
      if c.replica.hasPendingSnapshot activeTerminalId then c.replica
      else
        let (current, replica) := c.replica.currentRenderedText
        let range := replica.getLoadedRange
        if current ≠ "" ∨ range.startSeq ≠ none then replica.queueSnapshot activeTerminalId current range.startSeq
        else replica
    | none => c.replica
  { c with replica, terminal := none }

def unmount : TerminalController := { c.detachTerminal with host := false }

/-! ## Redraws -/

/-- Up to the measuring of the page. -/
def prependHistoryPage (page : TerminalHistoryPageRecord) : TerminalController × Option Redraw :=
  if c.terminal.isNone ∨ c.activeTerminalId ≠ some page.terminalId then (c, none)
  else
    let chunk := Utf8.textDecoder page.bytes
    if chunk = "" then (c, none)
    else
      let (previousLiveBuffered, replica) := c.replica.beginRedraw.drainBufferedLiveOutput
      ({ c with replica }, some { previousLiveBuffered, phase := .measuring chunk page.startSeq })

def endRedraw : TerminalController := { c with replica := c.replica.endRedraw }

/-- Behind the measuring, up to the writing; `none` where it has thrown. -/
def measured (chunk : String) (startSeq : Int) (prependedVisibleLines : Nat) : TerminalController × Option RedrawPhase :=
  let c := { c with replica := c.replica.prependHistoryChunk chunk startSeq }
  match c.terminal with
  | none => (c.endRedraw, none)
  | some terminal =>
    let terminal := terminal.reset
    let (text, replica) := c.replica.currentRenderedText
    let scrolls := decide (0 < prependedVisibleLines)
    if text = "" then ({ c with replica, terminal := some terminal }, some (.writing scrolls false))
    else
      match terminal.write text with
      | some terminal => ({ c with replica, terminal := some terminal }, some (.writing scrolls false))
      | none => ({ c with replica, terminal := some terminal }, some (.writing scrolls true))

/-- Behind the writing. -/
def written (previousLiveBuffered : List TerminalReplica.BufferedLiveOutput) : TerminalController :=
  let (buffered, replica) := c.replica.drainBufferedLiveOutput
  match { c with replica }.appendLiveOutputs (previousLiveBuffered ++ buffered) with
  | (c, true) =>
    let (buffered, replica) := c.replica.drainBufferedLiveOutput
    ({ c with replica }.appendLiveOutputs buffered).1.endRedraw
  | (c, false) => c.endRedraw

end TerminalController

/-! ## Terminals that take their output -/

/-- The text of some output. -/
def outputText (outputs : List TerminalReplica.BufferedLiveOutput) : String :=
  String.join (outputs.map TerminalReplica.BufferedLiveOutput.chunk)

theorem outputText_append (outputs more : List TerminalReplica.BufferedLiveOutput) :
    outputText (outputs ++ more) = outputText outputs ++ outputText more := by
  unfold outputText
  rw [List.map_append, String.join_append]

namespace TerminalReplica

/-- Output behind the text. -/
def appendLiveChunks (r : TerminalReplica) (outputs : List TerminalReplica.BufferedLiveOutput) : TerminalReplica :=
  outputs.foldl (fun r output => r.appendLiveChunk output.chunk output.seq) r

theorem appendLiveChunks_cons (r : TerminalReplica) (output : TerminalReplica.BufferedLiveOutput)
    (rest : List TerminalReplica.BufferedLiveOutput) :
    r.appendLiveChunks (output :: rest) = (r.appendLiveChunk output.chunk output.seq).appendLiveChunks rest := rfl

theorem text_appendLiveChunks : ∀ (outputs : List TerminalReplica.BufferedLiveOutput) (r : TerminalReplica),
    (r.appendLiveChunks outputs).text = r.text ++ outputText outputs
  | [], r => String.append_empty.symm
  | output :: rest, r => by
    rw [appendLiveChunks_cons, text_appendLiveChunks rest, text_appendLiveChunk, String.append_assoc]
    congr 1
    unfold outputText
    rw [List.map_cons, String.join_cons]

theorem Coherent.appendLiveChunks : ∀ {outputs : List TerminalReplica.BufferedLiveOutput} {r : TerminalReplica}, r.Coherent →
    (r.appendLiveChunks outputs).Coherent
  | [], _, h => h
  | output :: rest, r, h => by
    rw [appendLiveChunks_cons]
    exact Coherent.appendLiveChunks (h.appendLiveChunk output.chunk output.seq)

/-- The fields that output and pages do not touch. -/
structure SameQueues (r t : TerminalReplica) : Prop where
  pendingSnapshot : t.pendingSnapshot = r.pendingSnapshot
  isRedrawing : t.isRedrawing = r.isRedrawing
  bufferedLiveOutput : t.bufferedLiveOutput = r.bufferedLiveOutput
  pendingDetachedLiveOutput : t.pendingDetachedLiveOutput = r.pendingDetachedLiveOutput

theorem sameQueues_prependHistoryChunk (r : TerminalReplica) (chunk : String) (startSeq : Int) :
    SameQueues r (r.prependHistoryChunk chunk startSeq) := by
  unfold prependHistoryChunk
  split
  · exact ⟨rfl, rfl, rfl, rfl⟩
  · exact ⟨rfl, rfl, rfl, rfl⟩

theorem sameQueues_appendLiveChunk (r : TerminalReplica) (chunk : String) (seq : Int) :
    SameQueues r (r.appendLiveChunk chunk seq) := by
  unfold appendLiveChunk
  split
  · exact ⟨rfl, rfl, rfl, rfl⟩
  · exact ⟨rfl, rfl, rfl, rfl⟩

theorem sameQueues_appendLiveChunks : ∀ (outputs : List TerminalReplica.BufferedLiveOutput) (r : TerminalReplica),
    SameQueues r (r.appendLiveChunks outputs)
  | [], _ => ⟨rfl, rfl, rfl, rfl⟩
  | output :: rest, r => by
    have hfirst := sameQueues_appendLiveChunk r output.chunk output.seq
    have hrest := sameQueues_appendLiveChunks rest (r.appendLiveChunk output.chunk output.seq)
    exact ⟨hrest.pendingSnapshot.trans hfirst.pendingSnapshot, hrest.isRedrawing.trans hfirst.isRedrawing,
      hrest.bufferedLiveOutput.trans hfirst.bufferedLiveOutput,
      hrest.pendingDetachedLiveOutput.trans hfirst.pendingDetachedLiveOutput⟩

end TerminalReplica

namespace TerminalController

variable {c : TerminalController} {terminal : MountedTerminal}

theorem write_of_takes (h : terminal.takes = none) (data : String) :
    terminal.write data = some { terminal with written := terminal.written ++ data } := by
  unfold MountedTerminal.write
  rw [h]

theorem appendLiveOutput_mounted (hterminal : c.terminal = some terminal) (htakes : terminal.takes = none)
    (chunk : String) (seq : Int) : c.appendLiveOutput chunk seq =
      ({ c with
        replica := c.replica.appendLiveChunk chunk seq
        terminal := some { terminal with written := terminal.written ++ chunk } }, true) := by
  unfold appendLiveOutput
  rw [hterminal]
  dsimp only
  rw [write_of_takes htakes]

theorem appendActiveOutput_empty (terminalId : String) (seq : Int) : c.appendActiveOutput terminalId "" seq = (c, true) :=
  if_pos (.inr rfl)

theorem appendActiveOutput_detached {terminalId chunk : String} (hactive : c.activeTerminalId = some terminalId)
    (hchunk : chunk ≠ "") (hterminal : c.terminal = none) (seq : Int) :
    c.appendActiveOutput terminalId chunk seq = ({ c with
      replica := { c.replica with
        pendingDetachedLiveOutput := c.replica.pendingDetachedLiveOutput ++ [⟨seq, chunk⟩] } }, true) := by
  unfold appendActiveOutput TerminalReplica.queueDetachedLiveOutput
  rw [if_neg (by simp [hactive, hchunk]), hterminal]
  dsimp only
  rw [if_neg hchunk]

theorem appendActiveOutput_mounted {terminalId chunk : String} (hactive : c.activeTerminalId = some terminalId)
    (hchunk : chunk ≠ "") (hterminal : c.terminal = some terminal) (htakes : terminal.takes = none)
    (hredrawing : c.replica.isRedrawing = false) (seq : Int) :
    c.appendActiveOutput terminalId chunk seq = ({ c with
      replica := c.replica.appendLiveChunk chunk seq
      terminal := some { terminal with written := terminal.written ++ chunk } }, true) := by
  rw [← appendLiveOutput_mounted hterminal htakes]
  unfold appendActiveOutput
  rw [if_neg (by simp [hactive, hchunk]), hterminal]
  dsimp only
  rw [if_neg (by simp [hredrawing])]

/-- **Output on a terminal that takes it** is behind the text of the replica and of the terminal. -/
theorem appendLiveOutputs_mounted : ∀ {outputs : List TerminalReplica.BufferedLiveOutput} {c : TerminalController}
    {terminal : MountedTerminal}, c.terminal = some terminal → terminal.takes = none → c.appendLiveOutputs outputs =
      ({ c with
        replica := c.replica.appendLiveChunks outputs
        terminal := some { terminal with written := terminal.written ++ outputText outputs } }, true)
  | [], c, terminal, hterminal, _ => by
    have hwritten : terminal.written ++ outputText [] = terminal.written := String.append_empty
    rw [hwritten, ← hterminal]
    rfl
  | output :: rest, c, terminal, hterminal, htakes => by
    unfold appendLiveOutputs
    rw [appendLiveOutput_mounted hterminal htakes]
    dsimp only
    rw [@appendLiveOutputs_mounted rest _ { terminal with written := terminal.written ++ output.chunk } rfl htakes]
    dsimp only
    rw [TerminalReplica.appendLiveChunks_cons, String.append_assoc]
    have htext : outputText (output :: rest) = output.chunk ++ outputText rest := by
      unfold outputText
      rw [List.map_cons, String.join_cons]
    rw [htext]

/-- The replica behind the replay of what has waited for a terminal. -/
def replayed (r : TerminalReplica) : TerminalReplica :=
  { r with pendingDetachedLiveOutput := [] }.appendLiveChunks r.pendingDetachedLiveOutput

theorem replayDetached_mounted (hterminal : c.terminal = some terminal) (htakes : terminal.takes = none) :
    c.replayDetached = ({ c with
      replica := replayed c.replica
      terminal := some { terminal with
        written := terminal.written ++ outputText c.replica.pendingDetachedLiveOutput } }, true) :=
  @appendLiveOutputs_mounted _ { c with replica := { c.replica with pendingDetachedLiveOutput := [] } } terminal hterminal
    htakes

/-- A snapshot takes the place of the text. -/
theorem applySnapshot_mounted {terminalId snapshot : String} {startSeq : Option Int} (hterminal : c.terminal = some terminal)
    (htakes : terminal.takes = none) (hactive : c.activeTerminalId = some terminalId) :
    c.applySnapshot terminalId snapshot startSeq = ({ c with
      replica := replayed (c.replica.setSnapshotContent snapshot startSeq)
      terminal := some { terminal with
        written := snapshot ++ outputText c.replica.pendingDetachedLiveOutput } }, true) := by
  unfold applySnapshot
  rw [hterminal]
  dsimp only
  rw [if_pos hactive]
  split
  · next hempty =>
    rw [@replayDetached_mounted { c with
        replica := c.replica.setSnapshotContent snapshot startSeq
        terminal := some terminal.reset } terminal.reset rfl htakes, hempty]
    rfl
  · rw [@write_of_takes terminal.reset htakes]
    dsimp only
    rw [@replayDetached_mounted { c with
        replica := c.replica.setSnapshotContent snapshot startSeq
        terminal := some { terminal.reset with written := terminal.reset.written ++ snapshot } } _ rfl htakes]
    have hwritten : terminal.reset.written ++ snapshot = snapshot := String.empty_append
    rw [hwritten]
    rfl

/-- Without a terminal on screen nothing is shown. -/
theorem flushPendingState_of_none (h : c.terminal = none ∨ c.activeTerminalId = none) : c.flushPendingState = (c, true) := by
  unfold flushPendingState
  split
  · next hterminal hactive =>
    rcases h with h | h
    · rw [hterminal] at h
      cases h
    · rw [hactive] at h
      cases h
  · rfl

theorem hasPendingSnapshot_iff {r : TerminalReplica} {terminalId : String} : r.hasPendingSnapshot terminalId = true ↔
    ∃ pending, r.pendingSnapshot = some pending ∧ pending.terminalId = terminalId := by
  unfold TerminalReplica.hasPendingSnapshot
  cases r.pendingSnapshot with
  | none => simp
  | some pending => simp

theorem flushPendingState_pending {pending : TerminalReplica.PendingSnapshot} (hterminal : c.terminal = some terminal)
    (htakes : terminal.takes = none) (hactive : c.activeTerminalId = some pending.terminalId)
    (hpending : c.replica.pendingSnapshot = some pending) : c.flushPendingState = ({ c with
      replica := replayed ({ c.replica with pendingSnapshot := none }.setSnapshotContent pending.snapshot pending.startSeq)
      terminal := some { terminal with
        written := pending.snapshot ++ outputText c.replica.pendingDetachedLiveOutput } }, true) := by
  have hhas : c.replica.hasPendingSnapshot pending.terminalId = true := hasPendingSnapshot_iff.mpr ⟨pending, hpending, rfl⟩
  obtain ⟨replica, activeTerminalId, host, initPromise, mounted⟩ := c
  dsimp only at hterminal hactive hpending hhas
  subst hterminal hactive
  unfold flushPendingState TerminalReplica.consumePendingSnapshot
  dsimp only
  rw [if_pos hhas, hpending]
  exact applySnapshot_mounted rfl htakes rfl

theorem flushPendingState_replay {activeTerminalId : String} (hterminal : c.terminal = some terminal)
    (htakes : terminal.takes = none) (hactive : c.activeTerminalId = some activeTerminalId)
    (hpending : c.replica.hasPendingSnapshot activeTerminalId = false) : c.flushPendingState = ({ c with
      replica := replayed c.replica
      terminal := some { terminal with
        written := terminal.written ++ outputText c.replica.pendingDetachedLiveOutput } }, true) := by
  obtain ⟨replica, active, host, initPromise, mounted⟩ := c
  dsimp only at hterminal hactive hpending
  subst hterminal hactive
  unfold flushPendingState TerminalReplica.consumePendingSnapshot
  dsimp only
  rw [if_neg (by simp [hpending])]
  exact replayDetached_mounted rfl htakes

theorem replayed_of_nil {r : TerminalReplica} (h : r.pendingDetachedLiveOutput = []) : replayed r = r := by
  obtain ⟨cache, pages, body, range, pending, redrawing, buffered, detached⟩ := r
  dsimp only at h
  subst h
  rfl

/-- Nothing has waited. -/
theorem flushPendingState_of_idle (h : ∀ terminal activeTerminalId, c.terminal = some terminal →
    c.activeTerminalId = some activeTerminalId → terminal.takes = none ∧
      c.replica.hasPendingSnapshot activeTerminalId = false ∧ c.replica.pendingDetachedLiveOutput = []) :
    c.flushPendingState = (c, true) := by
  cases hterminal : c.terminal with
  | none => exact flushPendingState_of_none (.inl hterminal)
  | some terminal =>
    cases hactive : c.activeTerminalId with
    | none => exact flushPendingState_of_none (.inr hactive)
    | some activeTerminalId =>
      obtain ⟨htakes, hpending, hdetached⟩ := h terminal activeTerminalId hterminal hactive
      have hwritten : terminal.written ++ outputText [] = terminal.written := String.append_empty
      rw [flushPendingState_replay hterminal htakes hactive hpending, replayed_of_nil hdetached, hdetached, hwritten,
        ← hterminal]

/-- What is shown is kept for another terminal, unless a snapshot is. -/
theorem unmount_shown {activeTerminalId : String} (hcoherent : c.replica.Coherent)
    (hactive : c.activeTerminalId = some activeTerminalId)
    (hpending : c.replica.hasPendingSnapshot activeTerminalId = false) :
    c.unmount = { c with
      replica :=
        if c.replica.text ≠ "" ∨ c.replica.loadedRange.startSeq ≠ none then
          { c.replica with renderedTextCache := some c.replica.text }.queueSnapshot activeTerminalId c.replica.text
            c.replica.loadedRange.startSeq
        else { c.replica with renderedTextCache := some c.replica.text }
      terminal := none
      host := false } := by
  unfold unmount detachTerminal
  rw [hactive]
  dsimp only
  rw [if_neg (by simp [hpending]), hcoherent.currentRenderedText]
  rfl

theorem unmount_waiting (h : ∀ activeTerminalId, c.activeTerminalId = some activeTerminalId →
    c.replica.hasPendingSnapshot activeTerminalId = true) : c.unmount = { c with terminal := none, host := false } := by
  unfold unmount detachTerminal
  cases hactive : c.activeTerminalId with
  | none => rfl
  | some activeTerminalId =>
    dsimp only
    rw [if_pos (h activeTerminalId hactive)]

theorem prependHistoryPage_none {page : TerminalHistoryPageRecord}
    (h : c.terminal = none ∨ Utf8.textDecoder page.bytes = "") : c.prependHistoryPage page = (c, none) := by
  unfold prependHistoryPage
  dsimp only
  split
  · rfl
  · next hguard =>
    rcases h with hnone | hempty
    · exact absurd (.inl (Option.isNone_iff_eq_none.mpr hnone)) hguard
    · rw [if_pos hempty]

theorem prependHistoryPage_some {page : TerminalHistoryPageRecord} (hactive : c.activeTerminalId = some page.terminalId)
    (hterminal : c.terminal = some terminal) (hchunk : Utf8.textDecoder page.bytes ≠ "") :
    c.prependHistoryPage page = ({ c with replica := { c.replica with isRedrawing := true, bufferedLiveOutput := [] } },
      some {
        previousLiveBuffered := c.replica.bufferedLiveOutput
        phase := .measuring (Utf8.textDecoder page.bytes) page.startSeq }) := by
  unfold prependHistoryPage
  rw [if_neg (by simp [hactive, hterminal])]
  dsimp only
  rw [if_neg hchunk]
  rfl

/-- Everything is written again. -/
theorem measured_mounted {chunk : String} {startSeq : Int} {lines : Nat} (hcoherent : c.replica.Coherent)
    (hterminal : c.terminal = some terminal) (htakes : terminal.takes = none) :
    c.measured chunk startSeq lines = ({ c with
      replica := { c.replica.prependHistoryChunk chunk startSeq with
        renderedTextCache := some (chunk ++ c.replica.text) }
      terminal := some { terminal with written := chunk ++ c.replica.text } },
      some (.writing (decide (0 < lines)) false)) := by
  unfold measured
  dsimp only
  rw [hterminal, (hcoherent.prependHistoryChunk chunk startSeq).currentRenderedText,
    TerminalReplica.text_prependHistoryChunk]
  dsimp only
  split
  · next hempty =>
    rw [hempty]
    rfl
  · rw [@write_of_takes terminal.reset htakes]
    dsimp only
    have hwritten : terminal.reset.written ++ (chunk ++ c.replica.text) = chunk ++ c.replica.text := String.empty_append
    rw [hwritten]
    rfl

/-- What has been held back comes out. -/
theorem written_mounted {previous : List TerminalReplica.BufferedLiveOutput} (hterminal : c.terminal = some terminal)
    (htakes : terminal.takes = none) : c.written previous = { c with
      replica := {
        { c.replica with bufferedLiveOutput := [] }.appendLiveChunks (previous ++ c.replica.bufferedLiveOutput) with
        isRedrawing := false
        bufferedLiveOutput := [] }
      terminal := some { terminal with
        written := terminal.written ++ outputText (previous ++ c.replica.bufferedLiveOutput) } } := by
  unfold written
  have hfirst := @appendLiveOutputs_mounted (previous ++ c.replica.bufferedLiveOutput)
    { c with replica := { c.replica with bufferedLiveOutput := [] } } terminal hterminal htakes
  have hsame := TerminalReplica.sameQueues_appendLiveChunks (previous ++ c.replica.bufferedLiveOutput)
    { c.replica with bufferedLiveOutput := [] }
  unfold TerminalReplica.drainBufferedLiveOutput
  dsimp only
  rw [hfirst]
  dsimp only
  rw [hsame.bufferedLiveOutput]
  rfl

theorem text_replayed (r : TerminalReplica) : (replayed r).text = r.text ++ outputText r.pendingDetachedLiveOutput :=
  TerminalReplica.text_appendLiveChunks _ _

theorem coherent_replayed {r : TerminalReplica} (h : r.Coherent) : (replayed r).Coherent :=
  TerminalReplica.Coherent.appendLiveChunks (r := { r with pendingDetachedLiveOutput := [] }) h

theorem sameQueues_replayed (r : TerminalReplica) :
    TerminalReplica.SameQueues { r with pendingDetachedLiveOutput := [] } (replayed r) :=
  TerminalReplica.sameQueues_appendLiveChunks _ _

end TerminalController

end CliPocket.App
