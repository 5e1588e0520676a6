import CliPocket.App.TerminalController
import CliPocket.Lib.Steps

/-!
# Redraws

To put an older page in front, the controller measures it, writes everything again and then lets out the output that has
come in meanwhile. Other calls come in between, for there is an await behind the measuring and one behind the writing.

- `Canvas.step`: a call on the controller, or a redraw that goes on;
- `Canvas.expected`: the pages, the snapshot and the output of the terminal on screen;
- `Canvas.Calm`: nothing but output disturbs a redraw, and nothing throws;
- `shows_everything`: **then the replica and the mounted terminal show all of it**, and nothing looks at a terminal that
  is gone.
-/

namespace CliPocket.App

open Steps (run Meets)

/-- The controller and the redraws that have begun. The code does not keep the last four: what has come in for the
terminal on screen, from the oldest on, and whether a call has looked at a terminal that is gone. -/
structure Canvas where
  controller : TerminalController := {}
  redraws : List Redraw := []
  /-- Beside each page its terminal. -/
  pages : List (String × String) := []
  snapshot : String := ""
  lives : List TerminalReplica.BufferedLiveOutput := []
  dereferenced : Bool := false
  deriving DecidableEq

inductive CanvasMove
  /-- From now on the terminal takes so many writes, or all. -/
  | strain (takes : Option Nat)
  | mount
  | createTerminal
  /-- The modules of the terminal could not be loaded. -/
  | createFails
  | unmount
  | reset
  | setActiveTerminal (terminalId : Option String)
  | renderSnapshot (terminalId snapshot : String) (startSeq : Option Int)
  | appendActiveOutput (terminalId chunk : String) (seq : Int)
  | prependHistoryPage (page : TerminalHistoryPageRecord)
  /-- The page of redraw `i` has been measured. -/
  | measured (i : Nat) (prependedVisibleLines : Nat)
  | measureFails (i : Nat)
  | written (i : Nat)

namespace Canvas

/-- The text of the pages. -/
def pageText (pages : List (String × String)) : String := String.join (pages.map Prod.snd)

/-- The text that is to be shown. -/
def expected (s : Canvas) : String := pageText s.pages ++ s.snapshot ++ outputText s.lives

/-- Nothing is redrawn. -/
def Idle (s : Canvas) : Prop := ∀ redraw ∈ s.redraws, redraw.phase = .over

instance (s : Canvas) : Decidable s.Idle := inferInstanceAs (Decidable (∀ redraw ∈ s.redraws, redraw.phase = .over))

def strain (s : Canvas) (takes : Option Nat) : Canvas :=
  { s with controller := { s.controller with terminal := s.controller.terminal.map ({ · with takes }) } }

def reset (s : Canvas) : Canvas :=
  { s with controller := s.controller.reset, pages := [], snapshot := "", lives := [] }

/-- The snapshot that waits for a terminal. -/
def waiting (s : Canvas) (terminalId : Option String) : String :=
  match s.controller.replica.pendingSnapshot with
  | some pending => if some pending.terminalId = terminalId then pending.snapshot else ""
  | none => ""

/-- Of another terminal there is the snapshot that waits for it. -/
def setActiveTerminal (s : Canvas) (terminalId : Option String) : Canvas :=
  let controller := (s.controller.setActiveTerminal terminalId).1
  if s.controller.activeTerminalId = terminalId then { s with controller }
  else { s with controller, pages := [], snapshot := s.waiting terminalId, lives := [] }

/-- A snapshot takes the place of all that has been shown; what has not been shown yet comes behind it. -/
def renderSnapshot (s : Canvas) (terminalId snapshot : String) (startSeq : Option Int) : Canvas :=
  let controller := (s.controller.renderSnapshot terminalId snapshot startSeq).1
  if s.controller.activeTerminalId = some terminalId then
    { s with controller, pages := [], snapshot, lives := s.controller.replica.pendingDetachedLiveOutput }
  else { s with controller }

def appendActiveOutput (s : Canvas) (terminalId chunk : String) (seq : Int) : Canvas :=
  let controller := (s.controller.appendActiveOutput terminalId chunk seq).1
  if s.controller.activeTerminalId = some terminalId ∧ chunk ≠ "" then
    { s with controller, lives := Ordered.insert TerminalReplica.BufferedLiveOutput.seq { seq, chunk } s.lives }
  else { s with controller }

def prependHistoryPage (s : Canvas) (page : TerminalHistoryPageRecord) : Canvas :=
  match s.controller.prependHistoryPage page with
  | (controller, some redraw) =>
    { s with
      controller
      redraws := s.redraws ++ [redraw]
      pages := (page.terminalId, Utf8.textDecoder page.bytes) :: s.pages }
  | (controller, none) => { s with controller }

def measured (s : Canvas) (i prependedVisibleLines : Nat) : Option Canvas :=
  match s.redraws[i]? with
  | some { previousLiveBuffered, phase := .measuring chunk startSeq } =>
    match s.controller.measured chunk startSeq prependedVisibleLines with
    | (controller, some phase) =>
      some { s with controller, redraws := s.redraws.set i { previousLiveBuffered, phase } }
    | (controller, none) =>
      some { s with
        controller, redraws := s.redraws.set i { previousLiveBuffered, phase := .over }, dereferenced := true }
  | _ => none

/-- Without a page and a terminal the measuring looks at what is gone. -/
def measureFails (s : Canvas) (i : Nat) : Option Canvas :=
  match s.redraws[i]? with
  | some { previousLiveBuffered, phase := .measuring _ _ } =>
    some { s with
      controller := s.controller.endRedraw
      redraws := s.redraws.set i { previousLiveBuffered, phase := .over }
      dereferenced := s.dereferenced || s.controller.terminal.isNone || !s.controller.host }
  | _ => none

def written (s : Canvas) (i : Nat) : Option Canvas :=
  match s.redraws[i]? with
  | some { previousLiveBuffered, phase := .writing scrolls thrown } =>
    let redraws := s.redraws.set i { previousLiveBuffered, phase := .over }
    if thrown then some { s with controller := s.controller.endRedraw, redraws }
    else if scrolls && s.controller.terminal.isNone then
      some { s with controller := s.controller.endRedraw, redraws, dereferenced := true }
    else some { s with controller := s.controller.written previousLiveBuffered, redraws }
  | _ => none

def step (s : Canvas) : CanvasMove → Option Canvas
  | .strain takes => some (s.strain takes)
  | .mount => some { s with controller := s.controller.mount }
  | .createTerminal => s.controller.createTerminal.map fun (controller, _) => { s with controller }
  | .createFails => some { s with controller := { s.controller with initPromise := false } }
  | .unmount => some { s with controller := s.controller.unmount }
  | .reset => some s.reset
  | .setActiveTerminal terminalId => some (s.setActiveTerminal terminalId)
  | .renderSnapshot terminalId snapshot startSeq => some (s.renderSnapshot terminalId snapshot startSeq)
  | .appendActiveOutput terminalId chunk seq => some (s.appendActiveOutput terminalId chunk seq)
  | .prependHistoryPage page => some (s.prependHistoryPage page)
  | .measured i prependedVisibleLines => s.measured i prependedVisibleLines
  | .measureFails i => s.measureFails i
  | .written i => s.written i

/-- The output that is not held back for a redraw. -/
def drawn (s : Canvas) : List TerminalReplica.BufferedLiveOutput :=
  s.lives.take (s.lives.length - s.controller.replica.bufferedLiveOutput.length)

/-! ## What is to be shown -/

/-- **Everything is shown**, where nothing is redrawn: each page of the terminal on screen, its snapshot and its output,
once and in order. Meanwhile output is shown or held back; and nothing has looked at a terminal that is gone. -/
structure ShowsEverything (s : Canvas) : Prop where
  text : s.Idle → ∀ terminal, s.controller.terminal = some terminal → s.controller.activeTerminalId ≠ none →
    s.controller.replica.currentRenderedText.1 = s.expected ∧ terminal.written = s.expected
  own : ∀ page ∈ s.pages, s.controller.activeTerminalId = some page.1
  sorted : s.lives.Pairwise (·.seq ≤ ·.seq)
  kept : ∀ terminal, s.controller.terminal = some terminal → s.controller.activeTerminalId ≠ none →
    s.lives = s.drawn ++ s.controller.replica.bufferedLiveOutput ∧
      ∃ front, s.controller.replica.currentRenderedText.1 = front ++ s.snapshot ++ outputText s.drawn
  dereferenced : s.dereferenced = false

/-- No write and no measuring throws, at any time. While something is redrawn, output comes in and nothing else changes
what is shown: there is no other snapshot, page or terminal. Output comes in behind what is shown; and another terminal
comes on screen when nothing is shown, or with a snapshot. -/
def Calm (s : Canvas) : CanvasMove → Prop
  | .strain takes => takes = none
  | .unmount | .reset => s.Idle
  | .setActiveTerminal none => s.controller.activeTerminalId = none ∨ s.Idle
  | .setActiveTerminal (some terminalId) => s.controller.activeTerminalId = some terminalId ∨
    s.Idle ∧ s.controller.replica.pendingDetachedLiveOutput = [] ∧
      (s.controller.replica.hasPendingSnapshot terminalId ∨ s.controller.replica.text = "")
  | .renderSnapshot terminalId _ _ =>
    if s.controller.activeTerminalId = some terminalId then s.Idle
    else s.controller.activeTerminalId.all fun activeTerminalId => !s.controller.replica.hasPendingSnapshot activeTerminalId
  | .appendActiveOutput terminalId chunk seq =>
    s.controller.activeTerminalId = some terminalId → chunk ≠ "" → ∀ output ∈ s.drawn, output.seq ≤ seq
  | .prependHistoryPage page => s.controller.activeTerminalId = some page.terminalId → s.Idle
  | .measureFails _ => False
  | .mount | .createTerminal | .createFails | .measured _ _ | .written _ => True

instance (s : Canvas) : (move : CanvasMove) → Decidable (Calm s move)
  | .strain takes => inferInstanceAs (Decidable (takes = none))
  | .unmount | .reset => inferInstanceAs (Decidable s.Idle)
  | .setActiveTerminal none => inferInstanceAs (Decidable (s.controller.activeTerminalId = none ∨ s.Idle))
  | .setActiveTerminal (some terminalId) => inferInstanceAs (Decidable (s.controller.activeTerminalId = some terminalId ∨
    s.Idle ∧ s.controller.replica.pendingDetachedLiveOutput = [] ∧
      (s.controller.replica.hasPendingSnapshot terminalId ∨ s.controller.replica.text = "")))
  | .renderSnapshot terminalId _ _ =>
    inferInstanceAs (Decidable (if s.controller.activeTerminalId = some terminalId then s.Idle
    else s.controller.activeTerminalId.all fun activeTerminalId => !s.controller.replica.hasPendingSnapshot activeTerminalId))
  | .appendActiveOutput terminalId chunk seq => inferInstanceAs (Decidable (
    s.controller.activeTerminalId = some terminalId → chunk ≠ "" → ∀ output ∈ s.drawn, output.seq ≤ seq))
  | .prependHistoryPage page => inferInstanceAs (Decidable (s.controller.activeTerminalId = some page.terminalId → s.Idle))
  | .measureFails _ => isFalse id
  | .mount | .createTerminal | .createFails | .measured _ _ | .written _ => isTrue trivial

/-- What waits for a terminal: a snapshot and output behind it, or output alone. -/
def Waits (s : Canvas) (terminalId : String) : Prop :=
  (∃ before, s.lives = before ++ s.controller.replica.pendingDetachedLiveOutput) ∧
    ((∃ pending, s.controller.replica.pendingSnapshot = some pending ∧ pending.terminalId = terminalId ∧
        pending.snapshot ++ outputText s.controller.replica.pendingDetachedLiveOutput = s.expected) ∨
      s.controller.replica.hasPendingSnapshot terminalId = false ∧ s.controller.replica.text = "" ∧
        outputText s.controller.replica.pendingDetachedLiveOutput = s.expected)

/-- How far a redraw is. -/
def Progress (s : Canvas) (terminalId : String) (terminal : MountedTerminal) (output : String) : RedrawPhase → Prop
  | .measuring chunk _ => ∃ rest, s.pages = (terminalId, chunk) :: rest ∧
    s.controller.replica.text = pageText rest ++ s.snapshot ++ output
  | .writing _ thrown => thrown = false ∧ s.controller.replica.text = pageText s.pages ++ s.snapshot ++ output ∧
    terminal.written = s.controller.replica.text
  | .over => False

/-- One redraw, the last that has begun. -/
def Redraws (s : Canvas) (terminalId : String) (terminal : MountedTerminal) : Prop :=
  ∃ done phase output, s.redraws = done ++ [{ previousLiveBuffered := [], phase }] ∧ (∀ redraw ∈ done, redraw.phase = .over) ∧
    s.controller.replica.isRedrawing = true ∧ s.lives = output ++ s.controller.replica.bufferedLiveOutput ∧
      s.Progress terminalId terminal (outputText output) phase

/-- Everything is shown. -/
def Shows (s : Canvas) (terminal : MountedTerminal) : Prop :=
  s.controller.replica.text = s.expected ∧ terminal.written = s.expected

/-- What no call breaks, wherever it comes in. -/
structure Sound (s : Canvas) : Prop where
  coherent : s.controller.replica.Coherent
  own : ∀ page ∈ s.pages, s.controller.activeTerminalId = some page.1
  sorted : s.lives.Pairwise (·.seq ≤ ·.seq)
  dereferenced : s.dereferenced = false

/-- **The invariant.** -/
structure Consistent (s : Canvas) : Prop extends Sound s where
  initPromise : s.controller.initPromise = true → s.controller.terminal = none
  takes : ∀ terminal, s.controller.terminal = some terminal → terminal.takes = none
  quiet : s.Idle → s.controller.replica.isRedrawing = false ∧ s.controller.replica.bufferedLiveOutput = []
  unmounted : s.controller.terminal = none →
    s.Idle ∧ ∀ terminalId, s.controller.activeTerminalId = some terminalId → s.Waits terminalId
  blank : ∀ terminal, s.controller.terminal = some terminal → s.controller.activeTerminalId = none →
    s.Idle ∧ (terminal.written = "" ∨ terminal.written = s.controller.replica.text)
  mounted : ∀ terminal terminalId, s.controller.terminal = some terminal →
    s.controller.activeTerminalId = some terminalId →
      s.controller.replica.hasPendingSnapshot terminalId = false ∧
        s.controller.replica.pendingDetachedLiveOutput = [] ∧
          (s.Idle ∧ s.Shows terminal ∨ s.Redraws terminalId terminal)

/-! ## States -/

section States

variable {s : Canvas} {terminal : MountedTerminal} {terminalId : String}

/-- There is no terminal. -/
theorem Sound.unmounted (h : s.Sound) (hterminal : s.controller.terminal = none) (hidle : s.Idle)
    (hquiet : s.controller.replica.isRedrawing = false ∧ s.controller.replica.bufferedLiveOutput = [])
    (hwaits : ∀ terminalId, s.controller.activeTerminalId = some terminalId → s.Waits terminalId) : s.Consistent where
  toSound := h
  initPromise _ := hterminal
  takes terminal ht := by
    rw [hterminal] at ht
    cases ht
  quiet _ := hquiet
  unmounted _ := ⟨hidle, hwaits⟩
  blank terminal ht := by
    rw [hterminal] at ht
    cases ht
  mounted terminal _ ht := by
    rw [hterminal] at ht
    cases ht

/-- No terminal is on screen. -/
theorem Sound.blank (h : s.Sound) (hterminal : s.controller.terminal = some terminal) (htakes : terminal.takes = none)
    (hinit : s.controller.initPromise = false) (hactive : s.controller.activeTerminalId = none) (hidle : s.Idle)
    (hquiet : s.controller.replica.isRedrawing = false ∧ s.controller.replica.bufferedLiveOutput = [])
    (hwritten : terminal.written = "" ∨ terminal.written = s.controller.replica.text) : s.Consistent where
  toSound := h
  initPromise hi := by
    rw [hinit] at hi
    cases hi
  takes other ht := by
    rw [hterminal] at ht
    cases ht
    exact htakes
  quiet _ := hquiet
  unmounted hnone := by
    rw [hterminal] at hnone
    cases hnone
  blank other ht _ := by
    rw [hterminal] at ht
    cases ht
    exact ⟨hidle, hwritten⟩
  mounted _ _ _ ha := by
    rw [hactive] at ha
    cases ha

/-- A terminal is on screen. -/
theorem Sound.mounted (h : s.Sound) (hterminal : s.controller.terminal = some terminal) (htakes : terminal.takes = none)
    (hinit : s.controller.initPromise = false) (hactive : s.controller.activeTerminalId = some terminalId)
    (hpending : s.controller.replica.hasPendingSnapshot terminalId = false)
    (hdetached : s.controller.replica.pendingDetachedLiveOutput = [])
    (hquiet : s.Idle → s.controller.replica.isRedrawing = false ∧ s.controller.replica.bufferedLiveOutput = [])
    (hshows : s.Idle ∧ s.Shows terminal ∨ s.Redraws terminalId terminal) : s.Consistent where
  toSound := h
  initPromise hi := by
    rw [hinit] at hi
    cases hi
  takes other ht := by
    rw [hterminal] at ht
    cases ht
    exact htakes
  quiet := hquiet
  unmounted hnone := by
    rw [hterminal] at hnone
    cases hnone
  blank _ _ ha := by
    rw [hactive] at ha
    cases ha
  mounted other otherId ht ha := by
    rw [hterminal] at ht
    rw [hactive] at ha
    cases ht
    cases ha
    exact ⟨hpending, hdetached, hshows⟩

/-- A terminal is not made beside another one. -/
theorem Consistent.notMade (h : s.Consistent) (hterminal : s.controller.terminal = some terminal) :
    s.controller.initPromise = false := by
  cases hinit : s.controller.initPromise with
  | false => rfl
  | true =>
    have hnone := h.initPromise hinit
    rw [hterminal] at hnone
    cases hnone

/-- Nothing waits for a terminal that is there. -/
theorem Consistent.flush (h : s.Consistent) : s.controller.flushPendingState = (s.controller, true) := by
  apply TerminalController.flushPendingState_of_idle
  intro terminal activeTerminalId hterminal hactive
  obtain ⟨hpending, hdetached, -⟩ := h.mounted terminal activeTerminalId hterminal hactive
  exact ⟨h.takes terminal hterminal, hpending, hdetached⟩

/-- What has waited is shown on a new terminal, or on one on which nothing has been. -/
theorem Sound.flushed (h : s.Sound) (hterminal : s.controller.terminal = some terminal) (htakes : terminal.takes = none)
    (hinit : s.controller.initPromise = false) (hactive : s.controller.activeTerminalId = some terminalId)
    (hidle : s.Idle)
    (hquiet : s.controller.replica.isRedrawing = false ∧ s.controller.replica.bufferedLiveOutput = [])
    (hwaits : s.Waits terminalId) (hwritten : s.controller.replica.hasPendingSnapshot terminalId = false →
      terminal.written = "") : Consistent { s with controller := s.controller.flushPendingState.1 } := by
  obtain ⟨-, hwaits⟩ := hwaits
  rcases hwaits with ⟨pending, hpending, rfl, htext⟩ | ⟨hpending, hempty, htext⟩
  · rw [TerminalController.flushPendingState_pending hterminal htakes hactive hpending]
    set r := TerminalReplica.setSnapshotContent { s.controller.replica with pendingSnapshot := none } pending.snapshot
      pending.startSeq with hr
    have hsame := TerminalController.sameQueues_replayed r
    refine @Sound.mounted _ _ pending.terminalId ⟨?_, h.own, h.sorted, h.dereferenced⟩ rfl htakes hinit hactive
      ?_ hsame.pendingDetachedLiveOutput (fun _ => ?_) (.inl ⟨hidle, ?_, htext⟩)
    · exact TerminalController.coherent_replayed (TerminalReplica.coherent_setSnapshotContent _ _)
    · unfold TerminalReplica.hasPendingSnapshot
      rw [hsame.pendingSnapshot]
      rfl
    · exact ⟨hsame.isRedrawing.trans hquiet.1, hsame.bufferedLiveOutput.trans hquiet.2⟩
    · show (TerminalController.replayed r).text = _
      rw [TerminalController.text_replayed, hr, TerminalReplica.text_setSnapshotContent]
      exact htext
  · rw [TerminalController.flushPendingState_replay hterminal htakes hactive hpending]
    have hsame := TerminalController.sameQueues_replayed s.controller.replica
    refine @Sound.mounted _ _ terminalId ⟨?_, h.own, h.sorted, h.dereferenced⟩ rfl htakes hinit hactive
      ?_ hsame.pendingDetachedLiveOutput (fun _ => ?_) (.inl ⟨hidle, ?_, ?_⟩)
    · exact TerminalController.coherent_replayed h.coherent
    · unfold TerminalReplica.hasPendingSnapshot
      rw [hsame.pendingSnapshot]
      exact hpending
    · exact ⟨hsame.isRedrawing.trans hquiet.1, hsame.bufferedLiveOutput.trans hquiet.2⟩
    · show (TerminalController.replayed s.controller.replica).text = _
      rw [TerminalController.text_replayed, hempty, String.empty_append]
      exact htext
    · show terminal.written ++ outputText s.controller.replica.pendingDetachedLiveOutput = _
      rw [hwritten hpending, String.empty_append]
      exact htext

end States

/-! ## Steps -/

section Steps

variable {s t : Canvas}

/-- Terminals keep taking all writes. -/
theorem Consistent.strain (h : s.Consistent) : s.strain none = s := by
  have hterminal : s.controller.terminal.map ({ · with takes := none }) = s.controller.terminal := by
    cases hterminal : s.controller.terminal with
    | none => rfl
    | some terminal =>
      have htakes := h.takes terminal hterminal
      rw [Option.map_some, ← htakes]
  unfold Canvas.strain
  rw [hterminal]

theorem Consistent.mount (h : s.Consistent) : Consistent { s with controller := s.controller.mount } where
  coherent := h.coherent
  own := h.own
  sorted := h.sorted
  dereferenced := h.dereferenced
  initPromise hinit := by
    rcases Bool.or_eq_true_iff.mp hinit with hinit | hnone
    · exact h.initPromise hinit
    · exact Option.isNone_iff_eq_none.mp hnone
  takes := h.takes
  quiet := h.quiet
  unmounted := h.unmounted
  blank := h.blank
  mounted := h.mounted

theorem Consistent.createFails (h : s.Consistent) :
    Consistent { s with controller := { s.controller with initPromise := false } } where
  coherent := h.coherent
  own := h.own
  sorted := h.sorted
  dereferenced := h.dereferenced
  initPromise hinit := by cases hinit
  takes := h.takes
  quiet := h.quiet
  unmounted := h.unmounted
  blank := h.blank
  mounted := h.mounted

/-- The terminal is there. -/
theorem Consistent.createTerminal (h : s.Consistent) {created : TerminalController × Bool}
    (hs : s.controller.createTerminal = some created) : Consistent { s with controller := created.1 } := by
  unfold TerminalController.createTerminal at hs
  split at hs
  · next hinit =>
    obtain ⟨hidle, hwaits⟩ := h.unmounted (h.initPromise hinit)
    have hquiet := h.quiet hidle
    dsimp only at hs
    split at hs
    · cases hs
      have hsound : Sound { s with controller := { s.controller with initPromise := false, terminal := some {} } } :=
        ⟨h.coherent, h.own, h.sorted, h.dereferenced⟩
      rcases Option.eq_none_or_eq_some s.controller.activeTerminalId with hactive | ⟨terminalId, hactive⟩
      · rw [@TerminalController.flushPendingState_of_none { s.controller with initPromise := false, terminal := some {} }
          (.inr hactive)]
        exact hsound.blank rfl rfl rfl hactive hidle hquiet (.inl rfl)
      · exact hsound.flushed rfl rfl rfl hactive hidle hquiet (hwaits terminalId hactive) fun _ => rfl
    · cases hs
      exact h.createFails
  · cases hs

/-- What is shown waits for another terminal. -/
theorem Consistent.unmount (h : s.Consistent) (hidle : s.Idle) :
    Consistent { s with controller := s.controller.unmount } := by
  have hquiet := h.quiet hidle
  cases hactive : s.controller.activeTerminalId with
  | none =>
    rw [TerminalController.unmount_waiting (by simp [hactive])]
    refine Sound.unmounted ⟨h.coherent, h.own, h.sorted, h.dereferenced⟩ rfl hidle hquiet fun terminalId ha => ?_
    replace ha : s.controller.activeTerminalId = some terminalId := ha
    rw [hactive] at ha
    cases ha
  | some terminalId =>
    cases hpending : s.controller.replica.hasPendingSnapshot terminalId with
    | true =>
      have hwaiting : ∀ activeTerminalId, s.controller.activeTerminalId = some activeTerminalId →
          s.controller.replica.hasPendingSnapshot activeTerminalId = true := by
        intro activeTerminalId ha
        rw [hactive] at ha
        cases ha
        exact hpending
      rw [TerminalController.unmount_waiting hwaiting]
      refine Sound.unmounted ⟨h.coherent, h.own, h.sorted, h.dereferenced⟩ rfl hidle hquiet fun otherId ha => ?_
      cases hterminal : s.controller.terminal with
      | none => exact (h.unmounted hterminal).2 otherId ha
      | some terminal =>
        have hnone := (h.mounted terminal otherId hterminal ha).1
        rw [hwaiting otherId ha] at hnone
        cases hnone
    | false =>
      have hshown : s.controller.replica.text ++ outputText s.controller.replica.pendingDetachedLiveOutput = s.expected ∧
          ∃ before, s.lives = before ++ s.controller.replica.pendingDetachedLiveOutput := by
        cases hterminal : s.controller.terminal with
        | none =>
          obtain ⟨hlives, ⟨pending, hsome, hid, -⟩ | ⟨-, hempty, htext⟩⟩ := (h.unmounted hterminal).2 terminalId hactive
          · have hhas := TerminalController.hasPendingSnapshot_iff.mpr ⟨pending, hsome, hid⟩
            rw [hpending] at hhas
            cases hhas
          · rw [hempty, String.empty_append]
            exact ⟨htext, hlives⟩
        | some terminal =>
          obtain ⟨-, hdetached, hshows⟩ := h.mounted terminal terminalId hterminal hactive
          rw [hdetached]
          have hshows' : s.Shows terminal := by
            rcases hshows with hshows | ⟨done, phase, output, hredraws, -, -, -, hprogress⟩
            · exact hshows.2
            · have hphase := hidle _ (hredraws ▸ List.mem_append_right done (List.mem_singleton.mpr rfl))
              dsimp only at hphase
              subst hphase
              exact hprogress.elim
          exact ⟨(String.append_empty).trans hshows'.1, s.lives, (List.append_nil _).symm⟩
      rw [TerminalController.unmount_shown h.coherent hactive hpending]
      split
      · refine Sound.unmounted ⟨TerminalReplica.coherent_cached _, h.own, h.sorted, h.dereferenced⟩ rfl hidle hquiet
          fun otherId ha => ⟨hshown.2, .inl ⟨_, rfl, ?_, hshown.1⟩⟩
        exact Option.some.inj (hactive.symm.trans ha)
      · next hempty =>
        have htext : s.controller.replica.text = "" := by
          by_contra hne
          exact hempty (.inl hne)
        refine Sound.unmounted ⟨TerminalReplica.coherent_cached _, h.own, h.sorted, h.dereferenced⟩ rfl hidle hquiet
          fun otherId ha => ⟨hshown.2, .inr ⟨?_, htext, ?_⟩⟩
        · cases hactive.symm.trans ha
          exact hpending
        · have hall := hshown.1
          rw [htext, String.empty_append] at hall
          exact hall

theorem Consistent.reset (h : s.Consistent) (hidle : s.Idle) : s.reset.Consistent := by
  have hsound : Sound s.reset :=
    ⟨TerminalReplica.coherent_initial, fun _ hp => (by cases hp), List.Pairwise.nil, h.dereferenced⟩
  cases hterminal : s.controller.terminal with
  | none =>
    apply hsound.unmounted
    · show s.controller.terminal.map MountedTerminal.reset = none
      rw [hterminal]
      rfl
    · exact hidle
    · exact ⟨rfl, rfl⟩
    · nofun
  | some terminal =>
    refine @Sound.blank _ terminal.reset hsound ?_ (h.takes terminal hterminal) (h.notMade hterminal) rfl hidle
      ⟨rfl, rfl⟩ (.inl rfl)
    show s.controller.terminal.map MountedTerminal.reset = _
    rw [hterminal]
    rfl

theorem pageText_nil : pageText [] = "" := String.join_nil

theorem outputText_nil : outputText [] = "" := String.join_nil

/-- Where nothing is redrawn, the terminal shows the text or nothing. -/
theorem Consistent.written_of_idle (h : s.Consistent) (hidle : s.Idle) {terminal : MountedTerminal}
    (hterminal : s.controller.terminal = some terminal) :
    terminal.written = "" ∨ terminal.written = s.controller.replica.text := by
  rcases Option.eq_none_or_eq_some s.controller.activeTerminalId with hactive | ⟨terminalId, hactive⟩
  · exact (h.blank terminal hterminal hactive).2
  · obtain ⟨-, -, ⟨-, htext, hwritten⟩ | ⟨done, phase, output, hredraws, -, -, -, hprogress⟩⟩ :=
      h.mounted terminal terminalId hterminal hactive
    · exact .inr (hwritten.trans htext.symm)
    · have hphase := hidle _ (hredraws ▸ List.mem_append_right done (List.mem_singleton.mpr rfl))
      dsimp only at hphase
      subst hphase
      exact hprogress.elim

/-- Another terminal comes on screen. -/
theorem Consistent.setActiveTerminal (h : s.Consistent) {terminalId : Option String}
    (hc : s.Calm (.setActiveTerminal terminalId)) : (s.setActiveTerminal terminalId).Consistent := by
  unfold Canvas.setActiveTerminal TerminalController.setActiveTerminal
  dsimp only
  split
  · next hsame =>
    rw [← hsame, h.flush]
    exact h
  · next hother =>
    have hidle : s.Idle := by
      cases terminalId with
      | none => exact hc.resolve_left hother
      | some terminalId => exact (hc.resolve_left hother).1
    have hquiet := h.quiet hidle
    have hsound : Sound { s with
        controller := { s.controller with activeTerminalId := terminalId }
        pages := []
        snapshot := s.waiting terminalId
        lives := [] } := ⟨h.coherent, fun _ hp => (by cases hp), List.Pairwise.nil, h.dereferenced⟩
    cases terminalId with
    | none =>
      rw [@TerminalController.flushPendingState_of_none { s.controller with activeTerminalId := none } (.inr rfl)]
      rcases Option.eq_none_or_eq_some s.controller.terminal with hterminal | ⟨terminal, hterminal⟩
      · exact hsound.unmounted hterminal hidle hquiet fun _ ha => (by cases ha)
      · exact hsound.blank hterminal (h.takes terminal hterminal) (h.notMade hterminal) rfl hidle hquiet
          (h.written_of_idle hidle hterminal)
    | some terminalId =>
      obtain ⟨-, hdetached, hwaiting⟩ := hc.resolve_left hother
      have hwaits : Waits { s with
          controller := { s.controller with activeTerminalId := some terminalId }
          pages := []
          snapshot := s.waiting (some terminalId)
          lives := [] } terminalId := by
        refine ⟨⟨[], hdetached.symm⟩, ?_⟩
        cases hpending : s.controller.replica.hasPendingSnapshot terminalId with
        | true =>
          obtain ⟨pending, hsome, rfl⟩ := TerminalController.hasPendingSnapshot_iff.mp hpending
          refine .inl ⟨pending, hsome, rfl, ?_⟩
          show _ = pageText [] ++ s.waiting (some pending.terminalId) ++ outputText []
          unfold waiting
          rw [hsome, hdetached, pageText_nil, String.empty_append]
          dsimp only
          rw [if_pos rfl]
        | false =>
          have hempty := hwaiting.resolve_left (by simp [hpending])
          refine .inr ⟨rfl, hempty, ?_⟩
          have hnone : s.waiting (some terminalId) = "" := by
            unfold waiting
            split
            · next pending hsome =>
              rw [if_neg]
              intro hid
              have hhas := TerminalController.hasPendingSnapshot_iff.mpr ⟨pending, hsome, Option.some.inj hid⟩
              rw [hpending] at hhas
              cases hhas
            · rfl
          show _ = pageText [] ++ s.waiting (some terminalId) ++ outputText []
          rw [hnone, hdetached, pageText_nil, outputText_nil]
          rfl
      rcases Option.eq_none_or_eq_some s.controller.terminal with hterminal | ⟨terminal, hterminal⟩
      · rw [@TerminalController.flushPendingState_of_none { s.controller with activeTerminalId := some terminalId }
          (.inl hterminal)]
        refine hsound.unmounted hterminal hidle hquiet fun otherId ha => ?_
        cases ha
        exact hwaits
      · refine hsound.flushed hterminal (h.takes terminal hterminal) (h.notMade hterminal) rfl hidle hquiet hwaits
          fun hnone => ?_
        have hempty : s.controller.replica.text = "" := by
          refine hwaiting.resolve_left fun hpending => ?_
          rw [show s.controller.replica.hasPendingSnapshot terminalId = false from hnone] at hpending
          cases hpending
        rcases h.written_of_idle hidle hterminal with hwritten | hwritten
        · exact hwritten
        · exact hwritten.trans hempty

/-- A snapshot comes in. -/
theorem Consistent.renderSnapshot (h : s.Consistent) {terminalId snapshot : String} {startSeq : Option Int}
    (hc : s.Calm (.renderSnapshot terminalId snapshot startSeq)) :
    (s.renderSnapshot terminalId snapshot startSeq).Consistent := by
  unfold Canvas.renderSnapshot TerminalController.renderSnapshot
  unfold Calm at hc
  dsimp only at hc ⊢
  split at hc
  · next hactive =>
    rw [if_pos hactive]
    have hquiet := h.quiet hc
    have hlives : ∃ before, s.lives = before ++ s.controller.replica.pendingDetachedLiveOutput := by
      rcases Option.eq_none_or_eq_some s.controller.terminal with hterminal | ⟨terminal, hterminal⟩
      · exact ((h.unmounted hterminal).2 terminalId hactive).1
      · rw [(h.mounted terminal terminalId hterminal hactive).2.1]
        exact ⟨s.lives, (List.append_nil _).symm⟩
    have hsound : Sound { s with
        controller := { s.controller with replica := s.controller.replica.queueSnapshot terminalId snapshot startSeq }
        pages := []
        snapshot
        lives := s.controller.replica.pendingDetachedLiveOutput } := by
      refine ⟨h.coherent, fun _ hp => (by cases hp), ?_, h.dereferenced⟩
      obtain ⟨before, hbefore⟩ := hlives
      have hsorted := h.sorted
      rw [hbefore, List.pairwise_append] at hsorted
      exact hsorted.2.1
    have hwaits : Waits { s with
        controller := { s.controller with replica := s.controller.replica.queueSnapshot terminalId snapshot startSeq }
        pages := []
        snapshot
        lives := s.controller.replica.pendingDetachedLiveOutput } terminalId := by
      refine ⟨⟨[], rfl⟩, .inl ⟨_, rfl, rfl, ?_⟩⟩
      show _ = pageText [] ++ snapshot ++ outputText s.controller.replica.pendingDetachedLiveOutput
      rw [pageText_nil, String.empty_append]
      rfl
    rcases Option.eq_none_or_eq_some s.controller.terminal with hterminal | ⟨terminal, hterminal⟩
    · rw [@TerminalController.flushPendingState_of_none
        { s.controller with replica := s.controller.replica.queueSnapshot terminalId snapshot startSeq } (.inl hterminal)]
      refine hsound.unmounted hterminal hc hquiet fun otherId ha => ?_
      cases hactive.symm.trans ha
      exact hwaits
    · refine hsound.flushed hterminal (h.takes terminal hterminal) (h.notMade hterminal) hactive hc hquiet hwaits
        fun hnone => ?_
      have hhas : (s.controller.replica.queueSnapshot terminalId snapshot startSeq).hasPendingSnapshot terminalId = true :=
        TerminalController.hasPendingSnapshot_iff.mpr ⟨_, rfl, rfl⟩
      rw [show (s.controller.replica.queueSnapshot terminalId snapshot startSeq).hasPendingSnapshot terminalId = false
        from hnone] at hhas
      cases hhas
  · next hother =>
    rw [if_neg hother]
    have hnone : ∀ activeTerminalId, s.controller.activeTerminalId = some activeTerminalId →
        s.controller.replica.hasPendingSnapshot activeTerminalId = false ∧
          (s.controller.replica.queueSnapshot terminalId snapshot startSeq).hasPendingSnapshot activeTerminalId = false := by
      intro activeTerminalId hactive
      rw [hactive] at hc hother
      refine ⟨by simpa using hc, ?_⟩
      have hne : terminalId ≠ activeTerminalId := fun heq => hother (congrArg some heq.symm)
      exact decide_eq_false hne
    have hqueued : Consistent { s with
        controller := { s.controller with
          replica := s.controller.replica.queueSnapshot terminalId snapshot startSeq } } := by
      refine ⟨⟨h.coherent, h.own, h.sorted, h.dereferenced⟩, h.initPromise, h.takes, h.quiet, fun hterminal => ?_, h.blank,
        fun terminal otherId hterminal ha => ?_⟩
      · obtain ⟨hidle, hwaits⟩ := h.unmounted hterminal
        refine ⟨hidle, fun otherId ha => ?_⟩
        obtain ⟨hlives, ⟨pending, hsome, hid, -⟩ | ⟨-, hempty, htext⟩⟩ := hwaits otherId ha
        · have hhas := TerminalController.hasPendingSnapshot_iff.mpr ⟨pending, hsome, hid⟩
          rw [(hnone otherId ha).1] at hhas
          cases hhas
        · exact ⟨hlives, .inr ⟨(hnone otherId ha).2, hempty, htext⟩⟩
      · obtain ⟨-, hdetached, hshows⟩ := h.mounted terminal otherId hterminal ha
        exact ⟨(hnone otherId ha).2, hdetached, hshows⟩
    have hflush := hqueued.flush
    dsimp only at hflush
    rw [hflush]
    exact hqueued

theorem outputText_concat (outputs : List TerminalReplica.BufferedLiveOutput) (output : TerminalReplica.BufferedLiveOutput) :
    outputText (outputs ++ [output]) = outputText outputs ++ output.chunk := by
  rw [outputText_append]
  congr 1

theorem drawn_eq {output : List TerminalReplica.BufferedLiveOutput} (h : s.lives = output ++ s.controller.replica.bufferedLiveOutput) :
    s.drawn = output := by
  unfold drawn
  rw [h, List.length_append, Nat.add_sub_cancel, List.take_left]

/-- Output behind all that is shown. -/
theorem insert_of_drawn {output : List TerminalReplica.BufferedLiveOutput} {o : TerminalReplica.BufferedLiveOutput}
    (h : s.lives = output ++ s.controller.replica.bufferedLiveOutput) (hle : ∀ p ∈ s.drawn, p.seq ≤ o.seq) :
    Ordered.insert TerminalReplica.BufferedLiveOutput.seq o s.lives =
      output ++ Ordered.insert TerminalReplica.BufferedLiveOutput.seq o s.controller.replica.bufferedLiveOutput := by
  rw [drawn_eq h] at hle
  rw [h]
  exact Ordered.insert_append hle

/-- Output comes in. -/
theorem Consistent.appendActiveOutput (h : s.Consistent) {terminalId chunk : String} {seq : Int}
    (hc : s.Calm (.appendActiveOutput terminalId chunk seq)) : (s.appendActiveOutput terminalId chunk seq).Consistent := by
  unfold Canvas.appendActiveOutput TerminalController.appendActiveOutput
  by_cases hon : s.controller.activeTerminalId = some terminalId ∧ chunk ≠ ""
  · obtain ⟨hactive, hchunk⟩ := hon
    have hle := hc hactive hchunk
    have hguard : ¬(s.controller.activeTerminalId ≠ some terminalId ∨ chunk = "") := by
      rintro (hne | hempty)
      · exact hne hactive
      · exact hchunk hempty
    rw [if_neg hguard, if_pos ⟨hactive, hchunk⟩]
    have hidleLives : s.Idle → Ordered.insert TerminalReplica.BufferedLiveOutput.seq ⟨seq, chunk⟩ s.lives = s.lives ++ [⟨seq, chunk⟩] := by
      intro hidle
      have hbuffered := (h.quiet hidle).2
      have hinsert := @insert_of_drawn s s.lives ⟨seq, chunk⟩ (by rw [hbuffered, List.append_nil]) hle
      rw [hbuffered] at hinsert
      exact hinsert
    have hsorted := @Ordered.sorted_insert _ _ _ TerminalReplica.BufferedLiveOutput.seq ⟨seq, chunk⟩ _ h.sorted
    rcases Option.eq_none_or_eq_some s.controller.terminal with hterminal | ⟨terminal, hterminal⟩
    · obtain ⟨hidle, hwaits⟩ := h.unmounted hterminal
      obtain ⟨⟨before, hbefore⟩, htext⟩ := hwaits terminalId hactive
      simp only [hterminal]
      unfold TerminalReplica.queueDetachedLiveOutput
      rw [if_neg hchunk]
      refine Sound.unmounted ⟨h.coherent, h.own, hsorted, h.dereferenced⟩ rfl hidle (h.quiet hidle) fun otherId ha => ?_
      cases hactive.symm.trans ha
      refine ⟨⟨before, ?_⟩, ?_⟩
      · show Ordered.insert TerminalReplica.BufferedLiveOutput.seq ⟨seq, chunk⟩ s.lives = _
        rw [hidleLives hidle, hbefore, List.append_assoc]
      · have hexpected : pageText s.pages ++ s.snapshot ++
            outputText (Ordered.insert TerminalReplica.BufferedLiveOutput.seq ⟨seq, chunk⟩ s.lives) = s.expected ++ chunk := by
          rw [hidleLives hidle, outputText_concat, ← String.append_assoc]
          rfl
        refine htext.imp (fun ⟨pending, hsome, hid, htext⟩ => ⟨pending, hsome, hid, ?_⟩)
          fun ⟨hpending, hempty, htext⟩ => ⟨hpending, hempty, ?_⟩
        · refine Eq.trans ?_ hexpected.symm
          rw [← htext, String.append_assoc, ← outputText_concat _ ⟨seq, chunk⟩]
        · refine Eq.trans ?_ hexpected.symm
          rw [← htext, ← outputText_concat _ ⟨seq, chunk⟩]
    · obtain ⟨hpending, hdetached, hshows⟩ := h.mounted terminal terminalId hterminal hactive
      have htakes := h.takes terminal hterminal
      simp only [hterminal]
      rcases hshows with ⟨hidle, htext, hwritten⟩ | ⟨done, phase, output, hredraws, hdone, hredrawing, hlives, hprogress⟩
      · obtain ⟨hnot, hbuffered⟩ := h.quiet hidle
        have hexpected : pageText s.pages ++ s.snapshot ++
            outputText (Ordered.insert TerminalReplica.BufferedLiveOutput.seq ⟨seq, chunk⟩ s.lives) = s.expected ++ chunk := by
          rw [hidleLives hidle, outputText_concat, ← String.append_assoc]
          rfl
        have hsame := TerminalReplica.sameQueues_appendLiveChunk s.controller.replica chunk seq
        rw [if_neg (by simp [hnot]), TerminalController.appendLiveOutput_mounted hterminal htakes]
        refine Sound.mounted ⟨h.coherent.appendLiveChunk chunk seq, h.own, hsorted, h.dereferenced⟩ rfl htakes
          (h.notMade hterminal) hactive ?_ (hsame.pendingDetachedLiveOutput.trans hdetached)
          (fun _ => ⟨hsame.isRedrawing.trans hnot, hsame.bufferedLiveOutput.trans hbuffered⟩) (.inl ⟨hidle, ?_, ?_⟩)
        · unfold TerminalReplica.hasPendingSnapshot
          rw [hsame.pendingSnapshot]
          exact hpending
        · show (s.controller.replica.appendLiveChunk chunk seq).text = _
          rw [TerminalReplica.text_appendLiveChunk, htext]
          exact hexpected.symm
        · show terminal.written ++ chunk = _
          rw [hwritten]
          exact hexpected.symm
      · rw [if_pos hredrawing]
        refine Sound.mounted ⟨h.coherent, h.own, hsorted, h.dereferenced⟩ rfl htakes (h.notMade hterminal) hactive hpending
          hdetached ?_ (.inr ⟨done, phase, output, hredraws, hdone, hredrawing, ?_, ?_⟩)
        · intro hidle
          have hnot := (h.quiet hidle).1
          rw [hredrawing] at hnot
          cases hnot
        · exact @insert_of_drawn s output ⟨seq, chunk⟩ hlives hle
        · cases phase <;> exact hprogress
  · have hguard : s.controller.activeTerminalId ≠ some terminalId ∨ chunk = "" := by
      by_contra hneg
      exact hon ⟨by_contra fun hne => hneg (.inl hne), fun hempty => hneg (.inr hempty)⟩
    rw [if_pos hguard, if_neg hon]
    exact h

/-- A redraw begins. -/
theorem Consistent.prependHistoryPage (h : s.Consistent) {page : TerminalHistoryPageRecord}
    (hc : s.Calm (.prependHistoryPage page)) : (s.prependHistoryPage page).Consistent := by
  unfold Canvas.prependHistoryPage TerminalController.prependHistoryPage
  by_cases hguard : s.controller.terminal.isNone ∨ s.controller.activeTerminalId ≠ some page.terminalId
  · rw [if_pos hguard]
    exact h
  · rw [if_neg hguard]
    by_cases hchunk : Utf8.textDecoder page.bytes = ""
    · rw [if_pos hchunk]
      exact h
    · rw [if_neg hchunk]
      have hactive : s.controller.activeTerminalId = some page.terminalId := by
        by_contra hne
        exact hguard (.inr hne)
      obtain ⟨terminal, hterminal⟩ : ∃ terminal, s.controller.terminal = some terminal := by
        rcases Option.eq_none_or_eq_some s.controller.terminal with hnone | hsome
        · exact absurd (.inl (Option.isNone_iff_eq_none.mpr hnone)) hguard
        · exact hsome
      have hidle := hc hactive
      obtain ⟨-, hbuffered⟩ := h.quiet hidle
      obtain ⟨hpending, hdetached, ⟨-, htext, -⟩ | ⟨done, phase, output, hredraws, -, -, -, hprogress⟩⟩ :=
        h.mounted terminal page.terminalId hterminal hactive
      · refine Sound.mounted ⟨h.coherent, ?_, h.sorted, h.dereferenced⟩ hterminal (h.takes terminal hterminal)
          (h.notMade hterminal) hactive hpending hdetached ?_ (.inr ⟨s.redraws,
            .measuring (Utf8.textDecoder page.bytes) page.startSeq, s.lives, ?_, hidle, rfl, ?_, s.pages, rfl, htext⟩)
        · intro other hother
          rcases List.mem_cons.mp hother with rfl | hother
          · exact hactive
          · exact h.own other hother
        · intro hover
          have hphase := hover _ (List.mem_append_right s.redraws (List.mem_singleton.mpr rfl))
          cases hphase
        · rw [← hbuffered]
          rfl
        · exact (List.append_nil _).symm
      · have hphase := hidle _ (hredraws ▸ List.mem_append_right done (List.mem_singleton.mpr rfl))
        dsimp only at hphase
        subst hphase
        exact hprogress.elim

/-- A redraw that goes on is the last one that has begun. -/
theorem Consistent.redraws_of (h : s.Consistent) {i : Nat} {redraw : Redraw} (hi : s.redraws[i]? = some redraw)
    (hphase : redraw.phase ≠ .over) : ∃ terminal terminalId done output, s.controller.terminal = some terminal ∧
      s.controller.activeTerminalId = some terminalId ∧ redraw.previousLiveBuffered = [] ∧
        s.redraws = done ++ [redraw] ∧ i = done.length ∧ (∀ other ∈ done, other.phase = .over) ∧
          s.controller.replica.isRedrawing = true ∧ s.lives = output ++ s.controller.replica.bufferedLiveOutput ∧
            s.Progress terminalId terminal (outputText output) redraw.phase := by
  have hbusy : ¬s.Idle := fun hidle => hphase (hidle redraw (List.mem_of_getElem? hi))
  rcases Option.eq_none_or_eq_some s.controller.terminal with hterminal | ⟨terminal, hterminal⟩
  · exact absurd (h.unmounted hterminal).1 hbusy
  · rcases Option.eq_none_or_eq_some s.controller.activeTerminalId with hactive | ⟨terminalId, hactive⟩
    · exact absurd (h.blank terminal hterminal hactive).1 hbusy
    · obtain ⟨-, -, ⟨hidle, -⟩ | ⟨done, phase, output, hredraws, hdone, hredrawing, hlives, hprogress⟩⟩ :=
        h.mounted terminal terminalId hterminal hactive
      · exact absurd hidle hbusy
      · rw [hredraws] at hi
        have hlast : i = done.length ∧ redraw = { previousLiveBuffered := [], phase } := by
          rcases Nat.lt_trichotomy i done.length with hlt | rfl | hgt
          · rw [List.getElem?_append_left hlt] at hi
            exact absurd (hdone redraw (List.mem_of_getElem? hi)) hphase
          · rw [List.getElem?_concat_length] at hi
            exact ⟨rfl, (Option.some.inj hi).symm⟩
          · rw [List.getElem?_eq_none (by rw [List.length_append, List.length_singleton]; omega)] at hi
            cases hi
        obtain ⟨rfl, rfl⟩ := hlast
        exact ⟨terminal, terminalId, done, output, hterminal, hactive, rfl, hredraws, rfl, hdone, hredrawing, hlives, hprogress⟩

theorem set_last {done : List Redraw} {redraw : Redraw} (h : s.redraws = done ++ [redraw]) (other : Redraw) :
    s.redraws.set done.length other = done ++ [other] := by
  rw [h, List.set_append_right _ _ (Nat.le_refl _), Nat.sub_self]
  rfl

/-- The page is measured and everything written again. -/
theorem Consistent.measured (h : s.Consistent) {i lines : Nat} (hs : s.measured i lines = some t) : t.Consistent := by
  unfold Canvas.measured at hs
  split at hs
  · next previous chunk startSeq hi =>
    obtain ⟨terminal, terminalId, done, output, hterminal, hactive, rfl, hredraws, rfl, hdone, hredrawing, hlives, rest,
      hpages, htext⟩ := h.redraws_of hi (by nofun)
    have htakes := h.takes terminal hterminal
    rw [TerminalController.measured_mounted h.coherent hterminal htakes] at hs
    obtain ⟨hpending, hdetached, -⟩ := h.mounted terminal terminalId hterminal hactive
    have hsame := TerminalReplica.sameQueues_prependHistoryChunk s.controller.replica chunk startSeq
    have hshown : pageText s.pages ++ s.snapshot ++ outputText output = chunk ++ s.controller.replica.text := by
      rw [hpages, htext]
      unfold pageText
      rw [List.map_cons, String.join_cons, String.append_assoc, String.append_assoc, String.append_assoc]
    have hset := set_last hredraws { previousLiveBuffered := [], phase := .writing (decide (0 < lines)) false }
    have hkept := TerminalReplica.text_prependHistoryChunk (r := s.controller.replica) chunk startSeq
    cases hs
    refine Sound.mounted ⟨?_, h.own, h.sorted, h.dereferenced⟩ rfl htakes (h.notMade hterminal) hactive ?_
      (hsame.pendingDetachedLiveOutput.trans hdetached) ?_ (.inr ⟨done, .writing (decide (0 < lines)) false, output, hset, hdone,
        hsame.isRedrawing.trans hredrawing, ?_, rfl, hkept.trans hshown.symm, hkept.symm⟩)
    · intro text hcache
      cases hcache
      exact hkept.symm
    · unfold TerminalReplica.hasPendingSnapshot
      dsimp only
      rw [hsame.pendingSnapshot]
      exact hpending
    · intro hover
      have hphase := hover _ (hset ▸ List.mem_append_right done (List.mem_singleton.mpr rfl))
      cases hphase
    · dsimp only
      rw [hsame.bufferedLiveOutput]
      exact hlives
  · cases hs

/-- Everything has been written, and what has been held back comes out. -/
theorem Consistent.written (h : s.Consistent) {i : Nat} (hs : s.written i = some t) : t.Consistent := by
  unfold Canvas.written at hs
  split at hs
  · next previous scrolls thrown hi =>
    obtain ⟨terminal, terminalId, done, output, hterminal, hactive, rfl, hredraws, rfl, hdone, hredrawing, hlives, rfl,
      htext, hwritten⟩ := h.redraws_of hi (by nofun)
    have htakes := h.takes terminal hterminal
    obtain ⟨hpending, hdetached, -⟩ := h.mounted terminal terminalId hterminal hactive
    dsimp only at hs
    rw [if_neg (by simp), if_neg (by simp [hterminal]), TerminalController.written_mounted hterminal htakes] at hs
    have hset := set_last hredraws { previousLiveBuffered := [], phase := .over }
    have hsame := TerminalReplica.sameQueues_appendLiveChunks ([] ++ s.controller.replica.bufferedLiveOutput)
      { s.controller.replica with bufferedLiveOutput := [] }
    have hshown : s.controller.replica.text ++ outputText ([] ++ s.controller.replica.bufferedLiveOutput) = s.expected := by
      unfold expected
      rw [htext, String.append_assoc, ← outputText_append, List.nil_append, ← hlives]
    cases hs
    refine Sound.mounted ⟨?_, h.own, h.sorted, h.dereferenced⟩ rfl htakes (h.notMade hterminal) hactive ?_
      (hsame.pendingDetachedLiveOutput.trans hdetached) (fun _ => ⟨rfl, rfl⟩) (.inl ⟨?_, ?_, ?_⟩)
    · exact TerminalReplica.Coherent.appendLiveChunks (r := { s.controller.replica with bufferedLiveOutput := [] }) h.coherent
    · unfold TerminalReplica.hasPendingSnapshot
      dsimp only
      rw [hsame.pendingSnapshot]
      exact hpending
    · intro redraw hredraw
      rw [show s.redraws.set done.length { previousLiveBuffered := [], phase := .over } = _ from hset] at hredraw
      rcases List.mem_append.mp hredraw with hredraw | hredraw
      · exact hdone redraw hredraw
      · rw [List.mem_singleton.mp hredraw]
    · refine Eq.trans ?_ hshown
      exact TerminalReplica.text_appendLiveChunks _ { s.controller.replica with bufferedLiveOutput := [] }
    · show terminal.written ++ _ = s.expected
      rw [hwritten]
      exact hshown
  · cases hs

/-- **One step.** -/
theorem Consistent.step (h : s.Consistent) {move : CanvasMove} (hc : s.Calm move) (hs : s.step move = some t) :
    t.Consistent := by
  cases move with
  | strain takes =>
    cases hs
    have htakes : takes = none := hc
    rw [htakes, h.strain]
    exact h
  | mount =>
    cases hs
    exact h.mount
  | createTerminal =>
    obtain ⟨created, hcreated, rfl⟩ := Option.map_eq_some_iff.mp hs
    exact h.createTerminal hcreated
  | createFails =>
    cases hs
    exact h.createFails
  | unmount =>
    cases hs
    exact h.unmount hc
  | reset =>
    cases hs
    exact h.reset hc
  | setActiveTerminal terminalId =>
    cases hs
    exact h.setActiveTerminal hc
  | renderSnapshot terminalId snapshot startSeq =>
    cases hs
    exact h.renderSnapshot hc
  | appendActiveOutput terminalId chunk seq =>
    cases hs
    exact h.appendActiveOutput hc
  | prependHistoryPage page =>
    cases hs
    exact h.prependHistoryPage hc
  | measured i lines => exact h.measured hs
  | measureFails i => exact hc.elim
  | written i => exact h.written hs

/-- What the invariant says of the screen. -/
theorem Consistent.showsEverything (h : s.Consistent) : s.ShowsEverything where
  text hidle terminal hterminal hactive := by
    obtain ⟨terminalId, hactive⟩ := Option.ne_none_iff_exists'.mp hactive
    rw [h.coherent.currentRenderedText]
    obtain ⟨-, -, ⟨-, hshows⟩ | ⟨done, phase, output, hredraws, -, -, -, hprogress⟩⟩ :=
      h.mounted terminal terminalId hterminal hactive
    · exact hshows
    · have hphase := hidle _ (hredraws ▸ List.mem_append_right done (List.mem_singleton.mpr rfl))
      dsimp only at hphase
      subst hphase
      exact hprogress.elim
  own := h.own
  sorted := h.sorted
  kept terminal hterminal hactive := by
    obtain ⟨terminalId, hactive⟩ := Option.ne_none_iff_exists'.mp hactive
    rw [h.coherent.currentRenderedText]
    obtain ⟨-, -, ⟨hidle, htext, -⟩ | ⟨done, phase, output, -, -, -, hlives, hprogress⟩⟩ :=
      h.mounted terminal terminalId hterminal hactive
    · have hbuffered := (h.quiet hidle).2
      have hdrawn : s.drawn = s.lives := drawn_eq (by rw [hbuffered, List.append_nil])
      rw [hdrawn, hbuffered]
      exact ⟨(List.append_nil _).symm, pageText s.pages, htext⟩
    · rw [drawn_eq hlives]
      refine ⟨hlives, ?_⟩
      match phase, hprogress with
      | .measuring chunk startSeq, hprogress =>
        obtain ⟨rest, -, htext⟩ := hprogress
        exact ⟨pageText rest, htext⟩
      | .writing scrolls thrown, hprogress => exact ⟨pageText s.pages, hprogress.2.1⟩
      | .over, hprogress => exact hprogress.elim
  dereferenced := h.dereferenced

end Steps

/-- **Redraws lose nothing**, in every run in which nothing but output disturbs them. -/
theorem shows_everything {s : Canvas} {moves : List CanvasMove} (hmeets : Meets step Calm {} moves)
    (hs : run step {} moves = some s) : s.ShowsEverything := by
  have hstart : Consistent {} :=
    Sound.unmounted ⟨TerminalReplica.coherent_initial, fun _ hp => (by cases hp), List.Pairwise.nil, rfl⟩ rfl
      (fun _ hr => (by cases hr)) ⟨rfl, rfl⟩ fun _ ha => (by cases ha)
  have hconsistent := Steps.run_invariant (I := Consistent) (fun _ _ _ h hc hstep => h.step hc hstep) hmeets hs hstart
  exact hconsistent.showsEverything

/-- A page is put in front of a snapshot while output comes in. -/
theorem shows_everything_sample : ∃ s : Canvas, run step {} [.mount, .createTerminal, .setActiveTerminal (some "t"),
    .renderSnapshot "t" "s" (some 10), .prependHistoryPage ⟨"t", 5, [0x70]⟩, .appendActiveOutput "t" "x" 12, .measured 0 1,
    .written 0] = some s ∧ s.controller.replica.text = "psx" ∧ s.ShowsEverything := by
  obtain ⟨s, hs, htext⟩ : ∃ s : Canvas, run step {} [.mount, .createTerminal, .setActiveTerminal (some "t"),
    .renderSnapshot "t" "s" (some 10), .prependHistoryPage ⟨"t", 5, [0x70]⟩, .appendActiveOutput "t" "x" 12, .measured 0 1,
    .written 0] = some s ∧ s.controller.replica.text = "psx" := ⟨_, rfl, by decide⟩
  exact ⟨s, hs, htext, shows_everything (by decide) hs⟩

/-- Another terminal comes on screen while a page is measured: the page is shown on it. -/
theorem page_on_another_terminal : ¬∀ (moves : List CanvasMove) (s : Canvas), run step {} moves = some s →
    s.ShowsEverything := by
  intro h
  obtain ⟨s, hs, hidle, hterminal, hactive, hexpected⟩ : ∃ s : Canvas, run step {} [.mount, .createTerminal,
    .setActiveTerminal (some "t"), .renderSnapshot "t" "s" (some 10), .prependHistoryPage ⟨"t", 5, [0x70]⟩, .reset,
    .setActiveTerminal (some "u"), .measured 0 1, .written 0] = some s ∧ s.Idle ∧
      s.controller.terminal = some { written := "p" } ∧ s.controller.activeTerminalId = some "u" ∧ s.expected = "" :=
    ⟨_, rfl, by decide, by decide, by decide, by decide⟩
  have hshown := ((h _ s hs).text hidle _ hterminal (by rw [hactive]; nofun)).2
  rw [hexpected] at hshown
  exact absurd hshown (by decide)

end Canvas

end CliPocket.App
