import CliPocket.App.TerminalController
import CliPocket.Lib.Steps
import CliPocket.Proto.RenderText

/-!
# The stream on screen

The text of the replica stands for pieces of the terminal's stream: older pages, the snapshot of an open ack behind its
render prefix, and live output. Each piece is decoded when it comes in. The range beside the text is taken from the
pieces' offsets, but for the end of a snapshot, which is measured on the text, prefix and all.

- `Holding.step`: calls on the controller, one after the other, and the pieces that the replica holds;
- `Body`: the replica's text and range, of the pieces;
- `loaded_range_iff`: **the range is that of the pieces if and only if its end has not been measured, or by chance**;
- `text_iff`: **the text is that of the stream if and only if the pieces are clean**;
- `exists_run_held`: every division of a stream comes on screen in some run.
-/

namespace CliPocket.App

open Steps (run)
open TerminalReplica (encodedLength)

/-! ## Pieces -/

inductive PieceKind
  | page
  | snapshot (anchor : AnchorState)
  | live
  deriving DecidableEq

/-- Bytes of the stream, and where they begin in it. -/
structure StreamPiece where
  kind : PieceKind
  startSeq : Int
  bytes : List UInt8
  deriving DecidableEq

namespace StreamPiece

def endSeq (p : StreamPiece) : Int := p.startSeq + p.bytes.length

/-- The bytes that are decoded. -/
def renderBytes (p : StreamPiece) : List UInt8 :=
  match p.kind with
  | .snapshot anchor => renderPrefixFromAnchor anchor ++ p.bytes
  | .page | .live => p.bytes

/-- What it comes in as. -/
def rendered (p : StreamPiece) : String := Utf8.textDecoder p.renderBytes

/-- Behind a render prefix a byte order mark is not at the front. -/
def piece (p : StreamPiece) : Utf8.Piece where
  kept :=
    match p.kind with
    | .snapshot _ => true
    | .page | .live => false
  bytes := p.bytes

/-- The text of the stream in it: all but the render prefix. -/
def text (p : StreamPiece) : String := String.ofList p.piece.text

/-- The text of the render prefix. -/
def renderPrefix (p : StreamPiece) : String :=
  match p.kind with
  | .snapshot anchor => String.ofList (renderText anchor)
  | .page | .live => ""

theorem rendered_eq (p : StreamPiece) : p.rendered = p.renderPrefix ++ p.text := by
  obtain ⟨kind, startSeq, bytes⟩ := p
  cases kind with
  | snapshot anchor => exact textDecoder_renderPrefix anchor bytes
  | page => exact (Utf8.textDecoder_eq bytes).trans String.empty_append.symm
  | live => exact (Utf8.textDecoder_eq bytes).trans String.empty_append.symm

def output (p : StreamPiece) : TerminalReplica.BufferedLiveOutput where
  seq := p.endSeq
  chunk := p.rendered

end StreamPiece

/-- The pieces that come in as something: not those that are empty, or nothing but a byte order mark. -/
def showing (pieces : List StreamPiece) : List StreamPiece := pieces.filter (·.rendered ≠ "")

theorem showing_append (pieces more : List StreamPiece) : showing (pieces ++ more) = showing pieces ++ showing more :=
  List.filter_append ..

theorem showing_cons_of_ne {p : StreamPiece} (h : p.rendered ≠ "") (pieces : List StreamPiece) :
    showing (p :: pieces) = p :: showing pieces := List.filter_cons_of_pos (decide_eq_true h)

theorem showing_cons_of_eq {p : StreamPiece} (h : p.rendered = "") (pieces : List StreamPiece) :
    showing (p :: pieces) = showing pieces := List.filter_cons_of_neg (by simp [h])

/-! ## Calls -/

/-- A text that has been put in place as a whole, with its start: a snapshot, or what was shown before an unmount. -/
structure Placement where
  fromAck : Bool
  text : String
  startSeq : Int
  deriving DecidableEq

/-- The controller, and what the code does not keep: the pieces that the replica holds, those of the snapshot that waits
for a terminal, and the output that does; and the text that has been put in place, as long as nothing stands behind it. -/
structure Holding where
  controller : TerminalController := {}
  held : List StreamPiece := []
  waiting : Option (Placement × List StreamPiece) := none
  detached : List StreamPiece := []
  placed : Option Placement := none
  deriving DecidableEq

inductive HoldingMove
  /-- Another terminal comes on screen. -/
  | activate (terminalId : String)
  /-- An open ack, from `startSeq` on. -/
  | renderSnapshot (anchor : AnchorState) (startSeq : Int) (bytes : List UInt8)
  /-- Output up to `seq`. -/
  | output (bytes : List UInt8) (seq : Int)
  | historyPage (startSeq : Int) (bytes : List UInt8) (prependedVisibleLines : Nat)
  | mount
  | unmount

namespace TerminalController

/-- `mount`, to its end. -/
def mounted (c : TerminalController) : TerminalController := ((c.mount.createTerminal).map Prod.fst).getD c.mount

theorem mounted_of_none {c : TerminalController} (hterminal : c.terminal = none) :
    c.mounted = { c with host := true, initPromise := false, terminal := some {} }.flushPendingState.1 := by
  unfold mounted mount createTerminal
  rw [hterminal]
  dsimp only
  rw [if_pos (by simp)]
  rfl

theorem mounted_of_some {c : TerminalController} {terminal : MountedTerminal} (hterminal : c.terminal = some terminal)
    (hinit : c.initPromise = false) : c.mounted = { c with host := true } := by
  unfold mounted mount createTerminal
  dsimp only
  rw [hterminal, hinit]
  rfl

/-- `prependHistoryPage`, to its end. -/
def historyPage (c : TerminalController) (page : TerminalHistoryPageRecord) (prependedVisibleLines : Nat) :
    TerminalController :=
  match c.prependHistoryPage page with
  | (c, some { previousLiveBuffered, phase := .measuring chunk startSeq }) =>
    match c.measured chunk startSeq prependedVisibleLines with
    | (c, some (.writing _ false)) => c.written previousLiveBuffered
    | (c, some _) => c.endRedraw
    | (c, none) => c
  | (c, _) => c

/-- A page leaves the terminal on screen. -/
theorem historyPage_kept {c : TerminalController} {terminal : MountedTerminal} {page : TerminalHistoryPageRecord}
    (hcoherent : c.replica.Coherent) (hactive : c.activeTerminalId = some page.terminalId)
    (hterminal : c.terminal = some terminal) (htakes : terminal.takes = none) (lines : Nat) :
    (c.historyPage page lines).activeTerminalId = some page.terminalId ∧ (c.historyPage page lines).terminal ≠ none := by
  unfold historyPage
  by_cases hne : Utf8.textDecoder page.bytes = ""
  · rw [prependHistoryPage_none (.inr hne)]
    exact ⟨hactive, by dsimp only; rw [hterminal]; nofun⟩
  · rw [prependHistoryPage_some hactive hterminal hne]
    dsimp only
    rw [@measured_mounted { c with replica := { c.replica with isRedrawing := true, bufferedLiveOutput := [] } } terminal
      (Utf8.textDecoder page.bytes) page.startSeq lines hcoherent hterminal htakes]
    dsimp only
    rw [@written_mounted _ { terminal with written := Utf8.textDecoder page.bytes ++ _ } c.replica.bufferedLiveOutput rfl htakes]
    exact ⟨hactive, nofun⟩

end TerminalController

namespace Holding

/-- What has waited is held. -/
def flushed (s : Holding) : Holding :=
  match s.controller.terminal, s.waiting with
  | none, _ => s
  | some _, some (placement, pieces) =>
    { s with
      held := pieces ++ s.detached
      waiting := none
      detached := []
      placed := if showing s.detached = [] then some placement else none }
  | some _, none =>
    { s with
      held := s.held ++ s.detached
      detached := []
      placed := if showing s.detached = [] then s.placed else none }

def activate (s : Holding) (terminalId : String) : Holding :=
  { controller := (s.controller.reset.setActiveTerminal (some terminalId)).1 }

def renderSnapshot (s : Holding) (terminalId : String) (p : StreamPiece) : Holding :=
  flushed { s with
    controller := (s.controller.renderSnapshot terminalId p.rendered (some p.startSeq)).1
    waiting := some ({ fromAck := true, text := p.rendered, startSeq := p.startSeq }, [p]) }

def output (s : Holding) (terminalId : String) (p : StreamPiece) : Holding :=
  flushed { s with
    controller := (s.controller.appendActiveOutput terminalId p.rendered p.endSeq).1
    detached := s.detached ++ [p] }

def historyPage (s : Holding) (terminalId : String) (p : StreamPiece) (prependedVisibleLines : Nat) : Holding :=
  let controller := s.controller.historyPage { terminalId, startSeq := p.startSeq, bytes := p.bytes } prependedVisibleLines
  if s.controller.terminal = none then { s with controller }
  else { s with controller, held := p :: s.held }

def mount (s : Holding) : Holding :=
  let controller := s.controller.mounted
  if s.controller.activeTerminalId = none then { s with controller } else flushed { s with controller }

/-- What is held waits for the next terminal, unless a snapshot does. -/
def unmount (s : Holding) : Holding :=
  { s with
    controller := s.controller.unmount
    waiting :=
      match s.waiting with
      | some waiting => some waiting
      | none =>
        if showing s.held = [] then none
        else some ({
          fromAck := false
          text := s.controller.replica.text
          startSeq := s.controller.replica.loadedRange.startSeq.getD 0 }, s.held) }

def step (s : Holding) : HoldingMove → Option Holding
  | .activate terminalId => some (s.activate terminalId)
  | .renderSnapshot anchor startSeq bytes =>
    s.controller.activeTerminalId.map fun terminalId =>
      s.renderSnapshot terminalId { kind := .snapshot anchor, startSeq, bytes }
  | .output bytes seq =>
    s.controller.activeTerminalId.map fun terminalId =>
      s.output terminalId { kind := .live, startSeq := seq - bytes.length, bytes }
  | .historyPage startSeq bytes prependedVisibleLines =>
    s.controller.activeTerminalId.map fun terminalId =>
      s.historyPage terminalId { kind := .page, startSeq, bytes } prependedVisibleLines
  | .mount => some s.mount
  | .unmount => some s.unmount

/-- The oldest piece on screen begins where the range begins, and the last one ends where it ends. -/
structure RangeShown (s : Holding) : Prop where
  startSeq : ∀ p ∈ (showing s.held).head?, p.kind ≠ .live →
    s.controller.replica.getLoadedRange.startSeq = some p.startSeq
  endSeq : ∀ p ∈ (showing s.held).getLast?, s.controller.replica.getLoadedRange.endSeq = some p.endSeq

/-- Not all that is on screen are pages; and what has been put in place is not an open ack's, but for one behind which
there is output, and has as many bytes as it has in the stream. -/
def Measured (s : Holding) : Prop :=
  match s.placed with
  | none => ∀ p ∈ (showing s.held).getLast?, p.kind ≠ .page
  | some placement => placement.fromAck = false ∧
    ∀ p ∈ (showing s.held).getLast?, placement.startSeq + encodedLength placement.text = p.endSeq

end Holding

/-! ## The replica -/

/-- The text of some pieces. -/
def heldText (held : List StreamPiece) : String := String.join (held.map StreamPiece.rendered)

theorem heldText_cons (p : StreamPiece) (held : List StreamPiece) : heldText (p :: held) = p.rendered ++ heldText held :=
  String.join_cons

theorem heldText_append (held more : List StreamPiece) : heldText (held ++ more) = heldText held ++ heldText more := by
  unfold heldText
  rw [List.map_append, String.join_append]

/-- Pieces that can be put in place. -/
structure Placement.Fits (placement : Placement) (pieces : List StreamPiece) : Prop where
  text : placement.text = heldText pieces
  nonempty : ∀ p ∈ pieces, p.rendered ≠ ""
  held : pieces ≠ []
  startSeq : ∀ p ∈ pieces.head?, p.kind ≠ .live → placement.startSeq = p.startSeq
  fromAck : placement.fromAck = true → ∃ p anchor, pieces = [p] ∧ p.kind = .snapshot anchor ∧
    placement.startSeq = p.startSeq

/-- **The replica holds these pieces.** -/
structure Body (r : TerminalReplica) (held : List StreamPiece) (placed : Option Placement) : Prop where
  coherent : r.Coherent
  text : r.text = heldText held
  nonempty : ∀ p ∈ held, p.rendered ≠ ""
  range : held = [] → r.loadedRange = { startSeq := none, endSeq := none }
  started : held ≠ [] → ∃ startSeq, r.loadedRange.startSeq = some startSeq
  startSeq : ∀ p ∈ held.head?, p.kind ≠ .live → r.loadedRange.startSeq = some p.startSeq
  endSeq : placed = none → ∀ p ∈ held.getLast?,
    r.loadedRange.endSeq = if p.kind = .page then none else some p.endSeq
  placement : ∀ placement ∈ placed, held ≠ [] ∧
    r.loadedRange.endSeq = some (placement.startSeq + encodedLength placement.text) ∧
      (placement.fromAck = true → ∃ p anchor, held.getLast? = some p ∧ p.kind = .snapshot anchor ∧
        placement.text = p.rendered ∧ placement.startSeq = p.startSeq)

section Body

variable {r : TerminalReplica} {held : List StreamPiece} {placed : Option Placement} {p : StreamPiece}

theorem heldText_ne (h : ∀ p ∈ held, p.rendered ≠ "") (hne : held ≠ []) : heldText held ≠ "" := by
  cases held with
  | nil => exact absurd rfl hne
  | cons p rest =>
    rw [heldText_cons]
    intro hempty
    exact h p List.mem_cons_self (String.append_eq_empty_iff.mp hempty).1

theorem body_initial : Body {} [] none where
  coherent := TerminalReplica.coherent_initial
  text := rfl
  nonempty _ h := by cases h
  range _ := rfl
  started h := absurd rfl h
  startSeq _ h := by cases h
  endSeq _ _ h := by cases h
  placement _ h := by cases h

/-- Live output behind the text. -/
theorem Body.appendLiveChunk (h : Body r held placed) (hkind : p.kind = .live) (hne : p.rendered ≠ "") :
    Body (r.appendLiveChunk p.rendered p.endSeq) (held ++ [p]) none where
  coherent := h.coherent.appendLiveChunk _ _
  text := by
    rw [TerminalReplica.text_appendLiveChunk, h.text, heldText_append]
    rfl
  nonempty q hq := by
    rcases List.mem_append.mp hq with hq | hq
    · exact h.nonempty q hq
    · rw [List.mem_singleton.mp hq]
      exact hne
  range hnil := by simp at hnil
  started _ := by
    unfold TerminalReplica.appendLiveChunk
    rw [if_neg hne]
    exact ⟨_, rfl⟩
  startSeq q hq hlive := by
    unfold TerminalReplica.appendLiveChunk
    rw [if_neg hne]
    cases held with
    | nil =>
      cases hq
      exact absurd hkind hlive
    | cons first rest =>
      have hstart := h.startSeq q hq hlive
      dsimp only
      rw [hstart]
      rfl
  endSeq _ q hq := by
    rw [List.getLast?_concat] at hq
    cases hq
    unfold TerminalReplica.appendLiveChunk
    rw [if_neg hne, hkind]
    rfl
  placement _ hp := by cases hp

/-- An older page in front of it. -/
theorem Body.prependHistoryChunk (h : Body r held placed) (hkind : p.kind = .page) (hne : p.rendered ≠ "") :
    Body (r.prependHistoryChunk p.rendered p.startSeq) (p :: held) placed where
  coherent := h.coherent.prependHistoryChunk _ _
  text := by
    rw [TerminalReplica.text_prependHistoryChunk, h.text, heldText_cons]
  nonempty q hq := by
    rcases List.mem_cons.mp hq with rfl | hq
    · exact hne
    · exact h.nonempty q hq
  range hnil := by cases hnil
  started _ := by
    unfold TerminalReplica.prependHistoryChunk
    rw [if_neg hne]
    exact ⟨_, rfl⟩
  startSeq q hq _ := by
    cases hq
    unfold TerminalReplica.prependHistoryChunk
    rw [if_neg hne]
  endSeq hplaced q hq := by
    unfold TerminalReplica.prependHistoryChunk
    rw [if_neg hne]
    cases held with
    | nil =>
      cases hq
      exact (congrArg TerminalReplica.LoadedRange.endSeq (h.range rfl)).trans (if_pos hkind).symm
    | cons first rest => exact h.endSeq hplaced q hq
  placement placement hp := by
    obtain ⟨hheld, hend, hack⟩ := h.placement placement hp
    unfold TerminalReplica.prependHistoryChunk
    rw [if_neg hne]
    refine ⟨List.cons_ne_nil _ _, hend, fun hfrom => ?_⟩
    cases held with
    | nil => exact absurd rfl hheld
    | cons first rest => exact hack hfrom

/-- A text that is put in place. -/
theorem body_setSnapshotContent {placement : Placement} {pieces : List StreamPiece} (h : placement.Fits pieces)
    (r : TerminalReplica) : Body (r.setSnapshotContent placement.text (some placement.startSeq)) pieces (some placement) where
  coherent := TerminalReplica.coherent_setSnapshotContent _ _
  text := (TerminalReplica.text_setSnapshotContent _ _).trans h.text
  nonempty := h.nonempty
  range hnil := absurd hnil h.held
  started _ := ⟨_, rfl⟩
  startSeq q hq hlive := congrArg some (h.startSeq q hq hlive)
  endSeq hnone := by cases hnone
  placement other hother := by
    cases hother
    refine ⟨h.held, rfl, fun hfrom => ?_⟩
    obtain ⟨p, anchor, rfl, hkind, hstart⟩ := h.fromAck hfrom
    refine ⟨p, anchor, rfl, hkind, ?_, hstart⟩
    rw [h.text, heldText_cons]
    exact String.append_empty

/-- Output that has waited. -/
theorem Body.appendLiveChunks : ∀ {more : List StreamPiece} {r : TerminalReplica} {held : List StreamPiece}
    {placed : Option Placement}, Body r held placed → (∀ p ∈ more, p.kind = .live ∧ p.rendered ≠ "") →
    Body (r.appendLiveChunks (more.map StreamPiece.output)) (held ++ more) (if more = [] then placed else none)
  | [], r, held, placed, h, _ => by
    rw [List.append_nil]
    exact h
  | p :: rest, r, held, placed, h, hmore => by
    obtain ⟨hkind, hne⟩ := hmore p List.mem_cons_self
    have hfirst := h.appendLiveChunk hkind hne
    have hrest := Body.appendLiveChunks hfirst fun q hq => hmore q (List.mem_cons_of_mem _ hq)
    rw [List.append_assoc, ite_self] at hrest
    exact hrest

theorem Body.congr {t : TerminalReplica} (h : Body r held placed) (hpages : t.prependedHistoryChunks = r.prependedHistoryChunks)
    (hbody : t.bodyChunks = r.bodyChunks) (hrange : t.loadedRange = r.loadedRange) (hcoherent : t.Coherent) :
    Body t held placed where
  coherent := hcoherent
  text := by
    rw [← h.text]
    unfold TerminalReplica.text
    rw [hpages, hbody]
  nonempty := h.nonempty
  range hnil := hrange.trans (h.range hnil)
  started hne := by
    rw [hrange]
    exact h.started hne
  startSeq := by
    rw [hrange]
    exact h.startSeq
  endSeq := by
    rw [hrange]
    exact h.endSeq
  placement := by
    rw [hrange]
    exact h.placement

/-- What is held can be put in place again. -/
theorem Body.fits (h : Body r held placed) (hne : held ≠ []) :
    Placement.Fits { fromAck := false, text := r.text, startSeq := r.loadedRange.startSeq.getD 0 } held where
  text := h.text
  nonempty := h.nonempty
  held := hne
  startSeq p hp hlive := by
    dsimp only
    rw [h.startSeq p hp hlive]
    rfl
  fromAck hfrom := by cases hfrom

end Body

/-! ## Runs -/

namespace Holding

/-- What waits for a terminal. -/
structure Queued (s : Holding) : Prop where
  body : Body s.controller.replica (showing s.held) s.placed
  takes : ∀ terminal, s.controller.terminal = some terminal → terminal.takes = none
  initPromise : s.controller.initPromise = false
  quiet : s.controller.replica.isRedrawing = false ∧ s.controller.replica.bufferedLiveOutput = []
  pending : ∀ terminalId, s.controller.activeTerminalId = some terminalId →
    s.controller.replica.pendingSnapshot = s.waiting.map fun waiting =>
      { terminalId, snapshot := waiting.1.text, startSeq := some waiting.1.startSeq }
  fits : ∀ waiting ∈ s.waiting, waiting.1.Fits (showing waiting.2)
  detached : s.controller.replica.pendingDetachedLiveOutput = (showing s.detached).map StreamPiece.output
  live : ∀ p ∈ showing s.detached, p.kind = .live ∧ p.rendered ≠ ""
  inactive : s.controller.activeTerminalId = none → s.held = [] ∧ s.waiting = none ∧ s.detached = []

/-- **The invariant**: nothing waits for a terminal that is there. -/
structure Sane (s : Holding) : Prop extends Queued s where
  mounted : s.controller.terminal ≠ none → s.waiting = none ∧ s.detached = []

section Steps

variable {s t : Holding} {terminalId : String} {p : StreamPiece}

theorem Queued.hasPendingSnapshot (h : s.Queued) (hactive : s.controller.activeTerminalId = some terminalId) :
    s.controller.replica.hasPendingSnapshot terminalId = s.waiting.isSome := by
  unfold TerminalReplica.hasPendingSnapshot
  rw [h.pending terminalId hactive]
  cases s.waiting <;> simp

/-- What has waited is shown as soon as there is a terminal. -/
theorem Queued.flushed (h : s.Queued) (hactive : s.controller.activeTerminalId = some terminalId) :
    Sane (flushed { s with controller := s.controller.flushPendingState.1 }) := by
  rcases Option.eq_none_or_eq_some s.controller.terminal with hterminal | ⟨terminal, hterminal⟩
  · rw [TerminalController.flushPendingState_of_none (.inl hterminal)]
    have hsame : Holding.flushed { s with controller := s.controller } = s := by
      unfold Holding.flushed
      rw [hterminal]
    rw [hsame]
    exact ⟨h, fun hne => absurd hterminal hne⟩
  · have htakes := h.takes terminal hterminal
    have hmade : ∀ c : TerminalController, c.activeTerminalId = s.controller.activeTerminalId →
        c.activeTerminalId ≠ none := by
      intro c hc
      rw [hc, hactive]
      nofun
    cases hwaiting : s.waiting with
    | some waiting =>
      obtain ⟨placement, pieces⟩ := waiting
      have hpending := h.pending terminalId hactive
      rw [hwaiting] at hpending
      have hfits : placement.Fits (showing pieces) := h.fits _ hwaiting
      have hplaced := body_setSnapshotContent hfits
        { s.controller.replica with pendingSnapshot := none, pendingDetachedLiveOutput := [] }
      have hbody := hplaced.appendLiveChunks h.live
      rw [← h.detached, ← showing_append] at hbody
      have hsame := TerminalReplica.sameQueues_appendLiveChunks s.controller.replica.pendingDetachedLiveOutput
        (TerminalReplica.setSnapshotContent { s.controller.replica with
          pendingSnapshot := none, pendingDetachedLiveOutput := [] } placement.text (some placement.startSeq))
      rw [TerminalController.flushPendingState_pending hterminal htakes hactive hpending]
      refine ⟨⟨hbody, ?_, h.initPromise, ?_, fun _ _ => hsame.pendingSnapshot, fun _ hw => (by cases hw),
        hsame.pendingDetachedLiveOutput, fun _ hp => (by cases hp), fun hnone => ?_⟩, fun _ => ⟨rfl, rfl⟩⟩
      · rintro _ ⟨⟩
        exact htakes
      · exact ⟨hsame.isRedrawing.trans h.quiet.1, hsame.bufferedLiveOutput.trans h.quiet.2⟩
      · exact absurd hnone (hmade _ rfl)
    | none =>
      have hpending := h.hasPendingSnapshot hactive
      rw [hwaiting] at hpending
      have hstart : Body { s.controller.replica with pendingDetachedLiveOutput := [] } (showing s.held) s.placed :=
        h.body.congr rfl rfl rfl h.body.coherent
      have hbody := hstart.appendLiveChunks h.live
      rw [← h.detached, ← showing_append] at hbody
      have hsame := TerminalController.sameQueues_replayed s.controller.replica
      rw [TerminalController.flushPendingState_replay hterminal htakes hactive hpending]
      refine ⟨⟨hbody, ?_, h.initPromise, ?_, fun otherId ha => ?_, fun _ hw => (by cases hw),
        hsame.pendingDetachedLiveOutput, fun _ hp => (by cases hp), fun hnone => ?_⟩, fun _ => ⟨rfl, rfl⟩⟩
      · rintro _ ⟨⟩
        exact htakes
      · exact ⟨hsame.isRedrawing.trans h.quiet.1, hsame.bufferedLiveOutput.trans h.quiet.2⟩
      · have hnone := h.pending otherId ha
        rw [hwaiting] at hnone
        exact hsame.pendingSnapshot.trans hnone
      · exact absurd hnone (hmade _ rfl)

theorem sane_initial : Sane {} where
  body := body_initial
  takes _ h := by cases h
  initPromise := rfl
  quiet := ⟨rfl, rfl⟩
  pending _ h := by cases h
  fits _ h := by cases h
  detached := rfl
  live _ h := by cases h
  inactive _ := ⟨rfl, rfl, rfl⟩
  mounted h := absurd rfl h

/-- Another terminal comes on screen. -/
theorem Sane.activate (h : s.Sane) (terminalId : String) : (s.activate terminalId).Sane := by
  have hflush : s.controller.reset.setActiveTerminal (some terminalId) =
      ({ s.controller.reset with activeTerminalId := some terminalId }, true) := by
    apply TerminalController.flushPendingState_of_idle
    intro terminal activeTerminalId hterminal _
    refine ⟨?_, rfl, rfl⟩
    obtain ⟨before, hbefore, rfl⟩ := Option.map_eq_some_iff.mp hterminal
    exact h.takes before hbefore
  unfold Holding.activate
  rw [hflush]
  refine ⟨⟨body_initial, ?_, h.initPromise, ⟨rfl, rfl⟩, fun _ _ => rfl, fun _ hw => (by cases hw), rfl,
    fun _ hp => (by cases hp), fun hnone => (by cases hnone)⟩, fun _ => ⟨rfl, rfl⟩⟩
  intro terminal hterminal
  obtain ⟨before, hbefore, rfl⟩ := Option.map_eq_some_iff.mp hterminal
  exact h.takes before hbefore

/-- There is a render prefix in front of a snapshot. -/
theorem rendered_snapshot_ne {anchor : AnchorState} (hkind : p.kind = .snapshot anchor) : p.rendered ≠ "" := by
  have hbegin : p.renderPrefix = String.ofList (renderText anchor) := by
    unfold StreamPiece.renderPrefix
    rw [hkind]
  rw [p.rendered_eq, hbegin]
  intro hempty
  have hnil := congrArg String.toList (String.append_eq_empty_iff.mp hempty).1
  rw [String.toList_ofList] at hnil
  have hhead := head_renderText anchor
  rw [hnil] at hhead
  cases hhead

/-- Nothing waits. -/
theorem Sane.flushed_eq (h : s.Sane) : s.flushed = s := by
  rcases Option.eq_none_or_eq_some s.controller.terminal with hterminal | ⟨terminal, hterminal⟩
  · unfold Holding.flushed
    rw [hterminal]
  · obtain ⟨controller, held, waiting, detached, placed⟩ := s
    obtain ⟨hwaiting, hdetached⟩ := h.mounted (by rw [hterminal]; nofun)
    dsimp only at hterminal hwaiting hdetached
    subst hwaiting hdetached
    unfold Holding.flushed
    dsimp only
    rw [hterminal]
    dsimp only
    rw [List.append_nil, if_pos (show showing [] = [] from rfl)]

/-- A snapshot comes in. -/
theorem Sane.renderSnapshot (h : s.Sane) (hactive : s.controller.activeTerminalId = some terminalId)
    {anchor : AnchorState} (hkind : p.kind = .snapshot anchor) : (s.renderSnapshot terminalId p).Sane := by
  have hqueued : Queued { s with
      controller := { s.controller with
        replica := s.controller.replica.queueSnapshot terminalId p.rendered (some p.startSeq) }
      waiting := some ({ fromAck := true, text := p.rendered, startSeq := p.startSeq }, [p]) } := by
    refine ⟨h.body.congr rfl rfl rfl h.body.coherent, h.takes, h.initPromise, h.quiet, fun otherId ha => ?_, ?_, h.detached,
      h.live, fun hnone => ?_⟩
    · cases hactive.symm.trans ha
      rfl
    · rintro _ ⟨⟩
      dsimp only
      rw [showing_cons_of_ne (rendered_snapshot_ne hkind)]
      refine ⟨?_, fun q hq => ?_, List.cons_ne_nil _ _, fun q hq _ => ?_, fun _ => ⟨p, anchor, rfl, hkind, rfl⟩⟩
      · exact (heldText_cons p []).trans String.append_empty |>.symm
      · rw [List.mem_singleton.mp hq]
        exact rendered_snapshot_ne hkind
      · cases hq
        rfl
    · exact absurd (hactive.symm.trans hnone) nofun
  exact hqueued.flushed hactive

/-- Output comes in of which nothing is shown. -/
theorem Sane.output_empty (h : s.Sane) (hactive : s.controller.activeTerminalId = some terminalId)
    (hempty : p.rendered = "") : Sane (Holding.flushed { s with detached := s.detached ++ [p] }) := by
  have hnothing : showing [p] = [] := showing_cons_of_eq hempty []
  have hon : s.controller.activeTerminalId ≠ none := by
    rw [hactive]
    nofun
  rcases Option.eq_none_or_eq_some s.controller.terminal with hterminal | ⟨terminal, hterminal⟩
  · unfold Holding.flushed
    dsimp only
    rw [hterminal]
    refine ⟨⟨h.body, h.takes, h.initPromise, h.quiet, h.pending, h.fits, ?_, ?_, fun hnone => absurd hnone hon⟩,
      fun hsome => absurd hterminal hsome⟩
    · rw [showing_append, hnothing, List.append_nil]
      exact h.detached
    · rw [showing_append, hnothing, List.append_nil]
      exact h.live
  · obtain ⟨hwaiting, hdetached⟩ := h.mounted (by rw [hterminal]; nofun)
    have hbody := h.body
    have hqueue := h.detached
    have hpending := h.pending
    rw [hdetached] at hqueue
    rw [hwaiting] at hpending
    unfold Holding.flushed
    dsimp only
    rw [hterminal, hwaiting, hdetached, List.nil_append, if_pos hnothing]
    refine ⟨⟨?_, h.takes, h.initPromise, h.quiet, hpending, fun _ hw => (by cases hw), hqueue, fun _ hp => (by cases hp),
      fun hnone => absurd hnone hon⟩, fun _ => ⟨rfl, rfl⟩⟩
    rw [showing_append, hnothing, List.append_nil]
    exact hbody

/-- Output comes in. -/
theorem Sane.output (h : s.Sane) (hactive : s.controller.activeTerminalId = some terminalId) (hkind : p.kind = .live) :
    (s.output terminalId p).Sane := by
  unfold Holding.output
  by_cases hne : p.rendered = ""
  · rw [hne, TerminalController.appendActiveOutput_empty]
    exact h.output_empty hactive hne
  · have hon : s.controller.activeTerminalId ≠ none := by
      rw [hactive]
      nofun
    have hshown : showing [p] = [p] := showing_cons_of_ne hne []
    rcases Option.eq_none_or_eq_some s.controller.terminal with hterminal | ⟨terminal, hterminal⟩
    · have hsane : Sane { s with
          controller := { s.controller with
            replica := { s.controller.replica with
              pendingDetachedLiveOutput := s.controller.replica.pendingDetachedLiveOutput ++ [p.output] } }
          detached := s.detached ++ [p] } := by
        refine ⟨⟨h.body.congr rfl rfl rfl h.body.coherent, h.takes, h.initPromise, h.quiet, h.pending, h.fits, ?_,
          fun q hq => ?_, fun hnone => absurd hnone hon⟩, fun hsome => absurd hterminal hsome⟩
        · show s.controller.replica.pendingDetachedLiveOutput ++ [p.output] = _
          rw [h.detached, showing_append, hshown, List.map_append]
          rfl
        · rw [showing_append, hshown] at hq
          rcases List.mem_append.mp hq with hq | hq
          · exact h.live q hq
          · rw [List.mem_singleton.mp hq]
            exact ⟨hkind, hne⟩
      rw [TerminalController.appendActiveOutput_detached hactive hne hterminal]
      have heq := hsane.flushed_eq
      unfold StreamPiece.output at heq hsane
      rw [heq]
      exact hsane
    · obtain ⟨hwaiting, hdetached⟩ := h.mounted (by rw [hterminal]; nofun)
      have htakes := h.takes terminal hterminal
      have hsame := TerminalReplica.sameQueues_appendLiveChunk s.controller.replica p.rendered p.endSeq
      have hbody := h.body.appendLiveChunk hkind hne
      rw [← hshown, ← showing_append] at hbody
      rw [TerminalController.appendActiveOutput_mounted hactive hne hterminal htakes h.quiet.1]
      unfold Holding.flushed
      dsimp only
      rw [hwaiting, hdetached, List.nil_append, if_neg (by rw [hshown]; exact List.cons_ne_nil _ _)]
      refine ⟨⟨hbody, ?_, h.initPromise, ?_, fun otherId ha => ?_, fun _ hw => (by cases hw), ?_,
        fun _ hp => (by cases hp), fun hnone => absurd hnone hon⟩, fun _ => ⟨rfl, rfl⟩⟩
      · rintro _ ⟨⟩
        exact htakes
      · exact ⟨hsame.isRedrawing.trans h.quiet.1, hsame.bufferedLiveOutput.trans h.quiet.2⟩
      · have hpending := h.pending otherId ha
        rw [hwaiting] at hpending
        exact hsame.pendingSnapshot.trans hpending
      · have hnone := h.detached
        rw [hdetached] at hnone
        exact hsame.pendingDetachedLiveOutput.trans hnone

/-- A page comes in. -/
theorem Sane.historyPage (h : s.Sane) (hactive : s.controller.activeTerminalId = some terminalId) (hkind : p.kind = .page)
    (lines : Nat) : (s.historyPage terminalId p lines).Sane := by
  have hrendered : p.rendered = Utf8.textDecoder p.bytes := by
    unfold StreamPiece.rendered StreamPiece.renderBytes
    rw [hkind]
  unfold Holding.historyPage TerminalController.historyPage
  rcases Option.eq_none_or_eq_some s.controller.terminal with hterminal | ⟨terminal, hterminal⟩
  · rw [if_pos hterminal, TerminalController.prependHistoryPage_none (.inl hterminal)]
    exact h
  have hmounted : s.controller.terminal ≠ none := by
    rw [hterminal]
    nofun
  by_cases hne : p.rendered = ""
  · rw [if_neg hmounted, TerminalController.prependHistoryPage_none (.inr (hrendered ▸ hne))]
    refine ⟨⟨?_, h.takes, h.initPromise, h.quiet, h.pending, h.fits, h.detached, h.live, fun hoff => ?_⟩, h.mounted⟩
    · rw [showing_cons_of_eq hne]
      exact h.body
    · exact absurd (hactive.symm.trans hoff) nofun
  · have htakes := h.takes terminal hterminal
    rw [if_neg hmounted, @TerminalController.prependHistoryPage_some s.controller terminal
      { terminalId, startSeq := p.startSeq, bytes := p.bytes } hactive hterminal (hrendered ▸ hne), ← hrendered, h.quiet.2]
    dsimp only
    rw [@TerminalController.measured_mounted
      { s.controller with replica := { s.controller.replica with isRedrawing := true, bufferedLiveOutput := [] } } terminal
      p.rendered p.startSeq lines h.body.coherent hterminal htakes]
    dsimp only
    have hsame := TerminalReplica.sameQueues_prependHistoryChunk
      { s.controller.replica with isRedrawing := true, bufferedLiveOutput := [] } p.rendered p.startSeq
    have hbegun : Body { s.controller.replica with isRedrawing := true, bufferedLiveOutput := [] } (showing s.held)
        s.placed :=
      h.body.congr rfl rfl rfl h.body.coherent
    have hbody : Body (TerminalReplica.prependHistoryChunk
        { s.controller.replica with isRedrawing := true, bufferedLiveOutput := [] } p.rendered p.startSeq)
        (showing (p :: s.held)) s.placed := by
      rw [showing_cons_of_ne hne]
      exact hbegun.prependHistoryChunk hkind hne
    rw [@TerminalController.written_mounted _ { terminal with written := p.rendered ++ _ } [] rfl htakes]
    dsimp only
    rw [hsame.bufferedLiveOutput]
    refine ⟨⟨hbody.congr rfl rfl rfl ?_, ?_, h.initPromise, ⟨rfl, rfl⟩, ?_, h.fits, ?_, h.live, ?_⟩, ?_⟩
    · intro text hcache
      cases hcache
      exact (TerminalReplica.text_prependHistoryChunk _ _).symm
    · rintro _ ⟨⟩
      exact htakes
    · intro otherId ha
      exact hsame.pendingSnapshot.trans (h.pending otherId ha)
    · exact hsame.pendingDetachedLiveOutput.trans h.detached
    · intro hoff
      exact absurd (hactive.symm.trans hoff) nofun
    · intro _
      exact h.mounted (by rw [hterminal]; nofun)

theorem Sane.mount (h : s.Sane) : s.mount.Sane := by
  have hmount : Sane { s with controller := { s.controller with host := true } } :=
    ⟨⟨h.body, h.takes, h.initPromise, h.quiet, h.pending, h.fits, h.detached, h.live, h.inactive⟩, h.mounted⟩
  unfold Holding.mount
  dsimp only
  rcases Option.eq_none_or_eq_some s.controller.terminal with hterminal | ⟨terminal, hterminal⟩
  · have hmade : Queued { s with
        controller := { s.controller with host := true, initPromise := false, terminal := some {} } } := by
      refine ⟨h.body, ?_, rfl, h.quiet, h.pending, h.fits, h.detached, h.live, h.inactive⟩
      rintro _ ⟨⟩
      rfl
    rw [TerminalController.mounted_of_none hterminal]
    rcases Option.eq_none_or_eq_some s.controller.activeTerminalId with hactive | ⟨terminalId, hactive⟩
    · rw [if_pos hactive, @TerminalController.flushPendingState_of_none
        { s.controller with host := true, initPromise := false, terminal := some {} } (.inr hactive)]
      exact ⟨hmade, fun _ => (h.inactive hactive).2⟩
    · rw [if_neg (by rw [hactive]; nofun)]
      exact hmade.flushed hactive
  · rw [TerminalController.mounted_of_some hterminal h.initPromise, hmount.flushed_eq, ite_self]
    exact hmount

/-- Without a terminal, with another snapshot that waits. -/
theorem Sane.detach (h : s.Sane) {replica : TerminalReplica} {waiting : Option (Placement × List StreamPiece)}
    (hbody : Body replica (showing s.held) s.placed) (hredrawing : replica.isRedrawing = s.controller.replica.isRedrawing)
    (hbuffered : replica.bufferedLiveOutput = s.controller.replica.bufferedLiveOutput)
    (hdetached : replica.pendingDetachedLiveOutput = s.controller.replica.pendingDetachedLiveOutput)
    (hpending : ∀ terminalId, s.controller.activeTerminalId = some terminalId →
      replica.pendingSnapshot = waiting.map fun waiting =>
        { terminalId, snapshot := waiting.1.text, startSeq := some waiting.1.startSeq })
    (hfits : ∀ pair ∈ waiting, pair.1.Fits (showing pair.2))
    (hinactive : s.controller.activeTerminalId = none → waiting = none) :
    Sane { s with controller := { s.controller with replica, terminal := none, host := false }, waiting } where
  body := hbody
  takes _ ht := by cases ht
  initPromise := h.initPromise
  quiet := ⟨hredrawing.trans h.quiet.1, hbuffered.trans h.quiet.2⟩
  pending := hpending
  fits := hfits
  detached := hdetached.trans h.detached
  live := h.live
  inactive hnone := ⟨(h.inactive hnone).1, hinactive hnone, (h.inactive hnone).2.2⟩
  mounted hne := absurd rfl hne

theorem Sane.unmount (h : s.Sane) : s.unmount.Sane := by
  unfold Holding.unmount
  rcases Option.eq_none_or_eq_some s.controller.activeTerminalId with hactive | ⟨terminalId, hactive⟩
  · obtain ⟨hheld, hwaiting, -⟩ := h.inactive hactive
    rw [TerminalController.unmount_waiting (by simp [hactive]), hwaiting]
    dsimp only
    rw [if_pos (by rw [hheld]; rfl)]
    refine h.detach h.body rfl rfl rfl (fun otherId ha => ?_) (fun _ hw => (by cases hw)) fun _ => rfl
    exact absurd (hactive.symm.trans ha) nofun
  · have hon : s.controller.activeTerminalId ≠ none := by
      rw [hactive]
      nofun
    have hhas := h.hasPendingSnapshot hactive
    have hpending := h.pending
    have hfits := h.fits
    cases hwaiting : s.waiting with
    | some waiting =>
      rw [hwaiting] at hhas hpending hfits
      have hall : ∀ activeTerminalId, s.controller.activeTerminalId = some activeTerminalId →
          s.controller.replica.hasPendingSnapshot activeTerminalId = true := by
        intro activeTerminalId ha
        cases hactive.symm.trans ha
        exact hhas
      rw [TerminalController.unmount_waiting hall]
      exact h.detach h.body rfl rfl rfl hpending hfits fun hoff => absurd hoff hon
    | none =>
      rw [hwaiting] at hhas hpending
      have hcached := TerminalReplica.coherent_cached s.controller.replica
      rw [TerminalController.unmount_shown h.body.coherent hactive hhas]
      dsimp only
      by_cases hheld : showing s.held = []
      · have htext : s.controller.replica.text = "" := by
          rw [h.body.text, hheld]
          rfl
        have hrange := h.body.range hheld
        rw [if_neg (by rw [htext, hrange]; simp), if_pos hheld]
        exact h.detach (h.body.congr rfl rfl rfl hcached) rfl rfl rfl hpending (fun _ hw => (by cases hw))
          fun hoff => absurd hoff hon
      · have htext : s.controller.replica.text ≠ "" := by
          rw [h.body.text]
          exact heldText_ne h.body.nonempty hheld
        obtain ⟨startSeq, hstart⟩ := h.body.started hheld
        have hagain := h.body.fits hheld
        rw [if_pos (.inl htext), if_neg hheld]
        refine h.detach (h.body.congr rfl rfl rfl hcached) rfl rfl rfl (fun otherId ha => ?_) ?_ fun hoff => absurd hoff hon
        · cases hactive.symm.trans ha
          unfold TerminalReplica.queueSnapshot
          rw [hstart]
          rfl
        · rintro _ ⟨⟩
          exact hagain

/-- **One step.** -/
theorem Sane.step (h : s.Sane) {move : HoldingMove} (hs : s.step move = some t) : t.Sane := by
  cases move with
  | activate terminalId =>
    cases hs
    exact h.activate terminalId
  | renderSnapshot anchor startSeq bytes =>
    obtain ⟨terminalId, hactive, rfl⟩ := Option.map_eq_some_iff.mp hs
    exact h.renderSnapshot hactive rfl
  | output bytes seq =>
    obtain ⟨terminalId, hactive, rfl⟩ := Option.map_eq_some_iff.mp hs
    exact h.output hactive rfl
  | historyPage startSeq bytes lines =>
    obtain ⟨terminalId, hactive, rfl⟩ := Option.map_eq_some_iff.mp hs
    exact h.historyPage hactive rfl lines
  | mount =>
    cases hs
    exact h.mount
  | unmount =>
    cases hs
    exact h.unmount

/-- **The invariant holds in every run.** -/
theorem sane_run {moves : List HoldingMove} (hs : run step {} moves = some s) : s.Sane :=
  Steps.Reachable.invariant ⟨moves, hs⟩ sane_initial fun _ _ _ h hstep => h.step hstep

/-! ## The range -/

theorem encodedLength_append (a b : String) : encodedLength (a ++ b) = encodedLength a + encodedLength b := by
  unfold encodedLength Utf8.encode
  rw [String.toList_append, List.flatMap_append, List.length_append]
  exact Int.natCast_add _ _

/-- The render prefix is measured with the snapshot, whose bytes do not get fewer. -/
theorem length_lt_encodedLength {anchor : AnchorState} (hkind : p.kind = .snapshot anchor) :
    (p.bytes.length : Int) < encodedLength p.rendered := by
  have hbegin : p.renderPrefix = String.ofList (renderText anchor) := by
    unfold StreamPiece.renderPrefix
    rw [hkind]
  have htext : p.text = String.ofList (Utf8.lossy p.bytes) := by
    unfold StreamPiece.text StreamPiece.piece
    rw [hkind]
    rfl
  have hpositive : 0 < encodedLength p.renderPrefix := by
    have hlength := (isText_renderPrefix anchor).length_encode
    have hbytes : renderPrefixFromAnchor anchor ≠ [] := by
      unfold renderPrefixFromAnchor
      exact List.cons_ne_nil _ _
    have hpos := List.length_pos_of_ne_nil hbytes
    rw [hbegin]
    unfold encodedLength renderText
    omega
  have hbody : (p.bytes.length : Int) ≤ encodedLength p.text := by
    have hle := Utf8.length_le_encode_lossy p.bytes
    rw [htext]
    unfold encodedLength
    omega
  rw [p.rendered_eq, encodedLength_append]
  omega

/-- **The range is that of the pieces if and only if its end has not been measured, or by chance.** -/
theorem loaded_range_iff {moves : List HoldingMove} (hs : run step {} moves = some s) : s.RangeShown ↔ s.Measured := by
  have hbody := (sane_run hs).body
  have hend : (∀ p ∈ (showing s.held).getLast?, s.controller.replica.loadedRange.endSeq = some p.endSeq) ↔ s.Measured := by
    unfold Measured
    cases hplaced : s.placed with
    | none =>
      have hlast := hbody.endSeq hplaced
      refine forall₂_congr fun p hp => ?_
      rw [hlast p hp]
      by_cases hpage : p.kind = .page
      · simp [hpage]
      · simp [hpage]
    | some placement =>
      obtain ⟨hheld, hmeasured, hack⟩ := hbody.placement placement hplaced
      rw [hmeasured]
      constructor
      · intro hright
        refine ⟨?_, fun p hp => Option.some.inj (hright p hp)⟩
        cases hfrom : placement.fromAck with
        | false => rfl
        | true =>
          obtain ⟨p, anchor, hlast, hkind, htext, hstart⟩ := hack hfrom
          have heq := Option.some.inj (hright p hlast)
          have hlt := length_lt_encodedLength hkind
          rw [htext, hstart] at heq
          unfold StreamPiece.endSeq at heq
          omega
      · rintro ⟨-, hchance⟩ p hp
        exact congrArg some (hchance p hp)
  exact ⟨fun h => hend.mp h.endSeq, fun h => ⟨hbody.startSeq, hend.mpr h⟩⟩

/-- The screen of a terminal that has just been opened. -/
def opened : AnchorState := { cursor := (0, 0), sgr := {}, modes := {}, charset := {}, title := none }

/-- An open ack for a mounted terminal. -/
def ackMoves (bytes : List UInt8) : List HoldingMove := [.activate "t", .mount, .renderSnapshot opened 5 bytes]

theorem loaded_range_iff_sample : ∃ s, run step {} (ackMoves [0x61] ++ [.output [0x62] 7]) = some s ∧ s.RangeShown := by
  obtain ⟨s, hs⟩ : ∃ s, run step {} (ackMoves [0x61] ++ [.output [0x62] 7]) = some s := ⟨_, rfl⟩
  have hshown : ∀ s ∈ run step {} (ackMoves [0x61] ++ [.output [0x62] 7]),
      s.placed = none ∧ (showing s.held).getLast? = some ⟨.live, 6, [0x62]⟩ := by decide +kernel
  obtain ⟨hplaced, hlast⟩ := hshown s hs
  refine ⟨s, hs, (loaded_range_iff hs).mpr ?_⟩
  unfold Measured
  rw [hplaced, hlast]
  rintro p ⟨⟩
  nofun

/-- The range ends behind the render prefix and the bytes of the ack, not behind the bytes alone. -/
theorem ack_measured_with_prefix : ¬∀ moves s, run step {} moves = some s → s.RangeShown := by
  intro h
  obtain ⟨s, hs⟩ : ∃ s, run step {} (ackMoves [0x61]) = some s := ⟨_, rfl⟩
  have hmeasured : ∀ s ∈ run step {} (ackMoves [0x61]),
      (showing s.held).getLast? = some ⟨.snapshot opened, 5, [0x61]⟩ ∧
        s.controller.replica.getLoadedRange.endSeq ≠ some 6 := by decide +kernel
  obtain ⟨hlast, hwrong⟩ := hmeasured s hs
  exact hwrong ((h _ s hs).endSeq _ hlast)

/-! ## The text -/

theorem heldText_showing : ∀ held : List StreamPiece, heldText (showing held) = heldText held
  | [] => rfl
  | p :: held => by
    by_cases hempty : p.rendered = ""
    · rw [showing_cons_of_eq hempty, heldText_showing held, heldText_cons, hempty, String.empty_append]
    · rw [showing_cons_of_ne hempty, heldText_cons, heldText_cons, heldText_showing held]

/-- The text of the stream in some pieces: of each piece the text, without the render prefix. -/
def streamText (held : List StreamPiece) : String := String.join (held.map StreamPiece.text)

theorem streamText_eq : ∀ held : List StreamPiece,
    streamText held = String.ofList ((held.map StreamPiece.piece).flatMap Utf8.Piece.text)
  | [] => rfl
  | p :: held => by
    have hrest : streamText held = _ := streamText_eq held
    unfold streamText at hrest ⊢
    rw [List.map_cons, String.join_cons, hrest, List.map_cons, List.flatMap_cons, String.ofList_append]
    rfl

/-- **The replica shows the pieces, each behind its render prefix, and their text is that of the stream if and only if
they are clean.** -/
theorem text_iff {moves : List HoldingMove} (hs : run step {} moves = some s) :
    s.controller.replica.currentRenderedText.1 = String.join (s.held.map fun p => p.renderPrefix ++ p.text) ∧
      (streamText s.held = Utf8.textDecoder (s.held.flatMap StreamPiece.bytes) ↔
        Utf8.Clean (s.held.map StreamPiece.piece)) := by
  have hbody := (sane_run hs).body
  constructor
  · rw [hbody.coherent.currentRenderedText, hbody.text, heldText_showing]
    exact congrArg String.join (List.map_congr_left fun p _ => p.rendered_eq)
  · have hbytes : s.held.flatMap StreamPiece.bytes = (s.held.map StreamPiece.piece).flatMap Utf8.Piece.bytes := by
      rw [List.flatMap_map]
      rfl
    rw [streamText_eq, hbytes, Utf8.textDecoder_eq, String.ofList_inj]
    exact Utf8.flatMap_text_iff _

theorem text_iff_sample : ∃ s, run step {} (ackMoves [0xc3, 0xa9] ++ [.output [0x62] 8]) = some s ∧
    streamText s.held = Utf8.textDecoder (s.held.flatMap StreamPiece.bytes) := by
  obtain ⟨s, hs⟩ : ∃ s, run step {} (ackMoves [0xc3, 0xa9] ++ [.output [0x62] 8]) = some s := ⟨_, rfl⟩
  have hheld : ∀ s ∈ run step {} (ackMoves [0xc3, 0xa9] ++ [.output [0x62] 8]),
      s.held = [⟨.snapshot opened, 5, [0xc3, 0xa9]⟩, ⟨.live, 7, [0x62]⟩] := by decide +kernel
  refine ⟨s, hs, (text_iff hs).2.mpr ?_⟩
  rw [hheld s hs]
  refine ⟨⟨?_, ?_, trivial⟩, .inl ⟨by decide, ?_⟩⟩
  · rintro ⟨p, hp, -⟩
    cases hp
  · rintro ⟨p, hp, -⟩
    cases hp
  · intro p hp
    rcases List.mem_pair.mp hp with rfl | rfl
    · rintro ⟨hkept, -⟩
      cases hkept
    · rintro ⟨-, hmark⟩
      revert hmark
      decide

/-- A character in two pieces. -/
theorem character_in_two : ¬∀ moves s, run step {} moves = some s →
    streamText s.held = Utf8.textDecoder (s.held.flatMap StreamPiece.bytes) := by
  intro h
  obtain ⟨s, hs⟩ : ∃ s, run step {} (ackMoves [0xc3] ++ [.output [0xa9] 7]) = some s := ⟨_, rfl⟩
  have hcut : ∀ s ∈ run step {} (ackMoves [0xc3] ++ [.output [0xa9] 7]),
      streamText s.held ≠ Utf8.textDecoder (s.held.flatMap StreamPiece.bytes) := by decide +kernel
  exact hcut s hs (h _ s hs)

/-! ## Every division -/

/-- The terminal on screen is mounted. -/
structure OnScreen (s : Holding) (terminalId : String) : Prop where
  sane : s.Sane
  active : s.controller.activeTerminalId = some terminalId
  mounted : s.controller.terminal ≠ none

theorem OnScreen.output (h : s.OnScreen terminalId) (bytes : List UInt8) (seq : Int) :
    ∃ t, s.step (.output bytes seq) = some t ∧ t.OnScreen terminalId ∧
      t.held = s.held ++ [⟨.live, seq - bytes.length, bytes⟩] := by
  obtain ⟨terminal, hterminal⟩ := Option.ne_none_iff_exists'.mp h.mounted
  obtain ⟨hwaiting, hdetached⟩ := h.sane.mounted h.mounted
  have hstep : s.step (.output bytes seq) = some (s.output terminalId ⟨.live, seq - bytes.length, bytes⟩) := by
    show s.controller.activeTerminalId.map _ = _
    rw [h.active]
    rfl
  have hsane := h.sane.step hstep
  refine ⟨_, hstep, ?_⟩
  generalize hp : (⟨.live, seq - bytes.length, bytes⟩ : StreamPiece) = p at hsane
  suffices hout : ∃ controller, (s.output terminalId p) = flushed { s with controller, detached := [p] } ∧
      controller.activeTerminalId = some terminalId ∧ ∃ terminal, controller.terminal = some terminal by
    obtain ⟨controller, hout, hactive, terminal, hsome⟩ := hout
    rw [hout] at hsane ⊢
    unfold Holding.flushed at hsane ⊢
    dsimp only at hsane ⊢
    rw [hsome, hwaiting] at hsane ⊢
    exact ⟨⟨hsane, hactive, by dsimp only; rw [hsome]; nofun⟩, rfl⟩
  refine ⟨(s.controller.appendActiveOutput terminalId p.rendered p.endSeq).1, ?_, ?_⟩
  · unfold Holding.output
    rw [hdetached]
    rfl
  · by_cases hne : p.rendered = ""
    · rw [hne, TerminalController.appendActiveOutput_empty]
      exact ⟨h.active, terminal, hterminal⟩
    · rw [TerminalController.appendActiveOutput_mounted h.active hne hterminal (h.sane.takes terminal hterminal)
        h.sane.quiet.1]
      exact ⟨h.active, _, rfl⟩

theorem OnScreen.renderSnapshot (h : s.OnScreen terminalId) (anchor : AnchorState) (startSeq : Int) (bytes : List UInt8) :
    ∃ t, s.step (.renderSnapshot anchor startSeq bytes) = some t ∧ t.OnScreen terminalId ∧
      t.held = [⟨.snapshot anchor, startSeq, bytes⟩] := by
  obtain ⟨terminal, hterminal⟩ := Option.ne_none_iff_exists'.mp h.mounted
  obtain ⟨-, hdetached⟩ := h.sane.mounted h.mounted
  have hstep : s.step (.renderSnapshot anchor startSeq bytes) =
      some (s.renderSnapshot terminalId ⟨.snapshot anchor, startSeq, bytes⟩) := by
    show s.controller.activeTerminalId.map _ = _
    rw [h.active]
    rfl
  have hsane := h.sane.step hstep
  refine ⟨_, hstep, ?_⟩
  generalize hp : (⟨.snapshot anchor, startSeq, bytes⟩ : StreamPiece) = p at hsane
  have hflush := @TerminalController.flushPendingState_pending { s.controller with
    replica := s.controller.replica.queueSnapshot terminalId p.rendered (some p.startSeq) } terminal
      ⟨terminalId, p.rendered, some p.startSeq⟩ hterminal (h.sane.takes terminal hterminal) h.active rfl
  unfold Holding.renderSnapshot TerminalController.renderSnapshot at hsane ⊢
  rw [hflush] at hsane ⊢
  unfold Holding.flushed at hsane ⊢
  dsimp only at hsane ⊢
  rw [hdetached] at hsane ⊢
  exact ⟨⟨hsane, h.active, nofun⟩, rfl⟩

theorem OnScreen.historyPage (h : s.OnScreen terminalId) (startSeq : Int) (bytes : List UInt8) :
    ∃ t, s.step (.historyPage startSeq bytes 0) = some t ∧ t.OnScreen terminalId ∧
      t.held = ⟨.page, startSeq, bytes⟩ :: s.held := by
  obtain ⟨terminal, hterminal⟩ := Option.ne_none_iff_exists'.mp h.mounted
  have hstep : s.step (.historyPage startSeq bytes 0) = some (s.historyPage terminalId ⟨.page, startSeq, bytes⟩ 0) := by
    show s.controller.activeTerminalId.map _ = _
    rw [h.active]
    rfl
  have hsane := h.sane.step hstep
  have hkept := @TerminalController.historyPage_kept s.controller terminal ⟨terminalId, startSeq, bytes⟩
    h.sane.body.coherent h.active hterminal (h.sane.takes terminal hterminal) 0
  refine ⟨_, hstep, ?_⟩
  unfold Holding.historyPage at hsane ⊢
  dsimp only at hsane ⊢
  rw [if_neg h.mounted] at hsane ⊢
  exact ⟨⟨hsane, hkept.1, hkept.2⟩, rfl⟩

theorem onScreen_mount : ∃ s, run step {} [.activate "t", .mount] = some s ∧ s.OnScreen "t" ∧ s.held = [] :=
  ⟨_, rfl, ⟨@sane_run _ [.activate "t", .mount] rfl, rfl, nofun⟩, rfl⟩

theorem OnScreen.run_output : ∀ {live : List StreamPiece} {s : Holding}, s.OnScreen terminalId →
    (∀ p ∈ live, p.kind = .live) → ∃ moves t, run step s moves = some t ∧ t.OnScreen terminalId ∧ t.held = s.held ++ live
  | [], s, h, _ => ⟨[], s, rfl, h, (List.append_nil _).symm⟩
  | ⟨kind, startSeq, bytes⟩ :: rest, s, h, hlive => by
    obtain rfl : kind = .live := hlive _ List.mem_cons_self
    obtain ⟨m, hm, hscreen, hheld⟩ := h.output bytes (startSeq + bytes.length)
    obtain ⟨moves, t, hrun, hscreen', hheld'⟩ := hscreen.run_output fun p hp => hlive p (List.mem_cons_of_mem _ hp)
    refine ⟨.output bytes (startSeq + bytes.length) :: moves, t, ?_, hscreen', ?_⟩
    · rw [Steps.run_cons, hm]
      exact hrun
    · rw [hheld', hheld, List.append_assoc, Int.add_sub_cancel]
      rfl

theorem OnScreen.run_historyPage : ∀ {pages : List StreamPiece} {s : Holding}, s.OnScreen terminalId →
    (∀ p ∈ pages, p.kind = .page) → ∃ moves t, run step s moves = some t ∧ t.OnScreen terminalId ∧ t.held = pages ++ s.held
  | [], s, h, _ => ⟨[], s, rfl, h, rfl⟩
  | ⟨kind, startSeq, bytes⟩ :: rest, s, h, hpages => by
    obtain rfl : kind = .page := hpages _ List.mem_cons_self
    -- The newer pages come in first.
    obtain ⟨moves, m, hrun, hscreen, hheld⟩ := h.run_historyPage fun p hp => hpages p (List.mem_cons_of_mem _ hp)
    obtain ⟨t, ht, hscreen', hheld'⟩ := hscreen.historyPage startSeq bytes
    refine ⟨moves ++ [.historyPage startSeq bytes 0], t, ?_, hscreen', ?_⟩
    · rw [Steps.run_append hrun, Steps.run_cons, ht]
      rfl
    · rw [hheld', hheld]
      rfl

/-- **Every division comes on screen**: pages, a snapshot or none, and output. -/
theorem exists_run_held {pages live : List StreamPiece} {snapshot : Option StreamPiece}
    (hpages : ∀ p ∈ pages, p.kind = .page) (hsnapshot : ∀ p ∈ snapshot, ∃ anchor, p.kind = .snapshot anchor)
    (hlive : ∀ p ∈ live, p.kind = .live) :
    ∃ moves s, run step {} moves = some s ∧ s.held = pages ++ snapshot.toList ++ live := by
  obtain ⟨s₀, hrun₀, hscreen₀, hheld₀⟩ := onScreen_mount
  have hfirst : ∃ moves s, run step s₀ moves = some s ∧ s.OnScreen "t" ∧ s.held = snapshot.toList := by
    cases snapshot with
    | none => exact ⟨[], s₀, rfl, hscreen₀, hheld₀⟩
    | some p =>
      obtain ⟨kind, startSeq, bytes⟩ := p
      obtain ⟨anchor, rfl⟩ : ∃ anchor, kind = .snapshot anchor := hsnapshot _ rfl
      obtain ⟨t, ht, hscreen, hheld⟩ := hscreen₀.renderSnapshot anchor startSeq bytes
      refine ⟨[.renderSnapshot anchor startSeq bytes], t, ?_, hscreen, hheld⟩
      rw [Steps.run_cons, ht]
      rfl
  obtain ⟨moves₁, s₁, hrun₁, hscreen₁, hheld₁⟩ := hfirst
  obtain ⟨moves₂, s₂, hrun₂, hscreen₂, hheld₂⟩ := hscreen₁.run_output hlive
  obtain ⟨moves₃, s₃, hrun₃, -, hheld₃⟩ := hscreen₂.run_historyPage hpages
  refine ⟨[.activate "t", .mount] ++ (moves₁ ++ (moves₂ ++ moves₃)), s₃, ?_, ?_⟩
  · rw [Steps.run_append hrun₀, Steps.run_append hrun₁, Steps.run_append hrun₂]
    exact hrun₃
  · rw [hheld₃, hheld₂, hheld₁, List.append_assoc]

end Steps

end Holding

end CliPocket.App
