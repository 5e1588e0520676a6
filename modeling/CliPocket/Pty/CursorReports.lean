import CliPocket.Pty.Filter
import CliPocket.Pty.Ring

/-!
# Answers to cursor queries

The reader of a terminal takes the cursor from the ring, filters what it has read, answers the queries in it with that
cursor, and then pushes what is left into the ring. The cursor is the one before the read.

- `PtyReader.turn`, `PtyReader.readAll`: one read, and all;
- `cursorAfter`, `rightReport`: the tracker's cursor after some output, and the answer that gives it;
- `answered`: the output before the read and before the query, for every query that is answered;
- `reports_are_right`: **the answers are right exactly if the text before a query in its own read leaves the cursor where
  it was**; `report_is_stale`: text that does not.
-/

namespace CliPocket

open Saturating (u16Max)
open Scanner (Piece scan passed)

/-! ## The reader -/

structure PtyReader where
  serverOutput : ServerOutputProcessor
  ring : ScrollbackRing
  title : Option String := none
  /-- What has been written to the terminal. -/
  written : List UInt8 := []

namespace PtyReader

/-- One turn of the loop of `spawn_reader`. -/
def turn (r : PtyReader) (read : List UInt8) : PtyReader :=
  let cursor := r.ring.cursor
  let (serverOutput, filtered) := r.serverOutput.process read cursor
  let (title, serverOutput) := serverOutput.takePendingTitle
  let (response, serverOutput) := serverOutput.takePendingResponse
  { serverOutput
    ring := if filtered.isEmpty then r.ring else r.ring.push filtered
    title := title.or r.title
    written := r.written ++ response }

def readAll (r : PtyReader) (reads : List (List UInt8)) : PtyReader := reads.foldl turn r

end PtyReader

/-! ## Right answers -/

/-- The tracker's cursor after the output. -/
def cursorAfter (output : List UInt8) : Nat × Nat := (AnchorTracker.new.advance output).snapshotState.cursor

/-- A report of a row and a column. -/
def positionReport (row col : Nat) : List UInt8 :=
  [0x1b, 0x5b] ++ Vte.digitBytes row ++ [';'.toUInt8] ++ Vte.digitBytes col ++ ['R'.toUInt8]

/-- The report of a cursor, counted from one. -/
def rightReport (cursor : Nat × Nat) : List UInt8 := positionReport (cursor.2 + 1) (cursor.1 + 1)

/-- What passes before each of the queries among some pieces. -/
def beforeQueries (output : List UInt8) : List (Piece UInt8 ControlSequence) → List (List UInt8)
  | [] => []
  | .plain b :: rest => beforeQueries (output ++ [b]) rest
  | .token _ .cursorPositionQuery :: rest => output :: beforeQueries output rest
  | .token _ _ :: rest => beforeQueries output rest

/-- All but the first, if that is to be skipped. -/
def unskipped {α : Type} (skip : Bool) (answers : List α) : List α := if skip then answers.tail else answers

/-- For every query that is answered, the output before its read, and the output before it. -/
def answered (skip : Bool) (kept output : List UInt8) : List (List UInt8) → List (List UInt8 × List UInt8)
  | [] => []
  | read :: reads =>
    let pieces := (scan nextSequence (kept ++ read)).1
    (unskipped skip (beforeQueries output pieces)).map (fun before => (output, before)) ++
      answered (skips skip (found pieces)) (keptOf (kept ++ read)) (output ++ passed pieces) reads

/-- The answers as they should be: the cursor after all output that precedes the query. -/
def rightReports (skip : Bool) (stream : List UInt8) : List UInt8 :=
  (unskipped skip (beforeQueries [] (scan nextSequence stream).1)).flatMap fun before => rightReport (cursorAfter before)

/-- The answer with the cursor before the read is the one for the cursor at the query. -/
def SameReport (before query : List UInt8) : Prop :=
  Saturating.add u16Max (cursorAfter before).2 1 = (cursorAfter query).2 + 1 ∧
    Saturating.add u16Max (cursorAfter before).1 1 = (cursorAfter query).1 + 1

instance (before query : List UInt8) : Decidable (SameReport before query) := by
  unfold SameReport
  infer_instance

/-! ## Reports are told apart -/

/-- Two texts whose symbols meet `p` end where the first symbol does not. -/
theorem append_cons_inj {α : Type} {p : α → Prop} {c d : α} (hc : ¬p c) (hd : ¬p d) : ∀ {xs xs' ys ys' : List α},
    (∀ x ∈ xs, p x) → (∀ x ∈ xs', p x) → xs ++ c :: ys = xs' ++ d :: ys' → xs = xs' ∧ ys = ys'
  | [], [], _, _, _, _, h => ⟨rfl, (List.cons.inj h).2⟩
  | [], x :: xs', _, _, _, h', h => by
    obtain ⟨rfl, _⟩ := List.cons.inj h
    exact absurd (h' _ List.mem_cons_self) hc
  | x :: xs, [], _, _, h', _, h => by
    obtain ⟨rfl, _⟩ := List.cons.inj h
    exact absurd (h' _ List.mem_cons_self) hd
  | x :: xs, x' :: xs', ys, ys', hxs, hxs', h => by
    obtain ⟨rfl, htail⟩ := List.cons.inj h
    obtain ⟨rfl, hys⟩ := append_cons_inj hc hd (fun y hy => hxs y (List.mem_cons_of_mem _ hy))
      (fun y hy => hxs' y (List.mem_cons_of_mem _ hy)) htail
    exact ⟨rfl, hys⟩

theorem positionReport_append_inj {row col row' col' : Nat} {xs ys : List UInt8}
    (h : positionReport row col ++ xs = positionReport row' col' ++ ys) : row = row' ∧ col = col' ∧ xs = ys := by
  unfold positionReport at h
  simp only [List.append_assoc, List.cons_append, List.nil_append, List.cons.injEq, true_and] at h
  have hdigit : ∀ n, ∀ b ∈ Vte.digitBytes n, b.toNat ≤ 0x39 := fun n b hb => (Vte.within_of_mem_digitBytes hb).2
  obtain ⟨hrow, h⟩ := append_cons_inj (p := fun b : UInt8 => b.toNat ≤ 0x39) (by decide) (by decide) (hdigit row) (hdigit row') h
  obtain ⟨hcol, h⟩ := append_cons_inj (p := fun b : UInt8 => b.toNat ≤ 0x39) (by decide) (by decide) (hdigit col) (hdigit col') h
  exact ⟨Vte.digitBytes_injective hrow, Vte.digitBytes_injective hcol, h⟩

/-- Lists of reports are the same exactly if their members are. -/
theorem flatMap_reports_iff : ∀ pairs : List (List UInt8 × List UInt8),
    pairs.flatMap (fun pair => cursorPositionReport (cursorAfter pair.1)) =
      pairs.flatMap (fun pair => rightReport (cursorAfter pair.2)) ↔ ∀ pair ∈ pairs, SameReport pair.1 pair.2
  | [] => by simp
  | pair :: pairs => by
    rw [List.flatMap_cons, List.flatMap_cons, List.forall_mem_cons, ← flatMap_reports_iff pairs]
    constructor
    · intro h
      obtain ⟨hrow, hcol, hrest⟩ := positionReport_append_inj h
      exact ⟨⟨hrow, hcol⟩, hrest⟩
    · rintro ⟨⟨hrow, hcol⟩, hrest⟩
      rw [hrest]
      congr 1
      show positionReport _ _ = positionReport _ _
      rw [hrow, hcol]

/-! ## Queries in a stream -/

section Queries

variable {α : Type} {skip : Bool} {output : List UInt8}

theorem beforeQueries_append (ys : List (Piece UInt8 ControlSequence)) : ∀ (output : List UInt8) (xs : List (Piece UInt8 ControlSequence)),
    beforeQueries output (xs ++ ys) = beforeQueries output xs ++ beforeQueries (output ++ passed xs) ys
  | output, [] => by simp [beforeQueries]
  | output, .plain b :: xs => by
    simp only [List.cons_append, beforeQueries, Scanner.passed_plain]
    rw [beforeQueries_append ys _ xs, List.append_assoc]
    rfl
  | output, .token _ .cursorPositionQuery :: xs => by
    simp only [List.cons_append, beforeQueries, Scanner.passed_token]
    rw [beforeQueries_append ys _ xs]
  | output, .token _ .mode :: xs => beforeQueries_append ys output xs
  | output, .token _ (.title _) :: xs => beforeQueries_append ys output xs

/-- There is a query to answer where there is one among the sequences. -/
theorem beforeQueries_eq_nil : ∀ (output : List UInt8) (pieces : List (Piece UInt8 ControlSequence)),
    beforeQueries output pieces = [] ↔ .cursorPositionQuery ∉ found pieces
  | output, [] => by simp [beforeQueries, found]
  | output, .plain b :: pieces => by
    rw [found_plain]
    exact beforeQueries_eq_nil _ pieces
  | output, .token _ .cursorPositionQuery :: pieces => by simp [beforeQueries]
  | output, .token _ .mode :: pieces => by
    rw [found_token, List.mem_cons]
    simpa [beforeQueries] using beforeQueries_eq_nil output pieces
  | output, .token _ (.title _) :: pieces => by
    rw [found_token, List.mem_cons]
    simpa [beforeQueries] using beforeQueries_eq_nil output pieces

theorem unskipped_append (xs ys : List α) :
    unskipped skip (xs ++ ys) = unskipped skip xs ++ unskipped (skip && xs.isEmpty) ys := by
  cases skip <;> cases xs <;> simp [unskipped]

theorem skips_eq (skip : Bool) (output : List UInt8) (pieces : List (Piece UInt8 ControlSequence)) :
    skips skip (found pieces) = (skip && (beforeQueries output pieces).isEmpty) := by
  rw [skips]
  congr 1
  rw [Bool.eq_iff_iff]
  simp [beforeQueries_eq_nil]

/-- The answers to the queries of one read. -/
theorem reports_eq (cursor : Nat × Nat) : ∀ (skip : Bool) (output : List UInt8) (pieces : List (Piece UInt8 ControlSequence)),
    reports cursor skip (found pieces) =
      (unskipped skip (beforeQueries output pieces)).flatMap fun _ => cursorPositionReport cursor
  | skip, output, [] => by cases skip <;> rfl
  | skip, output, .plain b :: pieces => reports_eq cursor skip _ pieces
  | false, output, .token _ .cursorPositionQuery :: pieces => by
    rw [found_token, reports, reports_eq cursor false output pieces]
    rfl
  | true, output, .token _ .cursorPositionQuery :: pieces => reports_eq cursor false output pieces
  | skip, output, .token _ .mode :: pieces => by
    have h := reports_eq cursor skip output pieces
    cases skip <;> exact h
  | skip, output, .token _ (.title _) :: pieces => by
    have h := reports_eq cursor skip output pieces
    cases skip <;> exact h

/-- The reads together answer the queries of the stream. -/
theorem answered_snd : ∀ (reads : List (List UInt8)) {skip : Bool} {kept output : List UInt8},
    scan nextSequence kept = ([], kept) → (answered skip kept output reads).map Prod.snd =
      unskipped skip (beforeQueries output (scan nextSequence (kept ++ reads.flatten)).1)
  | [], skip, kept, output, hkept => by
    rw [List.flatten_nil, List.append_nil, hkept]
    cases skip <;> rfl
  | read :: reads, skip, kept, output, hkept => by
    have hrest := @answered_snd reads (skips skip (found (scan nextSequence (kept ++ read)).1)) _
      (output ++ passed (scan nextSequence (kept ++ read)).1) (Scanner.scan_kept steady_nextSequence (kept ++ read))
    rw [List.flatten_cons, ← List.append_assoc, Scanner.scan_append steady_nextSequence]
    simp only [answered, List.map_append, List.map_map, beforeQueries_append, unskipped_append]
    rw [← skips_eq]
    congr 1
    exact List.map_id _

end Queries

/-! ## The reader's answers -/

/-- What the reader has written: for each query it answers, the cursor before the read. -/
theorem written_readAll : ∀ (reads : List (List UInt8)) {r : PtyReader} {output : List UInt8}, Taken r.serverOutput →
    r.ring.tracker = AnchorTracker.new.advance output → (r.readAll reads).written = r.written ++
      (answered r.serverOutput.skipNextCursorPositionResponse r.serverOutput.pending output reads).flatMap
        fun pair => cursorPositionReport (cursorAfter pair.1)
  | [], r, output, _, _ => (List.append_nil _).symm
  | read :: reads, r, output, htaken, htracker => by
    have hcursor : r.ring.cursor = cursorAfter output := by
      rw [ScrollbackRing.cursor, htracker]
      rfl
    have hturn : r.turn read = {
        serverOutput := {
          pending := keptOf (r.serverOutput.pending ++ read)
          skipNextCursorPositionResponse := skips r.serverOutput.skipNextCursorPositionResponse
            (found (scan nextSequence (r.serverOutput.pending ++ read)).1) }
        ring := (r.turn read).ring
        title := (r.turn read).title
        written := r.written ++ reports (cursorAfter output) r.serverOutput.skipNextCursorPositionResponse
            (found (scan nextSequence (r.serverOutput.pending ++ read)).1) } := by
      unfold PtyReader.turn
      simp only [ServerOutputProcessor.process_eq, ServerOutputProcessor.applyAll_eq, ServerOutputProcessor.takePendingTitle,
        ServerOutputProcessor.takePendingResponse, htaken.response, List.nil_append, hcursor]
    have hring : (r.turn read).ring.tracker =
        AnchorTracker.new.advance (output ++ passed (scan nextSequence (r.serverOutput.pending ++ read)).1) := by
      have hpushed : (r.turn read).ring = if (passed (scan nextSequence (r.serverOutput.pending ++ read)).1).isEmpty then r.ring
          else r.ring.push (passed (scan nextSequence (r.serverOutput.pending ++ read)).1) := by
        unfold PtyReader.turn
        simp only [ServerOutputProcessor.process_eq]
      rw [hpushed]
      split
      · next hempty =>
        rw [List.isEmpty_iff.mp hempty, List.append_nil]
        exact htracker
      · rw [ScrollbackRing.tracker_push, htracker, AnchorTracker.advance_append]
    have htaken' : Taken (r.turn read).serverOutput := by
      rw [hturn]
      exact ⟨Scanner.scan_kept steady_nextSequence _, rfl, rfl⟩
    rw [PtyReader.readAll, List.foldl_cons, ← PtyReader.readAll, written_readAll reads htaken' hring, hturn]
    simp only [answered, List.flatMap_append, List.append_assoc]
    rw [reports_eq _ _ output, List.flatMap_map]

/-- A terminal's reader before its first read. -/
def PtyReader.start (skip : Bool) (ring : ScrollbackRing) : PtyReader := { serverOutput := .new skip, ring }

/-- **The answers are right** exactly if the cursor before a read is, for a report, the cursor at every query in it. -/
theorem reports_are_right (skip : Bool) (reads : List (List UInt8)) {cols rows : Nat} {capacity : Option Nat}
    {ring : ScrollbackRing} (hring : ScrollbackRing.new cols rows capacity = .ok ring) :
    ((PtyReader.start skip ring).readAll reads).written = rightReports skip reads.flatten ↔
      ∀ pair ∈ answered skip [] [] reads, SameReport pair.1 pair.2 := by
  have hwritten := @written_readAll reads (.start skip ring) [] (taken_new skip) (ScrollbackRing.tracker_new hring)
  have hqueries := @answered_snd reads skip [] [] rfl
  rw [List.nil_append] at hqueries
  have hright : rightReports skip reads.flatten =
      (answered skip [] [] reads).flatMap fun pair => rightReport (cursorAfter pair.2) := by
    rw [rightReports, ← hqueries, List.flatMap_map]
  rw [hright, ← flatMap_reports_iff, hwritten]
  rfl

/-- A query at the front of a read, and one that has been held over. -/
def earlyReads : List (List UInt8) := [[0x61, 0x62], cursorPositionQuery ++ [0x63] ++ cursorPositionQuery, [0x64]]

theorem reports_are_right_sample : ∃ ring, ScrollbackRing.new 80 24 (some 16) = .ok ring ∧
    ((PtyReader.start false ring).readAll earlyReads).written = rightReports false earlyReads.flatten :=
  ⟨_, rfl, (@reports_are_right false earlyReads 80 24 (some 16) _ rfl).mpr (by decide +kernel)⟩

/-- **An answer is stale** when text stands before the query in the same read. -/
theorem report_is_stale : ¬∀ skip reads cols rows capacity ring, ScrollbackRing.new cols rows capacity = .ok ring →
    ((PtyReader.start skip ring).readAll reads).written = rightReports skip reads.flatten := by
  intro hall
  have hright := hall false [[0x61] ++ cursorPositionQuery ++ [0x62]] 80 24 (some 16) _ rfl
  revert hright
  decide +kernel

end CliPocket
