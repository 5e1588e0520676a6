import CliPocket.Pty.Prefix
import CliPocket.Pty.Ring

/-!
# The cursor and the screen

A ring has the dimensions of its terminal, its tracker has not: the tracked cursor follows the output alone, and is kept
off no edge.

- `RingMove`, `ScrollbackRing.after`: pushes and resizes in any order;
- `ScrollbackRing.positions`: where the cursor is behind each callback and each resize of a run;
- `AnchorStateMut.Room`: what a callback asks of the screen, by its parameters and the cursor in front of it;
- `cursor_on_screen`: **the cursor is made by what was pushed, fits its type, and is on the screen throughout a run exactly
  when every callback and resize finds the room that it asks for.**
-/

namespace CliPocket

open Vte (Event)
open Saturating (u16Max)

inductive RingMove
  | push (chunk : List UInt8)
  | setDims (cols rows : Nat)

/-- The dimensions are `u16`. -/
def RingMove.InRange : RingMove → Prop
  | .push _ => True
  | .setDims cols rows => cols ≤ u16Max ∧ rows ≤ u16Max

namespace AnchorStateMut

def Inside (s : AnchorStateMut) (cols rows : Nat) : Prop := s.cursorCol < cols ∧ s.cursorRow < rows

/-- The states behind the callbacks. -/
def states : AnchorStateMut → List Event → List AnchorStateMut
  | _, [] => []
  | s, e :: events => s.perform e :: states (s.perform e) events

end AnchorStateMut

/-- A cursor, and the dimensions of the screen at that time. -/
structure Position where
  cursor : Nat × Nat
  dims : Nat × Nat
  deriving DecidableEq

/-- The cursor names a cell of the screen. -/
def Position.OnScreen (p : Position) : Prop := p.cursor.1 < p.dims.1 ∧ p.cursor.2 < p.dims.2

namespace ScrollbackRing

def move (r : ScrollbackRing) : RingMove → ScrollbackRing
  | .push chunk => r.push chunk
  | .setDims cols rows => r.setDims cols rows

def after (r : ScrollbackRing) (moves : List RingMove) : ScrollbackRing := moves.foldl move r

def position (r : ScrollbackRing) : Position := { cursor := r.cursor, dims := r.dims }

/-- The cursor behind each callback of a push, and behind a resize. -/
def moved (r : ScrollbackRing) : RingMove → List Position
  | .push chunk => (r.tracker.state.states (Vte.feed r.tracker.parser chunk).2).map fun s =>
    { cursor := (s.cursorCol, s.cursorRow), dims := r.dims }
  | .setDims cols rows => [(r.setDims cols rows).position]

/-- The cursor behind each callback and each resize. -/
def positions : ScrollbackRing → List RingMove → List Position
  | _, [] => []
  | r, move :: moves => r.moved move ++ positions (r.move move) moves

end ScrollbackRing

/-- What is pushed by some moves. -/
def pushedBytes (moves : List RingMove) : List UInt8 :=
  moves.flatMap fun
    | .push chunk => chunk
    | .setDims _ _ => []

namespace AnchorStateMut

/-- What a callback asks of the screen, from the cursor in front of it. What goes to the left or up, or moves no cursor,
asks nothing. -/
def Room (s : AnchorStateMut) (cols rows : Nat) : Event → Prop
  | .print c => s.cursorCol + charWidth c < cols
  | .execute byte => match Char.ofNat byte.toNat with
    | '\n' => s.cursorRow + 1 < rows
    | '\t' => (s.cursorCol / 8 + 1) * 8 < cols
    | _ => True
  | .csiDispatch params _ _ action => match Char.ofNat action.toNat with
    | 'H' | 'f' => secondParam params 1 ≤ cols ∧ firstParam params 1 ≤ rows
    | 'B' | 'E' => s.cursorRow + firstParam params 1 < rows
    | 'C' => s.cursorCol + firstParam params 1 < cols
    | 'G' => firstParam params 1 ≤ cols
    | 'd' => firstParam params 1 ≤ rows
    | _ => True
  | _ => True

/-- All of them find it, one after the other. -/
def AllRoom (cols rows : Nat) : AnchorStateMut → List Event → Prop
  | _, [] => True
  | s, e :: events => s.Room cols rows e ∧ AllRoom cols rows (s.perform e) events

end AnchorStateMut

/-- The callbacks of a push find the room that they ask for, and a resize leaves the cursor its cell. -/
def ScrollbackRing.Room (r : ScrollbackRing) : RingMove → Prop
  | .push chunk => r.tracker.state.AllRoom r.cols r.rows (Vte.feed r.tracker.parser chunk).2
  | .setDims cols rows => r.cursor.1 < cols ∧ r.cursor.2 < rows

/-- So do the moves of a run. -/
def ScrollbackRing.AllRoom : ScrollbackRing → List RingMove → Prop
  | _, [] => True
  | r, move :: moves => r.Room move ∧ AllRoom (r.move move) moves

/-! ## The callbacks -/

namespace AnchorStateMut

variable {s : AnchorStateMut} {cols rows : Nat}

theorem add_lt_iff {a b limit : Nat} (h : limit ≤ u16Max) : Saturating.add u16Max a b < limit ↔ a + b < limit := by
  unfold Saturating.add
  omega

theorem mul_lt_iff {a b limit : Nat} (h : limit ≤ u16Max) : Saturating.mul u16Max a b < limit ↔ a * b < limit := by
  unfold Saturating.mul
  omega

theorem pred_lt_iff {value limit : Nat} (h : 0 < limit) : value - 1 < limit ↔ value ≤ limit := by omega

/-- Only the column has moved. -/
theorem inside_col (h : s.Inside cols rows) {col : Nat} :
    Inside { s with cursorCol := col } cols rows ↔ col < cols := and_iff_left h.2

/-- The row has moved, and the column at most to the left. -/
theorem inside_row (h : s.Inside cols rows) {col row : Nat} (hcol : col ≤ s.cursorCol) :
    Inside { s with cursorRow := row, cursorCol := col } cols rows ↔ row < rows :=
  and_iff_right (Nat.lt_of_le_of_lt hcol h.1)

/-- Neither has moved but to the left or up. -/
theorem Inside.back (h : s.Inside cols rows) {t : AnchorStateMut} (hcol : t.cursorCol ≤ s.cursorCol)
    (hrow : t.cursorRow ≤ s.cursorRow) : t.Inside cols rows :=
  ⟨Nat.lt_of_le_of_lt hcol h.1, Nat.lt_of_le_of_lt hrow h.2⟩

variable (hcols : cols ≤ u16Max) (hrows : rows ≤ u16Max)
include hcols hrows

theorem inside_execute (h : s.Inside cols rows) (byte : UInt8) :
    (s.execute byte).Inside cols rows ↔ s.Room cols rows (.execute byte) := by
  unfold Room
  dsimp only
  unfold AnchorStateMut.execute
  generalize Char.ofNat byte.toNat = c
  split
  · exact (inside_row h (Nat.zero_le _)).trans (add_lt_iff hrows)
  · exact iff_of_true (h.back (Nat.zero_le _) (Nat.le_refl _)) trivial
  · exact iff_of_true (h.back (Nat.sub_le _ _) (Nat.le_refl _)) trivial
  · exact (inside_col h).trans (mul_lt_iff hcols)
  · split
    · next hne _ _ _ => exact absurd rfl hne
    · next hne => exact absurd rfl hne
    · exact iff_of_true h trivial

theorem inside_csiDispatch (h : s.Inside cols rows) (params : List (List Nat)) (intermediates : List UInt8) (ignore : Bool)
    (action : UInt8) : (s.csiDispatch params intermediates action).Inside cols rows ↔
      s.Room cols rows (.csiDispatch params intermediates ignore action) := by
  have hmode : ∀ on, (s.modeSet params intermediates on).Inside cols rows := by
    intro on
    unfold AnchorStateMut.modeSet
    split <;> exact h
  have hcol := @pred_lt_iff (secondParam params 1) cols (Nat.zero_lt_of_lt h.1)
  have hcol' := @pred_lt_iff (firstParam params 1) cols (Nat.zero_lt_of_lt h.1)
  have hrow := @pred_lt_iff (firstParam params 1) rows (Nat.zero_lt_of_lt h.2)
  unfold Room
  dsimp only
  unfold AnchorStateMut.csiDispatch
  generalize Char.ofNat action.toNat = c
  split
  · exact iff_of_true h trivial
  · exact and_congr hcol hrow
  · exact and_congr hcol hrow
  · exact iff_of_true (h.back (Nat.le_refl _) (Nat.sub_le _ _)) trivial
  · exact (inside_row h (Nat.le_refl _)).trans (add_lt_iff hrows)
  · exact (inside_col h).trans (add_lt_iff hcols)
  · exact iff_of_true (h.back (Nat.sub_le _ _) (Nat.le_refl _)) trivial
  · exact (inside_row h (Nat.zero_le _)).trans (add_lt_iff hrows)
  · exact iff_of_true (h.back (Nat.zero_le _) (Nat.sub_le _ _)) trivial
  · exact (inside_col h).trans hcol'
  · exact (inside_row h (Nat.le_refl _)).trans hrow
  · exact iff_of_true (hmode true) trivial
  · exact iff_of_true (hmode false) trivial
  · refine iff_of_true h ?_
    split <;> trivial

/-- **One callback** leads off the screen exactly when it does not find its room. -/
theorem inside_perform (h : s.Inside cols rows) (e : Event) : (s.perform e).Inside cols rows ↔ s.Room cols rows e := by
  cases e with
  | print c => exact (inside_col h).trans (add_lt_iff hcols)
  | execute byte => exact inside_execute hcols hrows h byte
  | hook | put | unhook => exact iff_of_true h trivial
  | oscDispatch params bellTerminated =>
    refine iff_of_true ?_ trivial
    unfold AnchorStateMut.perform
    dsimp only
    split <;> exact h
  | csiDispatch params intermediates ignore action =>
    exact inside_csiDispatch hcols hrows h params intermediates ignore action
  | escDispatch intermediates ignore byte =>
    refine iff_of_true ?_ trivial
    unfold AnchorStateMut.perform AnchorStateMut.escDispatch
    dsimp only
    split
    · split <;> exact h
    · exact h

/-- **Some callbacks.** -/
theorem inside_states (events : List Event) (h : s.Inside cols rows) :
    (∀ t ∈ s.states events, t.Inside cols rows) ↔ s.AllRoom cols rows events := by
  induction events generalizing s with
  | nil => exact iff_of_true (fun t ht => absurd ht List.not_mem_nil) trivial
  | cons e events ih =>
    rw [states, AllRoom, List.forall_mem_cons, inside_perform hcols hrows h e]
    exact and_congr_right fun hroom => ih ((inside_perform hcols hrows h e).mpr hroom)

theorem inside_performAll {events : List Event} (h : s.Inside cols rows) (hroom : s.AllRoom cols rows events) :
    (s.performAll events).Inside cols rows := by
  induction events generalizing s with
  | nil => exact h
  | cons e events ih => exact ih ((inside_perform hcols hrows h e).mpr hroom.1) hroom.2

end AnchorStateMut

/-! ## The ring -/

namespace ScrollbackRing

variable {r : ScrollbackRing} {moves : List RingMove}

theorem dims_maybePlaceAnchor (r : ScrollbackRing) : r.maybePlaceAnchor.dims = r.dims := by
  unfold maybePlaceAnchor
  split
  · rfl
  · split <;> rfl

theorem dims_maybeEvict (r : ScrollbackRing) : r.maybeEvict.dims = r.dims := by
  refine evictLoop_invariant (I := fun r' => r'.dims = r.dims) (fun r₁ r₂ h hs => ?_) _ r rfl
  obtain ⟨target, _, _, _, rfl⟩ := evictStep_eq_some hs
  exact h

theorem dims_push : ∀ (chunk : List UInt8) (r : ScrollbackRing), (r.push chunk).dims = r.dims
  | [], _ => rfl
  | b :: chunk, r => by
    rw [push, List.foldl_cons, ← push, dims_push chunk, pushByte, dims_maybeEvict, dims_maybePlaceAnchor]
    rfl

theorem dims_new {cols rows : Nat} {capacity : Option Nat} (h : new cols rows capacity = .ok r) : r.dims = (cols, rows) := by
  unfold new at h
  dsimp only at h
  split at h
  · cases h
  · cases h
    exact dims_maybePlaceAnchor _

/-- Resizes do not move the tracker. -/
theorem tracker_after : ∀ (moves : List RingMove) (r : ScrollbackRing),
    (r.after moves).tracker = r.tracker.advance (pushedBytes moves)
  | [], _ => rfl
  | .push chunk :: moves, r => by
    show ((r.push chunk).after moves).tracker = r.tracker.advance (chunk ++ pushedBytes moves)
    rw [tracker_after moves, tracker_push, AnchorTracker.advance_append]
  | .setDims cols rows :: moves, r => tracker_after moves (r.setDims cols rows)

theorem onScreen_position (r : ScrollbackRing) : r.position.OnScreen ↔ r.tracker.state.Inside r.cols r.rows := Iff.rfl

/-- **One move** keeps the cursor on the screen throughout exactly when there is room for it. -/
theorem onScreen_moved (hcols : r.cols ≤ u16Max) (hrows : r.rows ≤ u16Max) (h : r.position.OnScreen) (move : RingMove) :
    (∀ p ∈ r.moved move, p.OnScreen) ↔ r.Room move := by
  cases move with
  | push chunk =>
    unfold moved Room
    rw [List.forall_mem_map]
    exact AnchorStateMut.inside_states hcols hrows _ h
  | setDims cols rows =>
    unfold moved Room
    rw [List.forall_mem_singleton]
    exact Iff.rfl

/-- Behind a move that has found room the cursor is on the screen. -/
theorem onScreen_move (hcols : r.cols ≤ u16Max) (hrows : r.rows ≤ u16Max) (h : r.position.OnScreen) {move : RingMove}
    (hroom : r.Room move) : (r.move move).position.OnScreen := by
  cases move with
  | push chunk =>
    obtain ⟨hpushCols, hpushRows⟩ := Prod.mk.inj (dims_push chunk r)
    show (r.push chunk).position.OnScreen
    rw [onScreen_position, hpushCols, hpushRows, tracker_push, AnchorTracker.state_advance]
    exact AnchorStateMut.inside_performAll hcols hrows h hroom
  | setDims cols rows => exact hroom

theorem inRange_move (hcols : r.cols ≤ u16Max) (hrows : r.rows ≤ u16Max) {move : RingMove} (hmove : move.InRange) :
    (r.move move).cols ≤ u16Max ∧ (r.move move).rows ≤ u16Max := by
  cases move with
  | push chunk =>
    obtain ⟨hpushCols, hpushRows⟩ := Prod.mk.inj (dims_push chunk r)
    show (r.push chunk).cols ≤ u16Max ∧ (r.push chunk).rows ≤ u16Max
    rw [hpushCols, hpushRows]
    exact ⟨hcols, hrows⟩
  | setDims cols rows => exact hmove

/-- **A run.** -/
theorem onScreen_positions : ∀ {moves : List RingMove} {r : ScrollbackRing}, r.cols ≤ u16Max → r.rows ≤ u16Max →
    (∀ move ∈ moves, move.InRange) → r.position.OnScreen →
    ((∀ p ∈ r.positions moves, p.OnScreen) ↔ r.AllRoom moves) ∧ (r.AllRoom moves → (r.after moves).position.OnScreen)
  | [], _, _, _, _, h => ⟨iff_of_true (fun p hp => absurd hp List.not_mem_nil) trivial, fun _ => h⟩
  | move :: moves, r, hcols, hrows, hmoves, h => by
    obtain ⟨hnextCols, hnextRows⟩ := inRange_move hcols hrows (hmoves move List.mem_cons_self)
    have hrest : ∀ move ∈ moves, move.InRange := fun move hmove => hmoves move (List.mem_cons_of_mem _ hmove)
    have hnext := fun hroom : r.Room move =>
      onScreen_positions hnextCols hnextRows hrest (onScreen_move hcols hrows h hroom)
    unfold positions AllRoom
    refine ⟨?_, fun hroom => (hnext hroom.1).2 hroom.2⟩
    rw [List.forall_mem_append, onScreen_moved hcols hrows h move]
    exact and_congr_right fun hroom => (hnext hroom).1

end ScrollbackRing

end CliPocket
