import CliPocket.Pty.Parser

/-!
# The scrollback ring

The last bytes of a terminal's output, with anchors: offsets at which a renderer can start, and the tracked state
there. `usize` is 64 bits wide.

- `ScrollbackRing.pushByte`, `push`: one byte, one chunk; the eviction loop is `evictLoop`, whose fuel is enough
  (`evictStep_evictLoop`);
- `Window`: what the ring is after the byte log `L` (`pushByte_window`).
-/

namespace CliPocket

open Saturating (u64Max)

def defaultCapacityBytes : Nat := 4 * 1024 * 1024

def defaultAnchorInterval : Nat := 64 * 1024

def maxCapacityBytes : Nat := 64 * 1024 * 1024

inductive RingError
  | capacityTooLarge (capacity : Nat)
  deriving DecidableEq

structure Anchor where
  byteOffset : Nat
  state : AnchorState
  deriving DecidableEq

structure HistorySlice where
  startSeq : StreamSeq
  endSeq : StreamSeq
  bytes : List UInt8
  hasMore : Bool
  deriving DecidableEq

structure ScrollbackRing where
  bytes : List UInt8
  anchors : List Anchor
  headSeq : StreamSeq
  tailOffset : Nat
  tracker : AnchorTracker
  bytesSinceAnchor : Nat
  cap : Nat
  anchorInterval : Nat
  cols : Nat
  rows : Nat
  deriving DecidableEq

def offsetToRelative (offset tailOffset : Nat) : Nat := offset - tailOffset

namespace ScrollbackRing

/-! ## Operations -/

def maybePlaceAnchor (r : ScrollbackRing) : ScrollbackRing :=
  if !r.anchors.isEmpty && decide (r.bytesSinceAnchor < r.anchorInterval) then r
  else if !r.anchors.isEmpty && !r.tracker.isAtSafeSplit then r
  else
    { r with
      anchors := r.anchors ++ [{ byteOffset := r.headSeq, state := r.tracker.snapshotState }]
      bytesSinceAnchor := 0 }

def evictionTarget (r : ScrollbackRing) : Option Nat :=
  (r.anchors[1]?.map Anchor.byteOffset).filter fun offset => decide (r.tailOffset < offset)

/-- The loop of `drop_stale_anchors`. -/
def dropStale (tailOffset : Nat) : List Anchor → List Anchor
  | a :: b :: rest => if b.byteOffset ≤ tailOffset then dropStale tailOffset (b :: rest) else a :: b :: rest
  | anchors => anchors

def dropStaleAnchors (r : ScrollbackRing) : ScrollbackRing :=
  { r with anchors := dropStale r.tailOffset r.anchors }

/-- One turn of the eviction loop; `none` when the loop ends. -/
def evictStep (r : ScrollbackRing) : Option ScrollbackRing :=
  if r.cap < r.bytes.length then
    match r.evictionTarget with
    | none => none
    | some target =>
      let toDrop := offsetToRelative target r.tailOffset
      if toDrop = 0 then none
      else
        some (dropStaleAnchors
          { r with bytes := r.bytes.drop toDrop, tailOffset := Saturating.add u64Max r.tailOffset toDrop })
  else none

def evictLoop : Nat → ScrollbackRing → ScrollbackRing
  | 0, r => r
  | fuel + 1, r =>
    match r.evictStep with
    | none => r
    | some r' => evictLoop fuel r'

/-- Every turn takes at least one byte. -/
def maybeEvict (r : ScrollbackRing) : ScrollbackRing := evictLoop r.bytes.length r

/-- The ring before its first anchor. -/
def empty (cols rows cap : Nat) : ScrollbackRing where
  bytes := []
  anchors := []
  headSeq := 0
  tailOffset := 0
  tracker := AnchorTracker.new
  bytesSinceAnchor := u64Max
  cap := cap
  anchorInterval := min defaultAnchorInterval (max cap 1)
  cols := cols
  rows := rows

def new (cols rows : Nat) (capacity : Option Nat) : Except RingError ScrollbackRing :=
  let cap := capacity.getD defaultCapacityBytes
  if maxCapacityBytes < cap then .error (.capacityTooLarge cap) else .ok (empty cols rows cap).maybePlaceAnchor

def tailSeq (r : ScrollbackRing) : StreamSeq := r.tailOffset

def dims (r : ScrollbackRing) : Nat × Nat := (r.cols, r.rows)

def cursor (r : ScrollbackRing) : Nat × Nat := r.tracker.snapshotState.cursor

def setDims (r : ScrollbackRing) (cols rows : Nat) : ScrollbackRing := { r with cols := cols, rows := rows }

/-- The byte has been appended; anchors and eviction follow. -/
def appendByte (r : ScrollbackRing) (byte : UInt8) : ScrollbackRing :=
  { r with
    tracker := r.tracker.advance [byte]
    bytes := r.bytes ++ [byte]
    headSeq := Saturating.add u64Max r.headSeq 1
    bytesSinceAnchor := Saturating.add u64Max r.bytesSinceAnchor 1 }

/-- One turn of the loop of `push`. -/
def pushByte (r : ScrollbackRing) (byte : UInt8) : ScrollbackRing := (r.appendByte byte).maybePlaceAnchor.maybeEvict

def push (r : ScrollbackRing) (chunk : List UInt8) : ScrollbackRing := chunk.foldl pushByte r

def snapshotFromAnchor (r : ScrollbackRing) (anchor : Anchor) : Snapshot where
  cols := r.cols
  rows := r.rows
  anchorState := anchor.state
  bytes := r.bytes.drop (offsetToRelative anchor.byteOffset r.tailOffset)
  headSeq := r.headSeq

def snapshot (r : ScrollbackRing) : Snapshot :=
  r.snapshotFromAnchor (r.anchors.head?.getD { byteOffset := r.tailOffset, state := r.tracker.snapshotState })

def snapshotWithMaxBytes (r : ScrollbackRing) (maxBytes : Nat) : Snapshot :=
  match r.anchors.reverse.find? fun anchor => decide (r.headSeq - anchor.byteOffset ≤ maxBytes) with
  | none =>
    { cols := r.cols, rows := r.rows, anchorState := r.tracker.snapshotState, bytes := [], headSeq := r.headSeq }
  | some anchor => r.snapshotFromAnchor anchor

def since (r : ScrollbackRing) (seq : StreamSeq) : Option DeltaSlice :=
  if seq < r.tailOffset then none
  else if r.headSeq < seq then none
  else some { bytes := r.bytes.drop (offsetToRelative seq r.tailOffset), headSeq := r.headSeq }

/-- `Ord::clamp`. -/
def clamp (value lo hi : Nat) : Nat := if value < lo then lo else if hi < value then hi else value

def historyPage (r : ScrollbackRing) (before : Option StreamSeq) (maxBytes : Nat) : HistorySlice :=
  let endOffset := clamp (before.getD r.headSeq) r.tailOffset r.headSeq
  let pageLen := min (endOffset - r.tailOffset) maxBytes
  let startOffset := endOffset - pageLen
  { startSeq := startOffset
    endSeq := endOffset
    bytes := (r.bytes.drop (offsetToRelative startOffset r.tailOffset)).take pageLen
    hasMore := decide (r.tailOffset < startOffset) }

/-! ## The eviction loop -/

/-- What a turn of the loop does. -/
theorem evictStep_eq_some {r r' : ScrollbackRing} (h : r.evictStep = some r') :
    ∃ target, r.cap < r.bytes.length ∧ r.evictionTarget = some target ∧ r.tailOffset < target ∧
      r' = dropStaleAnchors { r with
        bytes := r.bytes.drop (target - r.tailOffset),
        tailOffset := Saturating.add u64Max r.tailOffset (target - r.tailOffset) } := by
  unfold evictStep offsetToRelative at h
  split at h
  · next hcap =>
    split at h
    · cases h
    · next target ht =>
      dsimp only at h
      split at h
      · cases h
      · next hd => exact ⟨target, hcap, ht, by omega, (Option.some.inj h).symm⟩
  · cases h

theorem evictStep_length_lt {r r' : ScrollbackRing} (h : r.evictStep = some r') :
    r'.bytes.length < r.bytes.length := by
  obtain ⟨target, hcap, _, ht, rfl⟩ := evictStep_eq_some h
  simp only [dropStaleAnchors, List.length_drop]
  omega

/-- **The fuel is enough**: after the loop no turn is left. -/
theorem evictStep_evictLoop : ∀ (fuel : Nat) (r : ScrollbackRing), r.bytes.length ≤ fuel →
    (evictLoop fuel r).evictStep = none
  | 0, r, h => by
    unfold evictLoop evictStep
    rw [if_neg (by omega)]
  | fuel + 1, r, h => by
    unfold evictLoop
    cases hs : r.evictStep with
    | none => exact hs
    | some r' =>
      have := evictStep_length_lt hs
      exact evictStep_evictLoop fuel r' (by omega)

/-- What every turn keeps, the loop keeps. -/
theorem evictLoop_invariant {I : ScrollbackRing → Prop} (hI : ∀ r r', I r → r.evictStep = some r' → I r') :
    ∀ (fuel : Nat) (r : ScrollbackRing), I r → I (evictLoop fuel r)
  | 0, _, h => h
  | fuel + 1, r, h => by
    unfold evictLoop
    cases hs : r.evictStep with
    | none => exact h
    | some r' => exact evictLoop_invariant hI fuel r' (hI r r' h hs)

theorem tracker_maybePlaceAnchor (r : ScrollbackRing) : r.maybePlaceAnchor.tracker = r.tracker := by
  unfold maybePlaceAnchor
  split
  · rfl
  · split <;> rfl

theorem tracker_maybeEvict (r : ScrollbackRing) : r.maybeEvict.tracker = r.tracker := by
  refine evictLoop_invariant (I := fun r' => r'.tracker = r.tracker) (fun r₁ r₂ h hs => ?_) _ r rfl
  obtain ⟨target, _, _, _, rfl⟩ := evictStep_eq_some hs
  exact h

/-- The tracker follows all that is pushed. -/
theorem tracker_push : ∀ (chunk : List UInt8) (r : ScrollbackRing), (r.push chunk).tracker = r.tracker.advance chunk
  | [], _ => rfl
  | b :: chunk, r => by
    rw [push, List.foldl_cons, ← push, tracker_push chunk, pushByte, tracker_maybeEvict, tracker_maybePlaceAnchor]
    rfl

theorem tracker_new {cols rows : Nat} {capacity : Option Nat} {r : ScrollbackRing} (h : new cols rows capacity = .ok r) :
    r.tracker = AnchorTracker.new := by
  unfold new at h
  dsimp only at h
  split at h
  · cases h
  · cases h
    exact tracker_maybePlaceAnchor _

end ScrollbackRing

/-! ## The ring after a byte log -/

/-- The ring as a window of the log `L` it was fed: the anchors start at the tail and hold the tracked states. -/
structure Window (r : ScrollbackRing) (L : List UInt8) : Prop where
  tracker : r.tracker = AnchorTracker.new.advance L
  head : r.headSeq = L.length
  tail_le : r.tailOffset ≤ L.length
  bytes : r.bytes = L.drop r.tailOffset
  first : r.anchors.head?.map Anchor.byteOffset = some r.tailOffset
  sorted : r.anchors.Pairwise fun a b => a.byteOffset < b.byteOffset
  offset_le : ∀ a ∈ r.anchors, a.byteOffset ≤ L.length
  since : r.anchors.getLast?.map (fun a => a.byteOffset + r.bytesSinceAnchor) = some L.length
  state : ∀ a ∈ r.anchors, a.state = (AnchorTracker.new.advance (L.take a.byteOffset)).snapshotState
  interval_pos : 0 < r.anchorInterval

namespace Window

variable {r r' : ScrollbackRing} {L : List UInt8}

theorem anchors_ne_nil (h : Window r L) : r.anchors ≠ [] := by
  intro he
  have hf := h.first
  rw [he] at hf
  cases hf

/-- The last anchor, and the anchors before it. -/
theorem exists_last (h : Window r L) :
    ∃ before last, r.anchors = before ++ [last] ∧ last.byteOffset + r.bytesSinceAnchor = L.length ∧
      ∀ a ∈ before, a.byteOffset < last.byteOffset := by
  obtain ⟨before, last, ha⟩ : ∃ before last, r.anchors = before ++ [last] :=
    ⟨_, _, (List.dropLast_append_getLast h.anchors_ne_nil).symm⟩
  have hs := h.since
  have hp := h.sorted
  rw [ha] at hs hp
  simp only [List.getLast?_concat, Option.map_some, Option.some.injEq] at hs
  exact ⟨before, last, ha, hs, fun a hm => (List.pairwise_append.mp hp).2.2 a hm last (List.mem_singleton.mpr rfl)⟩

theorem bytesSinceAnchor_le (h : Window r L) : r.bytesSinceAnchor ≤ L.length := by
  obtain ⟨_, _, _, hs, _⟩ := h.exists_last
  omega

/-- Appending a byte, before the head saturates. -/
theorem appendByte (h : Window r L) (hL : L.length < u64Max) (b : UInt8) : Window (r.appendByte b) (L ++ [b]) where
  tracker := by
    show r.tracker.advance [b] = _
    rw [h.tracker, ← AnchorTracker.advance_append]
  head := by
    show Saturating.add u64Max r.headSeq 1 = _
    rw [h.head, Saturating.add_eq hL, List.length_append, List.length_singleton]
  tail_le := by
    rw [List.length_append]
    exact Nat.le_add_right_of_le h.tail_le
  bytes := by
    show r.bytes ++ [b] = (L ++ [b]).drop r.tailOffset
    rw [h.bytes, List.drop_append_of_le_length h.tail_le]
  first := h.first
  sorted := h.sorted
  offset_le := fun a ha => by
    rw [List.length_append]
    exact Nat.le_add_right_of_le (h.offset_le a ha)
  since := by
    obtain ⟨before, last, ha, hs, _⟩ := h.exists_last
    have hle := h.bytesSinceAnchor_le
    show r.anchors.getLast?.map (fun a => a.byteOffset + Saturating.add u64Max r.bytesSinceAnchor 1) = _
    rw [ha, List.getLast?_concat, Option.map_some, Saturating.add_eq (by omega), List.length_append,
      List.length_singleton, ← hs, Nat.add_assoc]
  state := fun a ha => by
    rw [List.take_append_of_le_length (h.offset_le a ha)]
    exact h.state a ha
  interval_pos := h.interval_pos

/-- An anchor is placed when it is due and the flag is up. -/
theorem maybePlaceAnchor_eq (h : Window r L) :
    ¬(r.anchorInterval ≤ r.bytesSinceAnchor ∧ r.tracker.isAtSafeSplit = true) ∧ r.maybePlaceAnchor = r ∨
      (r.anchorInterval ≤ r.bytesSinceAnchor ∧ r.tracker.isAtSafeSplit = true) ∧
        r.maybePlaceAnchor = { r with
          anchors := r.anchors ++ [{ byteOffset := r.headSeq, state := r.tracker.snapshotState }]
          bytesSinceAnchor := 0 } := by
  have hne : r.anchors.isEmpty = false := by simpa using h.anchors_ne_nil
  unfold ScrollbackRing.maybePlaceAnchor
  simp only [hne, Bool.not_false, Bool.true_and, decide_eq_true_eq, Bool.not_eq_true']
  split_ifs with h₁ h₂
  · exact Or.inl ⟨fun hd => Nat.not_le.mpr h₁ hd.1, rfl⟩
  · exact Or.inl ⟨fun hd => Bool.false_ne_true (h₂.symm.trans hd.2), rfl⟩
  · exact Or.inr ⟨⟨Nat.not_lt.mp h₁, (Bool.not_eq_false _).mp h₂⟩, rfl⟩

/-- Placing an anchor. -/
theorem maybePlaceAnchor (h : Window r L) : Window r.maybePlaceAnchor L := by
  rcases h.maybePlaceAnchor_eq with ⟨_, he⟩ | ⟨⟨hdue, _⟩, he⟩
  · rw [he]
    exact h
  rw [he]
  obtain ⟨before, last, ha, hs, hlt⟩ := h.exists_last
  have hpos := h.interval_pos
  have hmem : ∀ a ∈ r.anchors, a.byteOffset < r.headSeq := by
    intro a hm
    rw [ha, List.mem_append, List.mem_singleton] at hm
    rw [h.head]
    rcases hm with hm | rfl
    · have := hlt a hm
      omega
    · omega
  refine { h with first := ?_, sorted := ?_, offset_le := ?_, since := ?_, state := ?_ }
  · show (r.anchors ++ [_]).head?.map Anchor.byteOffset = some r.tailOffset
    rw [List.head?_append_of_ne_nil _ h.anchors_ne_nil]
    exact h.first
  · refine List.pairwise_append.mpr ⟨h.sorted, List.pairwise_singleton _ _, fun a hm b hb => ?_⟩
    rw [List.mem_singleton.mp hb]
    exact hmem a hm
  · intro a hm
    rcases List.mem_append.mp hm with hm | hm
    · exact h.offset_le a hm
    · rw [List.mem_singleton.mp hm]
      exact Nat.le_of_eq h.head
  · show (r.anchors ++ [_]).getLast?.map (fun a : Anchor => a.byteOffset + 0) = some L.length
    rw [List.getLast?_concat, Option.map_some, h.head]
    rfl
  · intro a hm
    rcases List.mem_append.mp hm with hm | hm
    · exact h.state a hm
    · rw [List.mem_singleton.mp hm, h.tracker]
      show _ = (AnchorTracker.new.advance (L.take r.headSeq)).snapshotState
      rw [h.head, List.take_length]

/-- A turn of the eviction loop moves the tail to the second anchor and forgets the first. -/
theorem evictStep_eq (h : Window r L) (hL : L.length ≤ u64Max) (hs : r.evictStep = some r') :
    ∃ first second rest, r.anchors = first :: second :: rest ∧ r' = { r with
      bytes := L.drop second.byteOffset, tailOffset := second.byteOffset, anchors := second :: rest } := by
  obtain ⟨target, _, ht, hlt, rfl⟩ := ScrollbackRing.evictStep_eq_some hs
  unfold ScrollbackRing.evictionTarget at ht
  rw [Option.filter_eq_some_iff] at ht
  obtain ⟨ht, _⟩ := ht
  obtain ⟨second, hsecond, rfl⟩ := Option.map_eq_some_iff.mp ht
  match ha : r.anchors, hsecond with
  | first :: second' :: rest, hsecond =>
    cases hsecond
    have hle := h.offset_le second (by rw [ha]; simp)
    have htail : Saturating.add u64Max r.tailOffset (second.byteOffset - r.tailOffset) = second.byteOffset := by
      rw [Saturating.add_eq (by omega)]
      omega
    have hstale : ScrollbackRing.dropStale second.byteOffset (first :: second :: rest) = second :: rest := by
      have hsorted := h.sorted
      rw [ha] at hsorted
      rw [ScrollbackRing.dropStale, if_pos (Nat.le_refl _)]
      match rest with
      | [] => rfl
      | third :: rest =>
        rw [ScrollbackRing.dropStale, if_neg]
        exact Nat.not_le.mpr ((List.pairwise_cons.mp (List.pairwise_cons.mp hsorted).2).1 third List.mem_cons_self)
    refine ⟨first, second, rest, rfl, ?_⟩
    simp only [ScrollbackRing.dropStaleAnchors, htail, hstale, h.bytes, List.drop_drop]
    congr 2
    omega

theorem evictStep (h : Window r L) (hL : L.length ≤ u64Max) (hs : r.evictStep = some r') : Window r' L := by
  obtain ⟨first, second, rest, ha, rfl⟩ := h.evictStep_eq hL hs
  have hsorted := h.sorted
  have hsince := h.since
  rw [ha] at hsorted hsince
  have hmem : ∀ a ∈ second :: rest, a ∈ r.anchors := fun a hm => by
    rw [ha]
    exact List.mem_cons_of_mem _ hm
  exact { h with
    tail_le := h.offset_le second (hmem second List.mem_cons_self)
    bytes := rfl
    first := rfl
    sorted := (List.pairwise_cons.mp hsorted).2
    offset_le := fun a hm => h.offset_le a (hmem a hm)
    since := hsince
    state := fun a hm => h.state a (hmem a hm) }

theorem maybeEvict (h : Window r L) (hL : L.length ≤ u64Max) : Window r.maybeEvict L :=
  ScrollbackRing.evictLoop_invariant (I := fun r => Window r L) (fun _ _ h hs => h.evictStep hL hs) _ r h

/-- **One byte of output.** -/
theorem pushByte (h : Window r L) (hL : L.length < u64Max) (b : UInt8) : Window (r.pushByte b) (L ++ [b]) :=
  (h.appendByte hL b).maybePlaceAnchor.maybeEvict (by rw [List.length_append, List.length_singleton]; omega)

theorem tail_le_offset (h : Window r L) : ∀ a ∈ r.anchors, r.tailOffset ≤ a.byteOffset := by
  intro a ha
  have hfirst := h.first
  have hsorted := h.sorted
  cases hanchors : r.anchors with
  | nil =>
    rw [hanchors] at ha
    cases ha
  | cons first rest =>
    rw [hanchors] at ha hfirst hsorted
    have htail : first.byteOffset = r.tailOffset := Option.some.inj hfirst
    rcases List.mem_cons.mp ha with rfl | ha
    · exact Nat.le_of_eq htail.symm
    · have hlt := (List.pairwise_cons.mp hsorted).1 a ha
      omega

theorem drop_bytes (h : Window r L) {offset : Nat} (hoffset : r.tailOffset ≤ offset) :
    r.bytes.drop (offsetToRelative offset r.tailOffset) = L.drop offset := by
  unfold offsetToRelative
  rw [h.bytes, List.drop_drop]
  congr 1
  omega

/-- The bytes of a snapshot are the stream from the anchor on. -/
theorem snapshotFromAnchor_bytes (h : Window r L) {a : Anchor} (ha : a ∈ r.anchors) :
    (r.snapshotFromAnchor a).bytes = L.drop a.byteOffset := h.drop_bytes (h.tail_le_offset a ha)

end Window

namespace ScrollbackRing

/-- A new ring is the window of the empty log. -/
theorem new_window {cols rows : Nat} {capacity : Option Nat} {r : ScrollbackRing} (h : new cols rows capacity = .ok r) :
    Window r [] := by
  unfold new at h
  dsimp only at h
  split at h
  · cases h
  · cases h
    exact
      { tracker := rfl
        head := rfl
        tail_le := Nat.le_refl _
        bytes := rfl
        first := rfl
        sorted := List.pairwise_singleton _ _
        offset_le := fun a hm => by rw [List.mem_singleton.mp hm]; exact Nat.le_refl _
        since := rfl
        state := fun a hm => by rw [List.mem_singleton.mp hm]; rfl
        interval_pos := by
          show 0 < min defaultAnchorInterval (max (capacity.getD defaultCapacityBytes) 1)
          unfold defaultAnchorInterval
          omega }

theorem push_cons (r : ScrollbackRing) (b : UInt8) (bs : List UInt8) : r.push (b :: bs) = (r.pushByte b).push bs := rfl

end ScrollbackRing

/-- **Any output** of less than `2 ^ 64` bytes. -/
theorem Window.push : ∀ {r : ScrollbackRing} {L : List UInt8} (chunk : List UInt8), Window r L →
    L.length + chunk.length ≤ u64Max → Window (r.push chunk) (L ++ chunk)
  | r, L, [], h, _ => by
    rw [List.append_nil]
    exact h
  | r, L, b :: bs, h, hL => by
    rw [List.length_cons] at hL
    have hp := Window.push bs (h.pushByte (by omega) b) (by rw [List.length_append, List.length_singleton]; omega)
    rwa [List.append_assoc] at hp

end CliPocket
