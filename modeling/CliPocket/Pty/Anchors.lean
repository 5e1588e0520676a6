import CliPocket.Lib.Steps
import CliPocket.Pty.Ring

/-!
# Anchors as resume points

A renderer starts at an anchor with a fresh parser, so an anchor is sound when the ring's own parser was in the
ground state there. The tracker's flag is a callback's word for it.

- `splitsSequence`: the bytes at which the flag is up inside a sequence, exactly (`advanceByte_splits_iff`);
- `anchors_resume`: every anchor is a resume point as long as no anchor is due at such a byte;
- `pushByte_splits`: an anchor due at such a byte is placed inside the sequence.
-/

namespace CliPocket

open Saturating (u64Max)

/-! ## The flag and the parser -/

/-- A control that executes inside an escape or CSI sequence, or the `ESC` that ends a string. -/
def splitsSequence (parser : Vte.State) (byte : UInt8) : Bool :=
  match parser with
  | .escape | .escapeIntermediate _ | .csiEntry | .csiParam _ | .csiIntermediate _ | .csiIgnore => Vte.isC0 byte
  | .oscString _ | .dcsPassthrough => byte == 0x1b
  | _ => false

/-- The flag after the callbacks of one byte. -/
def flagAfter (events : List Vte.Event) : Bool := events.foldl (fun _ e => safeSplitAfter e) false

/-- A byte after which the flag is up, though the parser is inside a sequence. -/
def Splits (p : Vte.State × List Vte.Event) : Prop := flagAfter p.2 = true ∧ p.1 ≠ .ground

theorem not_splits_nil (s : Vte.State) : ¬Splits (s, []) := fun h => Bool.false_ne_true h.1

theorem not_splits_ground (es : List Vte.Event) : ¬Splits (.ground, es) := fun h => h.2 rfl

/-- A callback that leaves the flag down. -/
theorem not_splits_one (s : Vte.State) {e : Vte.Event} (he : safeSplitAfter e = false) : ¬Splits (s, [e]) := fun h =>
  Bool.false_ne_true (he.symm.trans h.1)

theorem not_splits_ite {c : Prop} [Decidable c] {p q : Vte.State × List Vte.Event} (hp : ¬Splits p) (hq : ¬Splits q) :
    ¬Splits (if c then p else q) := by
  split
  · exact hp
  · exact hq

/-- Only the first branch splits. -/
theorem splits_ite_iff {c : Prop} [Decidable c] {p q : Vte.State × List Vte.Event} (hp : Splits p) (hq : ¬Splits q) :
    Splits (if c then p else q) ↔ c := by
  split
  · next hc => exact iff_of_true hp hc
  · next hc => exact iff_of_false hq hc

theorem row_splits_iff (s : Vte.State) (byte : UInt8) (h : s.inUtf8 = true ∨ (byte == 0x1b) = false) :
    Splits (s.row byte) ↔ splitsSequence s byte = true := by
  cases s with
  | ground =>
    exact iff_of_false (not_splits_ite (not_splits_ground _) (not_splits_ite (not_splits_ground _)
      (not_splits_ite (not_splits_ground _) (not_splits_ite (not_splits_nil _) (not_splits_ground _)))))
      Bool.false_ne_true
  | utf8 u point =>
    refine iff_of_false ?_ Bool.false_ne_true
    show ¬Splits (Vte.advanceUtf8 u point byte)
    unfold Vte.advanceUtf8
    split
    · exact not_splits_nil _
    · exact not_splits_ground _
    · exact not_splits_ground _
  | escape =>
    exact splits_ite_iff ⟨rfl, nofun⟩ (not_splits_ite (not_splits_nil _) (not_splits_ite (not_splits_nil _)
      (not_splits_ite (not_splits_nil _) (not_splits_ite (not_splits_nil _) (not_splits_ite (not_splits_nil _)
      (not_splits_ite (not_splits_ground _) (not_splits_nil _)))))))
  | escapeIntermediate r =>
    exact splits_ite_iff ⟨rfl, nofun⟩ (not_splits_ite (not_splits_nil _)
      (not_splits_ite (not_splits_ground _) (not_splits_nil _)))
  | csiEntry =>
    exact splits_ite_iff ⟨rfl, nofun⟩ (not_splits_ite (not_splits_nil _) (not_splits_ite (not_splits_nil _)
      (not_splits_ite (not_splits_nil _) (not_splits_ite (not_splits_ground _) (not_splits_nil _)))))
  | csiParam r =>
    exact splits_ite_iff ⟨rfl, nofun⟩ (not_splits_ite (not_splits_nil _) (not_splits_ite (not_splits_nil _)
      (not_splits_ite (not_splits_nil _) (not_splits_ite (not_splits_ground _) (not_splits_nil _)))))
  | csiIntermediate r =>
    exact splits_ite_iff ⟨rfl, nofun⟩ (not_splits_ite (not_splits_nil _) (not_splits_ite (not_splits_nil _)
      (not_splits_ite (not_splits_ground _) (not_splits_nil _))))
  | csiIgnore =>
    exact splits_ite_iff ⟨rfl, nofun⟩ (not_splits_ite (not_splits_ground _) (not_splits_nil _))
  | dcsEntry =>
    exact iff_of_false (not_splits_ite (not_splits_nil _) (not_splits_ite (not_splits_nil _)
      (not_splits_ite (not_splits_nil _) (not_splits_ite (not_splits_one _ rfl) (not_splits_nil _)))))
      Bool.false_ne_true
  | dcsParam r =>
    exact iff_of_false (not_splits_ite (not_splits_nil _) (not_splits_ite (not_splits_nil _)
      (not_splits_ite (not_splits_nil _) (not_splits_ite (not_splits_one _ rfl) (not_splits_nil _)))))
      Bool.false_ne_true
  | dcsIntermediate r =>
    exact iff_of_false (not_splits_ite (not_splits_nil _) (not_splits_ite (not_splits_nil _)
      (not_splits_ite (not_splits_one _ rfl) (not_splits_nil _)))) Bool.false_ne_true
  | dcsPassthrough =>
    have h := h.resolve_left Bool.false_ne_true
    exact iff_of_false (not_splits_ite (not_splits_one _ rfl) (not_splits_ite (not_splits_ground _)
      (not_splits_nil _))) fun hesc => Bool.false_ne_true (h.symm.trans hesc)
  | dcsIgnore => exact iff_of_false (not_splits_nil _) Bool.false_ne_true
  | oscString o =>
    have h := h.resolve_left Bool.false_ne_true
    exact iff_of_false (not_splits_ite (not_splits_ground _) (not_splits_ite (not_splits_nil _)
      (not_splits_nil _))) fun hesc => Bool.false_ne_true (h.symm.trans hesc)
  | sosPmApcString => exact iff_of_false (not_splits_nil _) Bool.false_ne_true

/-- **Where the flag is up inside a sequence.** -/
theorem advance_splits_iff (s : Vte.State) (byte : UInt8) :
    flagAfter (Vte.advance s byte).2 = true ∧ (Vte.advance s byte).1 ≠ .ground ↔ splitsSequence s byte = true := by
  unfold Vte.advance
  split
  · next hu => exact row_splits_iff s byte (Or.inl hu)
  split
  · next hc =>
    have hbyte : byte = 0x18 ∨ byte = 0x1a := by simpa using hc
    rcases hbyte with rfl | rfl <;> cases s <;> simp [splitsSequence, Vte.isC0, Vte.within]
  split
  · next he =>
    have hbyte : byte = 0x1b := by simpa using he
    subst hbyte
    cases s <;> simp [splitsSequence, Vte.isC0, Vte.within, Vte.State.leave, flagAfter, safeSplitAfter]
  · next he => exact row_splits_iff s byte (Or.inr (by simpa using he))

theorem AnchorTracker.advanceByte_splits_iff (t : AnchorTracker) (byte : UInt8) :
    (t.advanceByte byte).isAtSafeSplit = true ∧ (t.advanceByte byte).parser ≠ .ground ↔
      splitsSequence t.parser byte = true :=
  advance_splits_iff t.parser byte

/-! ## Resuming -/

/-- At the anchor's offset the parser of the whole stream is in the ground state. -/
def Anchor.Ground (L : List UInt8) (a : Anchor) : Prop :=
  (AnchorTracker.new.advance (L.take a.byteOffset)).parser = .ground

/-- Replaying the retained bytes from the anchor ends where the ring's own tracker is, and the anchor stands between
sequences of the stream `L`. -/
structure ResumePoint (r : ScrollbackRing) (L : List UInt8) (a : Anchor) : Prop where
  replay : ((AnchorTracker.resume a.state).advance (r.snapshotFromAnchor a).bytes).snapshotState =
    r.tracker.snapshotState
  ground : a.Ground L

/-- An anchor in the ground state is a resume point. -/
theorem Window.resumePoint {r : ScrollbackRing} {L : List UInt8} (h : Window r L) {a : Anchor} (ha : a ∈ r.anchors)
    (hg : a.Ground L) : ResumePoint r L a where
  replay := by
    have hparser : (AnchorTracker.resume a.state).parser = (AnchorTracker.new.advance (L.take a.byteOffset)).parser :=
      hg.symm
    have hstate : (AnchorTracker.resume a.state).state = (AnchorTracker.new.advance (L.take a.byteOffset)).state := by
      rw [h.state a ha]
      rfl
    rw [h.snapshotFromAnchor_bytes ha, AnchorTracker.advance_congr hparser hstate, ← AnchorTracker.advance_append,
      List.take_append_drop, h.tracker]
  ground := hg

/-- The anchors after one byte: those that were there, and one at the head when it was due and the flag is up. -/
theorem Window.mem_pushByte_anchors {r : ScrollbackRing} {L : List UInt8} (h : Window r L) (hL : L.length < u64Max)
    {b : UInt8} {a : Anchor} (ha : a ∈ (r.pushByte b).anchors) :
    a ∈ r.anchors ∨ r.anchorInterval ≤ r.bytesSinceAnchor + 1 ∧
      (r.tracker.advanceByte b).isAtSafeSplit = true ∧ a.byteOffset = L.length + 1 := by
  have happ := h.appendByte hL b
  have hplaced : a ∈ (r.appendByte b).maybePlaceAnchor.anchors :=
    (ScrollbackRing.evictLoop_invariant
      (I := fun r' => Window r' (L ++ [b]) ∧ ∀ x ∈ r'.anchors, x ∈ (r.appendByte b).maybePlaceAnchor.anchors)
      (fun r₁ r₂ hi hs => by
        have hlen : (L ++ [b]).length ≤ u64Max := by rw [List.length_append, List.length_singleton]; omega
        refine ⟨hi.1.evictStep hlen hs, fun x hx => hi.2 x ?_⟩
        obtain ⟨first, second, rest, hr, rfl⟩ := hi.1.evictStep_eq hlen hs
        rw [hr]
        exact List.mem_cons_of_mem _ hx)
      _ _ ⟨happ.maybePlaceAnchor, fun x hx => hx⟩).2 a ha
  rcases happ.maybePlaceAnchor_eq with ⟨_, he⟩ | ⟨⟨hdue, hsafe⟩, he⟩
  · rw [he] at hplaced
    exact Or.inl hplaced
  · rw [he] at hplaced
    rcases List.mem_append.mp hplaced with hm | hm
    · exact Or.inl hm
    · refine Or.inr ⟨Nat.le_trans hdue (Nat.min_le_left _ _), hsafe, ?_⟩
      rw [List.mem_singleton.mp hm]
      show (r.appendByte b).headSeq = _
      rw [happ.head, List.length_append, List.length_singleton]

/-! ## Placing anchors -/

/-- The push of one byte as a step. -/
def pushStep (r : ScrollbackRing) (b : UInt8) : Option ScrollbackRing := some (r.pushByte b)

/-- No anchor is due at a byte that raises the flag inside a sequence, and the head has not saturated. -/
def PlacesBetween (r : ScrollbackRing) (b : UInt8) : Prop :=
  r.headSeq < u64Max ∧ ¬(r.anchorInterval ≤ r.bytesSinceAnchor + 1 ∧ splitsSequence r.tracker.parser b = true)

instance (r : ScrollbackRing) (b : UInt8) : Decidable (PlacesBetween r b) :=
  inferInstanceAs (Decidable (_ ∧ _))

theorem Anchor.Ground.append {L : List UInt8} {a : Anchor} (h : a.Ground L) (hle : a.byteOffset ≤ L.length)
    (bs : List UInt8) : a.Ground (L ++ bs) := by
  unfold Anchor.Ground
  rw [List.take_append_of_le_length hle]
  exact h

/-- **One byte** keeps every anchor between sequences. -/
theorem Window.pushByte_ground {r : ScrollbackRing} {L : List UInt8} (h : Window r L)
    (hg : ∀ a ∈ r.anchors, a.Ground L) {b : UInt8} (hc : PlacesBetween r b) :
    ∀ a ∈ (r.pushByte b).anchors, a.Ground (L ++ [b]) := by
  intro a ha
  have hL : L.length < u64Max := by
    rw [← h.head]
    exact hc.1
  rcases h.mem_pushByte_anchors hL ha with hm | ⟨hdue, hsafe, hoff⟩
  · exact (hg a hm).append (h.offset_le a hm) [b]
  · unfold Anchor.Ground
    rw [hoff, List.take_of_length_le (by simp), AnchorTracker.advance_concat, ← h.tracker]
    have hiff := r.tracker.advanceByte_splits_iff b
    have hnot := hc.2
    by_contra hne
    exact hnot ⟨hdue, hiff.mp ⟨hsafe, hne⟩⟩

/-- Any output that meets the condition at every byte. -/
theorem Window.push_ground : ∀ (bs : List UInt8) {r : ScrollbackRing} {L : List UInt8}, Window r L →
    (∀ a ∈ r.anchors, a.Ground L) → Steps.Meets pushStep PlacesBetween r bs →
    Window (r.push bs) (L ++ bs) ∧ ∀ a ∈ (r.push bs).anchors, a.Ground (L ++ bs)
  | [], r, L, h, hg, _ => by
    rw [List.append_nil]
    exact ⟨h, hg⟩
  | b :: bs, r, L, h, hg, hm => by
    obtain ⟨hc, hm'⟩ := Steps.meets_cons_some rfl hm
    have hL : L.length < u64Max := by
      rw [← h.head]
      exact hc.1
    have hrest := Window.push_ground bs (h.pushByte hL b) (h.pushByte_ground hg hc) hm'
    rwa [List.append_assoc] at hrest

/-- **Anchors are resume points** of every ring that, byte by byte, placed no anchor where the flag is up inside a
sequence. -/
theorem anchors_resume {cols rows : Nat} {capacity : Option Nat} {r₀ : ScrollbackRing}
    (hnew : ScrollbackRing.new cols rows capacity = .ok r₀) (chunks : List (List UInt8))
    (hc : Steps.Meets pushStep PlacesBetween r₀ chunks.flatten) :
    ∀ a ∈ (chunks.foldl ScrollbackRing.push r₀).anchors,
      ResumePoint (chunks.foldl ScrollbackRing.push r₀) chunks.flatten a := by
  have hpush : chunks.foldl ScrollbackRing.push r₀ = r₀.push chunks.flatten := by
    unfold ScrollbackRing.push
    rw [List.foldl_flatten]
  have h₀ := ScrollbackRing.new_window hnew
  have hg₀ : ∀ a ∈ r₀.anchors, a.Ground [] := fun a ha => by
    unfold Anchor.Ground
    rw [List.take_nil]
    rfl
  obtain ⟨hw, hg⟩ := h₀.push_ground chunks.flatten hg₀ hc
  rw [List.nil_append] at hw hg
  rw [hpush]
  exact fun a ha => hw.resumePoint ha (hg a ha)

/-- Output that mixes text and a CSI sequence, in a ring that holds one byte and places an anchor after every safe
byte. -/
theorem anchors_resume_one_byte_ring :
    List.Forall
      (ResumePoint
        ([['a'.toUInt8, 0x1b], ['['.toUInt8, '1'.toUInt8, 'm'.toUInt8, 0x0a]].foldl ScrollbackRing.push
          (ScrollbackRing.empty 80 24 1).maybePlaceAnchor)
        [['a'.toUInt8, 0x1b], ['['.toUInt8, '1'.toUInt8, 'm'.toUInt8, 0x0a]].flatten)
      ([['a'.toUInt8, 0x1b], ['['.toUInt8, '1'.toUInt8, 'm'.toUInt8, 0x0a]].foldl ScrollbackRing.push
        (ScrollbackRing.empty 80 24 1).maybePlaceAnchor).anchors :=
  List.forall_iff_forall_mem.mpr
    (anchors_resume (show ScrollbackRing.new 80 24 (some 1) = .ok _ from rfl) _ (by decide +kernel))

/-- `ESC [ 1 LF m`: the line feed executes inside the sequence, the anchor behind it sees a letter where the ring
sees bold type. -/
theorem anchors_resume_fails :
    ¬ ∀ (cols rows : Nat) (capacity : Option Nat) (r₀ : ScrollbackRing) (chunks : List (List UInt8)),
      ScrollbackRing.new cols rows capacity = .ok r₀ →
      ∀ a ∈ (chunks.foldl ScrollbackRing.push r₀).anchors,
        ResumePoint (chunks.foldl ScrollbackRing.push r₀) chunks.flatten a := by
  intro h
  have hall := h 80 24 (some 1) _ [[0x1b, '['.toUInt8, '1'.toUInt8, 0x0a, 'm'.toUInt8]] rfl
  have hreplay := fun a ha => (hall a ha).replay
  revert hreplay
  decide +kernel

/-! ## The condition is exact -/

/-- **An anchor due at a byte that raises the flag inside a sequence** is placed there. -/
theorem Window.pushByte_splits {r : ScrollbackRing} {L : List UInt8} (h : Window r L) (hL : L.length < u64Max)
    {b : UInt8} (hdue : r.anchorInterval ≤ r.bytesSinceAnchor + 1) (hs : splitsSequence r.tracker.parser b = true) :
    ∃ a ∈ (r.pushByte b).anchors, ¬a.Ground (L ++ [b]) := by
  have happ := h.appendByte hL b
  have hsince := h.bytesSinceAnchor_le
  obtain ⟨hsafe, hparser⟩ := (r.tracker.advanceByte_splits_iff b).mpr hs
  have hdue' : (r.appendByte b).anchorInterval ≤ (r.appendByte b).bytesSinceAnchor := by
    show r.anchorInterval ≤ Saturating.add u64Max r.bytesSinceAnchor 1
    rw [Saturating.add_eq (by omega)]
    exact hdue
  rcases happ.maybePlaceAnchor_eq with ⟨hnot, _⟩ | ⟨_, he⟩
  · exact absurd ⟨hdue', hsafe⟩ hnot
  -- The new anchor is the last one, and eviction only takes anchors from the front.
  have hlast : (r.pushByte b).anchors.getLast?.map Anchor.byteOffset = some (L ++ [b]).length :=
    (ScrollbackRing.evictLoop_invariant
      (I := fun r' => Window r' (L ++ [b]) ∧ r'.anchors.getLast?.map Anchor.byteOffset = some (L ++ [b]).length)
      (fun r₁ r₂ hi hs => by
        have hlen : (L ++ [b]).length ≤ u64Max := by rw [List.length_append, List.length_singleton]; omega
        refine ⟨hi.1.evictStep hlen hs, ?_⟩
        obtain ⟨first, second, rest, hr, rfl⟩ := hi.1.evictStep_eq hlen hs
        have hl := hi.2
        rw [hr] at hl
        exact hl)
      _ _ ⟨happ.maybePlaceAnchor, by rw [he, List.getLast?_concat, Option.map_some, happ.head]⟩).2
  obtain ⟨a, ha, hoff⟩ := Option.map_eq_some_iff.mp hlast
  refine ⟨a, List.mem_of_getLast? ha, ?_⟩
  unfold Anchor.Ground
  rw [hoff, List.take_length, AnchorTracker.advance_concat, ← h.tracker]
  exact hparser

/-- A stream of less than `2 ^ 64` bytes whose anchors always stand between sequences meets the condition at every
byte. -/
theorem Window.meets_of_ground : ∀ (bs : List UInt8) {r : ScrollbackRing} {L : List UInt8}, Window r L →
    L.length + bs.length ≤ u64Max → (∀ p, p <+: bs → ∀ a ∈ (r.push p).anchors, a.Ground (L ++ p)) →
    Steps.Meets pushStep PlacesBetween r bs
  | [], _, _, _, _, _ => trivial
  | b :: bs, r, L, h, hL, hg => by
    rw [List.length_cons] at hL
    have hlt : L.length < u64Max := by omega
    refine ⟨⟨by rw [h.head]; exact hlt, fun hsplit => ?_⟩, ?_⟩
    · obtain ⟨a, ha, hne⟩ := h.pushByte_splits hlt hsplit.1 hsplit.2
      exact hne (hg [b] ⟨bs, rfl⟩ a ha)
    · refine (h.pushByte hlt b).meets_of_ground bs
        (by rw [List.length_append, List.length_singleton]; omega) fun p hp a ha => ?_
      have hp' : b :: p <+: b :: bs := List.cons_prefix_cons.mpr ⟨rfl, hp⟩
      rw [List.append_assoc]
      exact hg (b :: p) hp' a ha

end CliPocket
