import CliPocket.Pty.Ring

/-!
# The ring refines the byte log

What is read from a ring, against the log `L` of all bytes pushed.

- `Window.since_eq`, `snapshot_bytes`, `snapshotWithMaxBytes_cases`, `historyPage_eq`: one lemma for each read;
- `Window.anchors_of_full`: only a ring with one anchor left keeps more than its capacity;
- `ring_refines_log`: **all of it, for every capacity and every sequence of pushes.**
-/

namespace CliPocket

open Saturating (u64Max)

/-! ## The capacity -/

namespace ScrollbackRing

theorem maybePlaceAnchor_cap (r : ScrollbackRing) : r.maybePlaceAnchor.cap = r.cap := by
  unfold maybePlaceAnchor
  split_ifs <;> rfl

theorem maybeEvict_cap (r : ScrollbackRing) : r.maybeEvict.cap = r.cap := by
  apply evictLoop_invariant (I := fun s => s.cap = r.cap)
  · intro s s' hs hstep
    obtain ⟨_, _, _, _, rfl⟩ := evictStep_eq_some hstep
    exact hs
  · rfl

theorem push_cap : ∀ (chunk : List UInt8) (r : ScrollbackRing), (r.push chunk).cap = r.cap
  | [], _ => rfl
  | b :: bs, r => by
    rw [push_cons, push_cap bs]
    show (r.appendByte b).maybePlaceAnchor.maybeEvict.cap = r.cap
    rw [maybeEvict_cap, maybePlaceAnchor_cap]
    rfl

theorem new_cap {cols rows : Nat} {capacity : Option Nat} {r : ScrollbackRing} (h : new cols rows capacity = .ok r) :
    r.cap = capacity.getD defaultCapacityBytes := by
  unfold new at h
  dsimp only at h
  split at h
  · cases h
  · cases h
    exact maybePlaceAnchor_cap _

/-- After a push the eviction loop has nothing more to do. -/
def Settled (r : ScrollbackRing) : Prop := r.evictStep = none

theorem settled_push : ∀ (chunk : List UInt8) {r : ScrollbackRing}, r.Settled → (r.push chunk).Settled
  | [], _, h => h
  | b :: bs, r, _ => settled_push bs (evictStep_evictLoop _ (r.appendByte b).maybePlaceAnchor (Nat.le_refl _))

theorem settled_new {cols rows : Nat} {capacity : Option Nat} {r : ScrollbackRing}
    (h : new cols rows capacity = .ok r) : r.Settled := by
  have hbytes : r.bytes = [] := (new_window h).bytes.trans List.drop_nil
  have hroom : ¬r.cap < r.bytes.length := by
    rw [hbytes]
    exact Nat.not_lt_zero _
  unfold Settled evictStep
  rw [if_neg hroom]

end ScrollbackRing

/-! ## Reads -/

namespace Window

variable {r : ScrollbackRing} {L : List UInt8}

/-- **The capacity**: a settled ring that keeps more has one anchor left. -/
theorem anchors_of_full (h : Window r L) (hsettled : r.Settled) (hfull : r.cap < r.bytes.length) :
    r.anchors.length = 1 := by
  unfold ScrollbackRing.Settled ScrollbackRing.evictStep at hsettled
  rw [if_pos hfull] at hsettled
  have hfirst := h.first
  have hsorted := h.sorted
  match hanchors : r.anchors with
  | [] => exact absurd hanchors h.anchors_ne_nil
  | [_] => rfl
  | first :: second :: rest =>
    exfalso
    rw [hanchors] at hfirst hsorted
    have htail : first.byteOffset = r.tailOffset := Option.some.inj hfirst
    have hlt : first.byteOffset < second.byteOffset := (List.pairwise_cons.mp hsorted).1 second List.mem_cons_self
    have htarget : r.evictionTarget = some second.byteOffset := by
      unfold ScrollbackRing.evictionTarget
      rw [hanchors, List.getElem?_cons_succ, List.getElem?_cons_zero, Option.map_some, Option.filter_some,
        if_pos (decide_eq_true (by omega))]
    have hdrop : offsetToRelative second.byteOffset r.tailOffset ≠ 0 := by
      unfold offsetToRelative
      omega
    simp only [htarget, if_neg hdrop] at hsettled
    cases hsettled

theorem since_eq (h : Window r L) (seq : StreamSeq) :
    r.since seq = if r.tailSeq ≤ seq ∧ seq ≤ r.headSeq then some { bytes := L.drop seq, headSeq := r.headSeq } else none := by
  unfold ScrollbackRing.since ScrollbackRing.tailSeq
  by_cases htail : seq < r.tailOffset
  · rw [if_pos htail, if_neg fun hc => Nat.not_lt.mpr hc.1 htail]
  · by_cases hhead : r.headSeq < seq
    · rw [if_neg htail, if_pos hhead, if_neg fun hc => Nat.not_lt.mpr hc.2 hhead]
    · rw [if_neg htail, if_neg hhead, if_pos ⟨Nat.not_lt.mp htail, Nat.not_lt.mp hhead⟩,
        h.drop_bytes (Nat.not_lt.mp htail)]

theorem snapshot_bytes (h : Window r L) : r.snapshot.bytes = L.drop r.tailSeq ∧ r.snapshot.headSeq = r.headSeq := by
  have hfirst := h.first
  unfold ScrollbackRing.snapshot
  cases hanchors : r.anchors.head? with
  | none =>
    rw [hanchors] at hfirst
    cases hfirst
  | some first =>
    rw [hanchors] at hfirst
    have htail : first.byteOffset = r.tailOffset := Option.some.inj hfirst
    refine ⟨?_, rfl⟩
    rw [Option.getD_some, h.snapshotFromAnchor_bytes (List.mem_of_head? hanchors), htail]
    rfl

/-- **A bounded snapshot**: from an anchor that is near enough, or nothing. -/
theorem snapshotWithMaxBytes_cases (h : Window r L) (maxBytes : Nat) :
    (r.snapshotWithMaxBytes maxBytes).headSeq = L.length ∧
    ((∃ a ∈ r.anchors, L.length - a.byteOffset ≤ maxBytes ∧
        r.snapshotWithMaxBytes maxBytes = r.snapshotFromAnchor a) ∨
      (r.snapshotWithMaxBytes maxBytes).bytes = []) := by
  unfold ScrollbackRing.snapshotWithMaxBytes
  cases hfind : r.anchors.reverse.find? fun anchor => decide (r.headSeq - anchor.byteOffset ≤ maxBytes) with
  | none => exact ⟨h.head, .inr rfl⟩
  | some a =>
    have hmem := List.mem_reverse.mp (List.mem_of_find?_eq_some hfind)
    have hnear : r.headSeq - a.byteOffset ≤ maxBytes := by simpa using List.find?_some hfind
    rw [h.head] at hnear
    exact ⟨h.head, .inl ⟨a, hmem, hnear, rfl⟩⟩

/-- A bounded snapshot covers the end of the log. -/
theorem snapshotWithMaxBytes_bytes (h : Window r L) (maxBytes : Nat) :
    (r.snapshotWithMaxBytes maxBytes).bytes = L.drop (L.length - (r.snapshotWithMaxBytes maxBytes).bytes.length) ∧
      (r.snapshotWithMaxBytes maxBytes).bytes.length ≤ min maxBytes (L.length - r.tailOffset) := by
  obtain ⟨_, ⟨a, ha, hnear, he⟩ | he⟩ := h.snapshotWithMaxBytes_cases maxBytes
  · have hle := h.offset_le a ha
    have htail := h.tail_le_offset a ha
    rw [he, h.snapshotFromAnchor_bytes ha, List.length_drop]
    refine ⟨?_, by omega⟩
    congr 1
    omega
  · rw [he]
    refine ⟨?_, Nat.zero_le _⟩
    rw [List.length_nil, Nat.sub_zero, List.drop_length]

theorem clamp_mem (value : Nat) {lo hi : Nat} (h : lo ≤ hi) :
    lo ≤ ScrollbackRing.clamp value lo hi ∧ ScrollbackRing.clamp value lo hi ≤ hi := by
  unfold ScrollbackRing.clamp
  split_ifs <;> omega

/-- **A page of history.** -/
theorem historyPage_eq (h : Window r L) (before : Option StreamSeq) (maxBytes : Nat) :
    let page := r.historyPage before maxBytes
    page.endSeq = ScrollbackRing.clamp (before.getD r.headSeq) r.tailSeq r.headSeq ∧
      page.startSeq ≤ page.endSeq ∧ page.endSeq - page.startSeq = min maxBytes (page.endSeq - r.tailSeq) ∧
      page.bytes = (L.take page.endSeq).drop page.startSeq ∧ (page.hasMore = true ↔ r.tailSeq < page.startSeq) := by
  have hrange : r.tailOffset ≤ r.headSeq := by
    rw [h.head]
    exact h.tail_le
  obtain ⟨hlo, hhi⟩ := clamp_mem (before.getD r.headSeq) hrange
  unfold ScrollbackRing.historyPage ScrollbackRing.tailSeq
  dsimp only
  generalize ScrollbackRing.clamp (before.getD r.headSeq) r.tailOffset r.headSeq = stop at hlo hhi ⊢
  have hmin : min (stop - r.tailOffset) maxBytes ≤ stop - r.tailOffset := Nat.min_le_left _ _
  refine ⟨rfl, Nat.sub_le _ _, ?_, ?_, decide_eq_true_iff⟩
  · rw [Nat.sub_sub_self (Nat.le_trans hmin (Nat.sub_le _ _)), Nat.min_comm]
  · rw [h.drop_bytes (by omega), List.drop_take, Nat.sub_sub_self (Nat.le_trans hmin (Nat.sub_le _ _))]

/-- Any sequence of pushes. -/
theorem pushAll : ∀ (chunks : List (List UInt8)) {r : ScrollbackRing} {L : List UInt8}, Window r L →
    L.length + chunks.flatten.length ≤ u64Max →
    Window (chunks.foldl ScrollbackRing.push r) (L ++ chunks.flatten)
  | [], r, L, h, _ => by
    rw [List.flatten_nil, List.append_nil]
    exact h
  | chunk :: chunks, r, L, h, hL => by
    rw [List.flatten_cons, List.length_append] at hL
    rw [List.foldl_cons, List.flatten_cons, ← List.append_assoc]
    apply pushAll chunks
    · exact h.push chunk (by omega)
    · rw [List.length_append]
      omega

end Window

namespace ScrollbackRing

theorem pushAll_cap : ∀ (chunks : List (List UInt8)) (r : ScrollbackRing), (chunks.foldl push r).cap = r.cap
  | [], _ => rfl
  | chunk :: chunks, r => (pushAll_cap chunks (r.push chunk)).trans (push_cap chunk r)

theorem settled_pushAll : ∀ (chunks : List (List UInt8)) {r : ScrollbackRing}, r.Settled →
    (chunks.foldl push r).Settled
  | [], _, h => h
  | chunk :: chunks, _, h => settled_pushAll chunks (settled_push chunk h)

end ScrollbackRing

/-! ## The refinement -/

/-- **The ring refines the byte log**, for every capacity and all pushes of less than `2 ^ 64` bytes together. -/
theorem ring_refines_log {cols rows : Nat} {capacity : Option Nat} {r₀ : ScrollbackRing}
    (hnew : ScrollbackRing.new cols rows capacity = .ok r₀) (chunks : List (List UInt8))
    (hlength : chunks.flatten.length < 2 ^ 64) :
    let r := chunks.foldl ScrollbackRing.push r₀
    let L := chunks.flatten
    r.headSeq = L.length ∧ r.tailSeq ≤ r.headSeq ∧
    r.anchors.Pairwise (fun a b => a.byteOffset < b.byteOffset) ∧
    (∀ a ∈ r.anchors, r.tailSeq ≤ a.byteOffset ∧ a.byteOffset ≤ r.headSeq) ∧
    r.anchors.head?.map Anchor.byteOffset = some r.tailSeq ∧
    r.bytes = L.drop r.tailSeq ∧
    (capacity.getD defaultCapacityBytes < r.bytes.length → r.anchors.length = 1) ∧
    (∀ seq, r.since seq =
      if r.tailSeq ≤ seq ∧ seq ≤ r.headSeq then some { bytes := L.drop seq, headSeq := r.headSeq } else none) ∧
    (r.snapshot.bytes = L.drop r.tailSeq ∧ r.snapshot.headSeq = r.headSeq) ∧
    (∀ maxBytes, (r.snapshotWithMaxBytes maxBytes).headSeq = r.headSeq ∧
      (r.snapshotWithMaxBytes maxBytes).bytes.length ≤ maxBytes ∧
      ((∃ a ∈ r.anchors, (r.snapshotWithMaxBytes maxBytes).bytes = L.drop a.byteOffset) ∨
        (r.snapshotWithMaxBytes maxBytes).bytes = [])) ∧
    ∀ before maxBytes, let page := r.historyPage before maxBytes
      page.endSeq = ScrollbackRing.clamp (before.getD r.headSeq) r.tailSeq r.headSeq ∧
      page.startSeq ≤ page.endSeq ∧ page.endSeq - page.startSeq = min maxBytes (page.endSeq - r.tailSeq) ∧
      page.bytes = (L.take page.endSeq).drop page.startSeq ∧ (page.hasMore = true ↔ r.tailSeq < page.startSeq) := by
  intro r L
  have h : Window r L := by
    have hw := (ScrollbackRing.new_window hnew).pushAll chunks (by
      rw [List.length_nil]
      unfold u64Max
      omega)
    rwa [List.nil_append] at hw
  have hcap : r.cap = capacity.getD defaultCapacityBytes :=
    (ScrollbackRing.pushAll_cap chunks r₀).trans (ScrollbackRing.new_cap hnew)
  have hsettled : r.Settled := ScrollbackRing.settled_pushAll chunks (ScrollbackRing.settled_new hnew)
  have hrange : r.tailSeq ≤ r.headSeq := by
    rw [h.head]
    exact h.tail_le
  refine ⟨h.head, hrange, h.sorted, ?_, h.first, h.bytes, ?_, h.since_eq, h.snapshot_bytes, ?_, h.historyPage_eq⟩
  · intro a ha
    exact ⟨h.tail_le_offset a ha, by rw [h.head]; exact h.offset_le a ha⟩
  · rw [← hcap]
    exact h.anchors_of_full hsettled
  · intro maxBytes
    obtain ⟨hhead, hcases⟩ := h.snapshotWithMaxBytes_cases maxBytes
    refine ⟨hhead.trans h.head.symm, Nat.le_trans (h.snapshotWithMaxBytes_bytes maxBytes).2 (Nat.min_le_left _ _), ?_⟩
    rcases hcases with ⟨a, ha, _, he⟩ | he
    · refine .inl ⟨a, ha, ?_⟩
      rw [he]
      exact h.snapshotFromAnchor_bytes ha
    · exact .inr he

/-- Three pushes into a ring of four bytes, which places an anchor every four. -/
def sampleChunks : List (List UInt8) := [[0x61, 0x62, 0x63], [0x64, 0x65, 0x66], [0x67, 0x68, 0x69, 0x6a]]

def sampleRing : ScrollbackRing := sampleChunks.foldl ScrollbackRing.push (ScrollbackRing.empty 80 24 4).maybePlaceAnchor

/-- Eight bytes are gone; reads from before them find nothing, others the rest of the log. -/
theorem ring_refines_log_sample :
    sampleRing.headSeq = 10 ∧ sampleRing.tailSeq = 8 ∧ sampleRing.bytes = [0x69, 0x6a] ∧ sampleRing.since 7 = none ∧
      sampleRing.since 9 = some { bytes := [0x6a], headSeq := 10 } ∧ (sampleRing.historyPage none 1).bytes = [0x6a] := by
  have hnew : ScrollbackRing.new 80 24 (some 4) = .ok (ScrollbackRing.empty 80 24 4).maybePlaceAnchor := by rfl
  obtain ⟨hhead, _, _, _, _, hbytes, _, hsince, _, _, hpage⟩ := ring_refines_log hnew sampleChunks (by decide)
  have hhead' : sampleRing.headSeq = 10 := hhead
  have htail : sampleRing.tailSeq = 8 := by decide +kernel
  have hsince' : ∀ seq, sampleRing.since seq = if 8 ≤ seq ∧ seq ≤ 10 then
      some { bytes := sampleChunks.flatten.drop seq, headSeq := 10 } else none := by
    rw [← htail, ← hhead']
    exact hsince
  have hbytes' : sampleRing.bytes = sampleChunks.flatten.drop sampleRing.tailSeq := hbytes
  refine ⟨hhead', htail, ?_, hsince' 7, hsince' 9, ?_⟩
  · rw [hbytes', htail]
    rfl
  · obtain ⟨hend, hle, hlength, hread, _⟩ := hpage none 1
    have hend' : (sampleRing.historyPage none 1).endSeq = 10 := by
      refine hend.trans ?_
      show ScrollbackRing.clamp sampleRing.headSeq sampleRing.tailSeq sampleRing.headSeq = 10
      rw [hhead', htail]
      rfl
    have hlength' : (sampleRing.historyPage none 1).endSeq - (sampleRing.historyPage none 1).startSeq =
        min 1 ((sampleRing.historyPage none 1).endSeq - sampleRing.tailSeq) := hlength
    have hle' : (sampleRing.historyPage none 1).startSeq ≤ (sampleRing.historyPage none 1).endSeq := hle
    have hstart : (sampleRing.historyPage none 1).startSeq = 9 := by
      rw [hend', htail] at hlength'
      rw [hend'] at hle'
      have hone : ∀ start : Nat, start ≤ 10 → 10 - start = 1 → start = 9 := by omega
      exact hone _ hle' hlength'
    have hread' : (sampleRing.historyPage none 1).bytes =
        (sampleChunks.flatten.take (sampleRing.historyPage none 1).endSeq).drop (sampleRing.historyPage none 1).startSeq := hread
    rw [hread', hend', hstart]
    rfl

end CliPocket
