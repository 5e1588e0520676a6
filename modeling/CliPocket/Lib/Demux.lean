import Mathlib.Data.List.Basic

/-!
# Demultiplexing

Streams of items for many keys share one line. A key is opened, has items, and is closed; it may be opened again.

- `itemsUntil key signals`: what is for the key until it is closed, opened again, or all is reset;
- `lineStreams signals`: **the streams of a line**, one for each time that a key is opened;
- `State.run`: the same, one signal at a time, with a table of the streams that are open;
- `streams_run`: both agree;
- `itemsUntil_of_open`: while a key stays open its stream has all its items.
-/

namespace Demux

variable {κ α : Type*}

/-- What is said on the line. -/
inductive Signal (κ α : Type*)
  | opened (key : κ)
  | item (key : κ) (a : α)
  | closed (key : κ)
  | reset
  deriving DecidableEq

variable [DecidableEq κ]

/-- What is for a key that is open, until it is no more. -/
def itemsUntil (key : κ) : List (Signal κ α) → List α
  | [] => []
  | .item k a :: rest => if k = key then a :: itemsUntil key rest else itemsUntil key rest
  | .opened k :: rest => if k = key then [] else itemsUntil key rest
  | .closed k :: rest => if k = key then [] else itemsUntil key rest
  | .reset :: _ => []

/-- **The streams of a line**, in the order of their openings. -/
def lineStreams : List (Signal κ α) → List (κ × List α)
  | [] => []
  | .opened key :: rest => (key, itemsUntil key rest) :: lineStreams rest
  | .item _ _ :: rest => lineStreams rest
  | .closed _ :: rest => lineStreams rest
  | .reset :: rest => lineStreams rest

/-! ## One signal at a time -/

/-- The streams so far, and the one that is open for a key. -/
structure State (κ α : Type*) where
  current : κ → Option Nat := fun _ => none
  streams : List (κ × List α) := []

namespace State

def step (s : State κ α) : Signal κ α → State κ α
  | .opened key =>
    { current := fun k => if k = key then some s.streams.length else s.current k, streams := s.streams ++ [(key, [])] }
  | .item key a =>
    match s.current key with
    | some i => { s with streams := s.streams.modify i fun stream => (stream.1, stream.2 ++ [a]) }
    | none => s
  | .closed key => { s with current := fun k => if k = key then none else s.current k }
  | .reset => { s with current := fun _ => none }

/-- What is open for a key is a stream of the key. -/
def Keyed (s : State κ α) : Prop := ∀ {key i}, s.current key = some i → ∃ items, s.streams[i]? = some (key, items)

variable {s : State κ α} {key : κ} {i : Nat} {items : List α}

omit [DecidableEq κ] in
theorem Keyed.own (h : s.Keyed) {key' : κ} (hi : s.current key = some i) (hi' : s.current key' = some i) : key =
    key' := by
  obtain ⟨items, hs⟩ := h hi
  obtain ⟨items', hs'⟩ := h hi'
  rw [hs] at hs'
  cases hs'
  rfl

/-- What the next item adds to a stream. -/
def adds (s : State κ α) (i : Nat) (key : κ) : Signal κ α → List α
  | .item k a => if k = key ∧ s.current key = some i then [a] else []
  | _ => []

/-- **One signal, seen from one stream.** -/
theorem streams_step (h : s.Keyed) (signal : Signal κ α) (hs : s.streams[i]? = some (key, items)) :
    (s.step signal).streams[i]? = some (key, items ++ s.adds i key signal) := by
  have hlt := (List.getElem?_eq_some_iff.mp hs).1
  cases signal with
  | opened k =>
    simp only [step, adds, List.append_nil]
    rw [List.getElem?_append_left hlt]
    exact hs
  | item k a =>
    simp only [step, adds]
    cases hk : s.current k with
    | none =>
      simp only
      rw [if_neg, List.append_nil]
      · exact hs
      · rintro ⟨rfl, hi⟩
        cases hk.symm.trans hi
    | some j =>
      simp only
      by_cases hij : j = i
      · subst hij
        obtain ⟨items', hs'⟩ := h hk
        rw [hs'] at hs
        cases hs
        simp [hs', hk]
      · have hother : ¬(k = key ∧ s.current key = some i) := by
          rintro ⟨rfl, hi⟩
          exact hij (Option.some.inj (hk.symm.trans hi))
        simp [hij, hs, hother]
  | closed k | reset =>
    simp only [step, adds, List.append_nil]
    exact hs

/-- Only an opening makes a stream. -/
theorem length_step (s : State κ α) (signal : Signal κ α) : (s.step signal).streams.length =
    s.streams.length + match signal with
      | .opened _ => 1
      | _ => 0 := by
  cases signal with
  | opened k => simp [step]
  | item k a =>
    simp only [step]
    split
    · simp
    · rfl
  | closed k | reset => rfl

theorem Keyed.step (h : s.Keyed) (signal : Signal κ α) : (s.step signal).Keyed := by
  intro key i hi
  cases signal with
  | opened k =>
    simp only [State.step] at hi ⊢
    split at hi
    · next hk =>
      cases hi
      subst hk
      exact ⟨[], by simp⟩
    · obtain ⟨items, hs⟩ := h hi
      have hlt := (List.getElem?_eq_some_iff.mp hs).1
      exact ⟨items, by rw [List.getElem?_append_left hlt]; exact hs⟩
  | item k a =>
    have hcurrent : s.current key = some i := by
      simp only [State.step] at hi
      split at hi
      · exact hi
      · exact hi
    obtain ⟨items, hs⟩ := h hcurrent
    exact ⟨_, streams_step h _ hs⟩
  | closed k =>
    simp only [State.step] at hi
    split at hi
    · cases hi
    · exact h hi
  | reset => cases hi

/-! ## Whole lines -/

def run (s : State κ α) (signals : List (Signal κ α)) : State κ α := signals.foldl step s

theorem run_append (s : State κ α) (front back : List (Signal κ α)) : s.run (front ++ back) = (s.run front).run back :=
  List.foldl_append

theorem Keyed.run (h : s.Keyed) (signals : List (Signal κ α)) : (s.run signals).Keyed := by
  induction signals generalizing s with
  | nil => exact h
  | cons signal rest ih => exact ih (h.step signal)

/-- A stream grows by what is for its key, while it is open. -/
theorem streams_run_old (h : s.Keyed) (signals : List (Signal κ α)) (hs : s.streams[i]? = some (key, items)) :
    (s.run signals).streams[i]? =
      some (key, items ++ if s.current key = some i then itemsUntil key signals else []) := by
  induction signals generalizing s items with
  | nil => simpa [run, itemsUntil] using hs
  | cons signal rest ih =>
    have hlt := (List.getElem?_eq_some_iff.mp hs).1
    have hnext := ih (h.step signal) (streams_step h signal hs)
    have hrun : s.run (signal :: rest) = (s.step signal).run rest := rfl
    rw [hrun, hnext, List.append_assoc]
    congr 3
    cases signal with
    | opened k =>
      simp only [adds, step, itemsUntil, List.nil_append]
      by_cases hk : key = k
      · subst hk
        simp [Nat.ne_of_gt hlt]
      · simp [hk, Ne.symm hk]
    | item k a =>
      have hsame : (s.step (.item k a)).current key = s.current key := by
        simp only [step]
        split <;> rfl
      rw [hsame]
      simp only [adds, itemsUntil]
      by_cases hi : s.current key = some i
      · by_cases hk : k = key
        · simp [hi, hk]
        · simp [hi, hk]
      · simp [hi]
    | closed k =>
      simp only [adds, step, itemsUntil, List.nil_append]
      by_cases hk : key = k
      · subst hk
        simp
      · simp [hk, Ne.symm hk]
    | reset => simp [adds, step, itemsUntil]

/-- What is opened on the way is a stream of the rest of the line. -/
theorem streams_run_new (h : s.Keyed) (signals : List (Signal κ α)) :
    (s.run signals).streams.drop s.streams.length = lineStreams signals := by
  induction signals generalizing s with
  | nil => simp [run, lineStreams]
  | cons signal rest ih =>
    have hnext := ih (h.step signal)
    have hrun : s.run (signal :: rest) = (s.step signal).run rest := rfl
    rw [length_step] at hnext
    rw [hrun]
    cases signal with
    | opened k =>
      have hstream : (s.step (.opened k)).streams[s.streams.length]? = some (k, ([] : List α)) := by simp [step]
      have hgrown := streams_run_old (h.step (.opened k)) rest hstream
      have hcurrent : (s.step (.opened k)).current k = some s.streams.length := by simp [step]
      rw [if_pos hcurrent, List.nil_append] at hgrown
      obtain ⟨hlt, heq⟩ := List.getElem?_eq_some_iff.mp hgrown
      rw [List.drop_eq_getElem_cons hlt, heq, hnext]
      rfl
    | item k a | closed k | reset => exact hnext

end State

/-- **One signal at a time, the streams are those of the line.** -/
theorem streams_run (signals : List (Signal κ α)) : (State.run {} signals).streams = lineStreams signals := by
  have h := State.streams_run_new (s := {}) (fun hi => nomatch hi) signals
  simpa using h

/-! ## A key that is opened once -/

def Signal.itemOf (key : κ) : Signal κ α → Option α
  | .item k a => if k = key then some a else none
  | _ => none

/-- The items of a key, open or not. -/
def itemsOf (key : κ) (signals : List (Signal κ α)) : List α := signals.filterMap (Signal.itemOf key)

theorem itemsOf_cons (key : κ) (signal : Signal κ α) (rest : List (Signal κ α)) :
    itemsOf key (signal :: rest) = (signal.itemOf key).toList ++ itemsOf key rest := by
  unfold itemsOf
  rw [List.filterMap_cons]
  cases signal.itemOf key <;> rfl

/-- While a key stays open all its items are in the stream. -/
theorem itemsUntil_of_open (key : κ) {signals rest : List (Signal κ α)}
    (h : ∀ signal ∈ signals, signal ≠ .opened key ∧ signal ≠ .closed key ∧ signal ≠ .reset) :
    itemsUntil key (signals ++ rest) = itemsOf key signals ++ itemsUntil key rest := by
  induction signals with
  | nil => rfl
  | cons signal signals ih =>
    obtain ⟨hopened, hclosed, hreset⟩ := h signal List.mem_cons_self
    have hrest := ih fun s hs => h s (List.mem_cons_of_mem _ hs)
    cases signal with
    | opened k =>
      have hk : k ≠ key := fun hk => hopened (by rw [hk])
      simp [itemsUntil, itemsOf_cons, Signal.itemOf, hk, hrest]
    | item k a =>
      by_cases hk : k = key
      · simp [itemsUntil, itemsOf_cons, Signal.itemOf, hk, hrest]
      · simp [itemsUntil, itemsOf_cons, Signal.itemOf, hk, hrest]
    | closed k =>
      have hk : k ≠ key := fun hk => hclosed (by rw [hk])
      simp [itemsUntil, itemsOf_cons, Signal.itemOf, hk, hrest]
    | reset => exact absurd rfl hreset

@[simp] theorem itemsOf_nil (key : κ) : itemsOf key ([] : List (Signal κ α)) = [] := rfl

theorem itemsOf_append (key : κ) (front back : List (Signal κ α)) :
    itemsOf key (front ++ back) = itemsOf key front ++ itemsOf key back := List.filterMap_append

/-- A stream is the beginning of what there is for its key. -/
theorem itemsUntil_prefix (key : κ) (signals : List (Signal κ α)) : itemsUntil key signals <+: itemsOf key signals := by
  induction signals with
  | nil => exact List.prefix_rfl
  | cons signal rest ih =>
    rw [itemsOf_cons]
    cases signal with
    | item k a =>
      by_cases hk : k = key
      · simpa [itemsUntil, Signal.itemOf, hk, List.prefix_cons_inj] using ih
      · simpa [itemsUntil, Signal.itemOf, hk] using ih
    | opened k | closed k =>
      by_cases hk : k = key
      · simp [itemsUntil, hk]
      · simpa [itemsUntil, Signal.itemOf, hk] using ih
    | reset => simp [itemsUntil]

def Signal.openedKey : Signal κ α → Option κ
  | .opened key => some key
  | _ => none

/-- The streams have the keys of the openings. -/
theorem keys_lineStreams (signals : List (Signal κ α)) :
    (lineStreams signals).map Prod.fst = signals.filterMap Signal.openedKey := by
  induction signals with
  | nil => rfl
  | cons signal rest ih =>
    cases signal with
    | opened key => simpa [lineStreams, Signal.openedKey] using ih
    | item key a | closed key | reset => exact ih

/-! ## Parts of a line -/

/-- Every opening makes a stream. -/
theorem length_lineStreams_append (front back : List (Signal κ α)) :
    (lineStreams (front ++ back)).length = (lineStreams front).length + (lineStreams back).length := by
  induction front with
  | nil => simp [lineStreams]
  | cons signal rest ih =>
    cases signal with
    | opened k =>
      simp only [List.cons_append, lineStreams, List.length_cons, ih]
      omega
    | item k a | closed k | reset => exact ih

/-- The streams that are opened in the second part. -/
theorem lineStreams_append_right (front back : List (Signal κ α)) :
    (lineStreams (front ++ back)).drop (lineStreams front).length = lineStreams back := by
  induction front with
  | nil => rfl
  | cons signal rest ih =>
    cases signal with
    | opened k => simpa [lineStreams] using ih
    | item k a | closed k | reset => exact ih

theorem itemsUntil_append_reset (key : κ) (front back : List (Signal κ α)) :
    itemsUntil key (front ++ .reset :: back) = itemsUntil key front := by
  induction front with
  | nil => rfl
  | cons signal rest ih =>
    cases signal with
    | item k a | opened k | closed k => simp only [List.cons_append, itemsUntil, ih]
    | reset => rfl

/-- A reset takes nothing from the streams before it. -/
theorem lineStreams_append_reset (front back : List (Signal κ α)) :
    (lineStreams (front ++ .reset :: back)).take (lineStreams front).length = lineStreams front := by
  induction front with
  | nil => rfl
  | cons signal rest ih =>
    cases signal with
    | opened k => simpa [lineStreams, itemsUntil_append_reset] using ih
    | item k a | closed k | reset => exact ih

/-- The streams that are opened in a part of a line which ends with a reset, if it does not end the line. -/
theorem lineStreams_part {front part back : List (Signal κ α)} (hback : back = [] ∨ ∃ rest, back = .reset :: rest)
    {i : Nat}
    (hfront : (lineStreams front).length ≤ i) (hpart : i < (lineStreams (front ++ part)).length) :
    (lineStreams (front ++ part ++ back))[i]? = (lineStreams part)[i - (lineStreams front).length]? := by
  rw [length_lineStreams_append] at hpart
  obtain ⟨k, rfl⟩ := Nat.exists_eq_add_of_le hfront
  rw [Nat.add_sub_cancel_left, List.append_assoc, ← List.getElem?_drop, lineStreams_append_right]
  rcases hback with rfl | ⟨rest, rfl⟩
  · rw [List.append_nil]
  · have hk : k < (lineStreams part).length := by omega
    have htake := List.getElem?_take_of_lt (l := lineStreams (part ++ .reset :: rest)) hk
    rw [lineStreams_append_reset] at htake
    exact htake.symm

/-- Where a stream begins. -/
theorem lineStreams_split {signals : List (Signal κ α)} {i : Nat} {key : κ} {items : List α}
    (h : (lineStreams signals)[i]? = some (key, items)) :
    ∃ front back, signals = front ++ .opened key :: back ∧ items = itemsUntil key back := by
  induction signals generalizing i with
  | nil => cases h
  | cons signal rest ih =>
    cases signal with
    | opened k =>
      cases i with
      | zero =>
        cases h
        exact ⟨[], rest, rfl, rfl⟩
      | succ i =>
        obtain ⟨front, back, rfl, hitems⟩ := ih h
        exact ⟨.opened k :: front, back, rfl, hitems⟩
    | item k a | closed k | reset =>
      obtain ⟨front, back, rfl, hitems⟩ := ih h
      exact ⟨_ :: front, back, rfl, hitems⟩

end Demux
