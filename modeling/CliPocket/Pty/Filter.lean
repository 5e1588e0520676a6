import CliPocket.Lib.Scanner
import CliPocket.Lib.VteSequences

/-!
# The output filter

`ServerOutputProcessor` takes the sequences out of a terminal's output that are for the terminal's host: queries for the
cursor's position, two modes, and titles. What may be the beginning of one is kept for the next read.

- `nextSequence`: what stands at the front; `ServerOutputProcessor.process`: one call;
- `processAll`: the calls of a reader, which takes responses and titles after each;
- `process_chunks`: **what comes out does not depend on the reads, and what is kept is unfinished exactly if no read ends
  in a query**; `query_is_kept`: one that does.
-/

namespace CliPocket

open Scanner (Verdict Piece scan)
open Saturating (u16Max)

/-! ## Sequences -/

def cursorPositionQuery : List UInt8 := [0x1b, 0x5b, 0x36, 0x6e]

def win32InputModePrefix : List UInt8 := [0x1b, 0x5b, 0x3f, 0x39, 0x30, 0x30, 0x31]

def focusEventModePrefix : List UInt8 := [0x1b, 0x5b, 0x3f, 0x31, 0x30, 0x30, 0x34]

def oscPrefix : List UInt8 := [0x1b, 0x5d]

inductive SequenceMatch
  | consumed (bytes : Nat)
  | incomplete
  deriving DecidableEq

inductive TitleSequenceMatch
  | consumed (bytes : Nat) (title : Option String)
  | incomplete
  deriving DecidableEq

def splitPrefixedControlSequence (bytes opening : List UInt8) : Option SequenceMatch :=
  if bytes <+: opening then some .incomplete
  else if opening <+: bytes then
    match bytes[opening.length]? with
    | some suffix => if suffix = 'h'.toUInt8 ∨ suffix = 'l'.toUInt8 then some (.consumed (opening.length + 1)) else none
    | none => some .incomplete
  else none

/-- The loop of `find_osc_terminator`, at `index`. -/
def findTerminatorFrom : Nat → List UInt8 → Option (Nat × Nat)
  | _, [] => none
  | index, b :: rest =>
    if b = 0x07 then some (index, 1)
    else if b = 0x1b then
      if rest.head? = some '\\'.toUInt8 then some (index, 2)
      else if rest = [] then none
      else findTerminatorFrom (index + 1) rest
    else findTerminatorFrom (index + 1) rest

def findOscTerminator (bytes : List UInt8) : Option (Nat × Nat) := findTerminatorFrom 0 bytes

def splitOscTitleSequence (bytes : List UInt8) : Option TitleSequenceMatch :=
  if bytes <+: oscPrefix then some .incomplete
  else if ¬oscPrefix <+: bytes then none
  else
    match bytes[oscPrefix.length]? with
    | none => some .incomplete
    | some selector =>
      if selector ≠ '0'.toUInt8 ∧ selector ≠ '2'.toUInt8 then none
      else
        let titleStart := oscPrefix.length + 2
        match bytes[oscPrefix.length + 1]? with
        | none => some .incomplete
        | some separator =>
          if separator ≠ ';'.toUInt8 then none
          else
            let titleBytes := bytes.drop titleStart
            match findOscTerminator titleBytes with
            | none => some .incomplete
            | some (titleLen, terminatorLen) =>
              some (.consumed (titleStart + titleLen + terminatorLen)
                (String.fromUTF8? ⟨(titleBytes.take titleLen).toArray⟩))

inductive ControlSequence
  | cursorPositionQuery
  | mode
  | title (title : Option String)
  deriving DecidableEq

/-- What the body of the loop finds at the front of what remains. -/
def nextSequence (remaining : List UInt8) : Verdict ControlSequence :=
  if remaining <+: cursorPositionQuery then .more
  else if cursorPositionQuery <+: remaining then .token cursorPositionQuery.length .cursorPositionQuery
  else
    match splitPrefixedControlSequence remaining win32InputModePrefix with
    | some (.consumed n) => .token n .mode
    | some .incomplete => .more
    | none =>
      match splitPrefixedControlSequence remaining focusEventModePrefix with
      | some (.consumed n) => .token n .mode
      | some .incomplete => .more
      | none =>
        match splitOscTitleSequence remaining with
        | some (.consumed n title) => .token n (.title title)
        | some .incomplete => .more
        | none => .plain

/-! ## The processor -/

structure ServerOutputProcessor where
  pending : List UInt8 := []
  pendingResponse : List UInt8 := []
  pendingTitle : Option String := none
  skipNextCursorPositionResponse : Bool := false
  deriving DecidableEq

/-- `cursor_position_report`, of a column and a row. -/
def cursorPositionReport (cursor : Nat × Nat) : List UInt8 :=
  [0x1b, 0x5b] ++ Vte.digitBytes (Saturating.add u16Max cursor.2 1) ++ [';'.toUInt8] ++
    Vte.digitBytes (Saturating.add u16Max cursor.1 1) ++ ['R'.toUInt8]

namespace ServerOutputProcessor

def new (skipNextCursorPositionResponse : Bool) : ServerOutputProcessor := { skipNextCursorPositionResponse }

/-- What a sequence does that is taken out. -/
def apply (cursor : Nat × Nat) (p : ServerOutputProcessor) : ControlSequence → ServerOutputProcessor
  | .cursorPositionQuery =>
    if p.skipNextCursorPositionResponse then { p with skipNextCursorPositionResponse := false }
    else { p with pendingResponse := p.pendingResponse ++ cursorPositionReport cursor }
  | .mode => p
  | .title (some title) => { p with pendingTitle := some title }
  | .title none => p

/-- The loop of `process`. Each turn takes at least a byte: the fuel is their number. -/
def processFrom (cursor : Nat × Nat) : Nat → ServerOutputProcessor → List UInt8 → List UInt8 → ServerOutputProcessor × List UInt8
  | 0, p, _, filtered => (p, filtered)
  | _ + 1, p, [], filtered => (p, filtered)
  | fuel + 1, p, b :: rest, filtered =>
    match nextSequence (b :: rest) with
    | .more => ({ p with pending := b :: rest }, filtered)
    | .token n found => processFrom cursor fuel (p.apply cursor found) ((b :: rest).drop n) filtered
    | .plain => processFrom cursor fuel p rest (filtered ++ [b])

def process (p : ServerOutputProcessor) (bytes : List UInt8) (cursor : Nat × Nat) : ServerOutputProcessor × List UInt8 :=
  let input := p.pending ++ bytes
  processFrom cursor input.length { p with pending := [] } input []

def takePendingResponse (p : ServerOutputProcessor) : List UInt8 × ServerOutputProcessor :=
  (p.pendingResponse, { p with pendingResponse := [] })

def takePendingTitle (p : ServerOutputProcessor) : Option String × ServerOutputProcessor :=
  (p.pendingTitle, { p with pendingTitle := none })

end ServerOutputProcessor

/-- What has come out of some calls: filtered output, responses, the last title. -/
structure Outcome where
  filtered : List UInt8 := []
  responses : List UInt8 := []
  title : Option String := none
  deriving DecidableEq

/-- One call after the other, responses and titles taken after each. -/
def processAll (cursor : Nat × Nat) : ServerOutputProcessor → List (List UInt8) → ServerOutputProcessor × Outcome
  | p, [] => (p, {})
  | p, chunk :: chunks =>
    let (p, filtered) := p.process chunk cursor
    let (response, p) := p.takePendingResponse
    let (title, p) := p.takePendingTitle
    let (p, out) := processAll cursor p chunks
    (p, { filtered := filtered ++ out.filtered, responses := response ++ out.responses, title := out.title.or title })

/-! ## The recogniser is steady -/

section Steady

variable {xs ys q : List UInt8}

theorem not_prefix_append (h : ¬xs <+: q) : ¬xs ++ ys <+: q := fun hp => h ((List.prefix_append xs ys).trans hp)

theorem not_prefix_of_append (h : ¬xs <+: q) (h' : ¬q <+: xs) : ¬q <+: xs ++ ys := fun hp =>
  (List.prefix_or_prefix_of_prefix hp (List.prefix_append xs ys)).elim h' h

theorem length_lt_of_shorter (h : ¬xs <+: q) (h' : q <+: xs) : q.length < xs.length := by
  obtain ⟨rest, rfl⟩ := h'
  cases rest with
  | nil =>
    rw [List.append_nil] at h
    exact absurd List.prefix_rfl h
  | cons b rest =>
    simp only [List.length_append, List.length_cons]
    omega

theorem getElem?_append_of_some {i : Nat} {b : UInt8} (h : xs[i]? = some b) (ys : List UInt8) : (xs ++ ys)[i]? = some b := by
  rw [List.getElem?_append_left]
  · exact h
  · exact (List.getElem?_eq_some_iff.mp h).1

/-- A sequence that is complete, or that is not there, stays so. -/
theorem splitPrefixed_append (h : splitPrefixedControlSequence xs q ≠ some .incomplete) (ys : List UInt8) :
    splitPrefixedControlSequence (xs ++ ys) q = splitPrefixedControlSequence xs q := by
  unfold splitPrefixedControlSequence at h ⊢
  by_cases hp : xs <+: q
  · rw [if_pos hp] at h
    exact absurd rfl h
  rw [if_neg hp] at h
  rw [if_neg hp, if_neg (not_prefix_append hp)]
  by_cases hq : q <+: xs
  · obtain ⟨b, hb⟩ : ∃ b, xs[q.length]? = some b :=
      ⟨_, List.getElem?_eq_getElem (length_lt_of_shorter hp hq)⟩
    rw [if_pos hq, if_pos (hq.trans (List.prefix_append xs ys)), hb, getElem?_append_of_some hb]
  · rw [if_neg hq, if_neg (not_prefix_of_append hp hq)]

theorem splitPrefixed_consumed {n : Nat} (h : splitPrefixedControlSequence xs q = some (.consumed n)) :
    n = q.length + 1 ∧ q <+: xs ∧ ∃ suffix, (suffix = 'h'.toUInt8 ∨ suffix = 'l'.toUInt8) ∧ xs[q.length]? = some suffix := by
  unfold splitPrefixedControlSequence at h
  split at h
  · cases h
  split at h
  · next hq =>
    split at h
    · next suffix hs =>
      split at h
      · next hsuffix =>
        cases h
        exact ⟨rfl, hq, suffix, hsuffix, hs⟩
      · cases h
    · cases h
  · cases h

theorem splitPrefixed_incomplete (h : splitPrefixedControlSequence xs q = some .incomplete) : xs <+: q := by
  unfold splitPrefixedControlSequence at h
  split at h
  · assumption
  · next hp =>
    split at h
    · next hq =>
      rw [List.getElem?_eq_getElem (length_lt_of_shorter hp hq)] at h
      dsimp only at h
      split at h <;> cases h
    · cases h

/-- A terminator that is there stays where it is. -/
theorem findTerminatorFrom_append : ∀ {xs : List UInt8} {index : Nat} {found : Nat × Nat},
    findTerminatorFrom index xs = some found → ∀ ys, findTerminatorFrom index (xs ++ ys) = some found
  | [], _, _, h, _ => by cases h
  | b :: rest, index, found, h, ys => by
    simp only [findTerminatorFrom, List.cons_append] at h ⊢
    split
    · next hb =>
      rw [if_pos hb] at h
      exact h
    · next hb =>
      rw [if_neg hb] at h
      split
      · next he =>
        rw [if_pos he] at h
        cases rest with
        | nil => cases h
        | cons c rest =>
          simp only [List.head?_cons, List.cons_append, reduceCtorEq, if_false] at h ⊢
          split
          · next hc =>
            rw [if_pos hc] at h
            exact h
          · next hc =>
            rw [if_neg hc] at h
            exact findTerminatorFrom_append h ys
      · next he =>
        rw [if_neg he] at h
        exact findTerminatorFrom_append h ys

/-- A terminator lies within the bytes. -/
theorem findTerminatorFrom_le : ∀ {xs : List UInt8} {index place size : Nat}, findTerminatorFrom index xs = some (place, size) →
    index ≤ place ∧ place + size ≤ index + xs.length ∧ 0 < size
  | [], _, _, _, h => by cases h
  | b :: rest, index, place, size, h => by
    simp only [findTerminatorFrom] at h
    simp only [List.length_cons]
    split at h
    · cases h
      omega
    · split at h
      · split at h
        · next hc =>
          cases h
          cases rest with
          | nil => cases hc
          | cons c rest =>
            simp only [List.length_cons]
            omega
        · split at h
          · cases h
          · have := findTerminatorFrom_le h
            omega
      · have := findTerminatorFrom_le h
        omega

/-- What is found is a text and its terminator. -/
theorem findTerminatorFrom_split : ∀ {xs : List UInt8} {index place size : Nat},
    findTerminatorFrom index xs = some (place, size) → ∃ text terminator rest, xs = text ++ (terminator ++ rest) ∧
      place = index + text.length ∧ size = terminator.length ∧
        findTerminatorFrom index (text ++ terminator) = some (place, size)
  | [], _, _, _, h => by cases h
  | b :: rest, index, place, size, h => by
    have hnext : findTerminatorFrom (index + 1) rest = some (place, size) → b ≠ 0x07 →
        (b = 0x1b → rest.head? ≠ some '\\'.toUInt8) → ∃ text terminator rest', b :: rest = text ++ (terminator ++ rest') ∧
          place = index + text.length ∧ size = terminator.length ∧
            findTerminatorFrom index (text ++ terminator) = some (place, size) := by
      intro hr hbell hescape
      obtain ⟨text, terminator, rest', rfl, hplace, hsize, hfound⟩ := findTerminatorFrom_split hr
      refine ⟨b :: text, terminator, rest', rfl, by simp only [List.length_cons]; omega, hsize, ?_⟩
      simp only [findTerminatorFrom, List.cons_append, if_neg hbell]
      split
      · next he =>
        have hhead : (text ++ terminator).head? ≠ some '\\'.toUInt8 := by
          intro hh
          refine hescape he ?_
          rw [← List.append_assoc]
          cases hx : text ++ terminator with
          | nil =>
            rw [hx] at hh
            cases hh
          | cons c cs =>
            rw [hx] at hh
            exact hh
        rw [if_neg hhead, if_neg]
        · exact hfound
        · intro hnil
          rw [hnil] at hfound
          cases hfound
      · exact hfound
    simp only [findTerminatorFrom] at h
    split at h
    · next hb =>
      cases h
      refine ⟨[], [b], rest, rfl, rfl, rfl, ?_⟩
      simp only [findTerminatorFrom, List.nil_append, if_pos hb]
    · next hb =>
      split at h
      · next he =>
        split at h
        · next hc =>
          cases h
          cases rest with
          | nil => cases hc
          | cons c rest =>
            refine ⟨[], [b, c], rest, rfl, rfl, rfl, ?_⟩
            simp only [findTerminatorFrom, List.nil_append, if_neg hb, if_pos he]
            exact if_pos hc
        · next hc =>
          split at h
          · cases h
          · exact hnext h hb fun _ => hc
      · next he => exact hnext h hb fun he' => absurd he' he

/-- So does what is said of a title. -/
theorem splitOscTitle_append (h : splitOscTitleSequence xs ≠ some .incomplete) (ys : List UInt8) :
    splitOscTitleSequence (xs ++ ys) = splitOscTitleSequence xs := by
  unfold splitOscTitleSequence at h ⊢
  by_cases hp : xs <+: oscPrefix
  · rw [if_pos hp] at h
    exact absurd rfl h
  rw [if_neg hp] at h
  rw [if_neg hp, if_neg (not_prefix_append hp)]
  by_cases hq : oscPrefix <+: xs
  · rw [if_neg (not_not_intro hq)] at h
    rw [if_neg (not_not_intro (hq.trans (List.prefix_append xs ys))), if_neg (not_not_intro hq)]
    cases hselector : xs[oscPrefix.length]? with
    | none =>
      rw [hselector] at h
      exact absurd rfl h
    | some selector =>
      rw [hselector] at h
      rw [getElem?_append_of_some hselector]
      dsimp only at h ⊢
      split
      · rfl
      · next hsel =>
        rw [if_neg hsel] at h
        cases hseparator : xs[oscPrefix.length + 1]? with
        | none =>
          rw [hseparator] at h
          exact absurd rfl h
        | some separator =>
          rw [hseparator] at h
          rw [getElem?_append_of_some hseparator]
          dsimp only at h ⊢
          split
          · rfl
          · next hsep =>
            rw [if_neg hsep] at h
            have hlength : oscPrefix.length + 2 ≤ xs.length := (List.getElem?_eq_some_iff.mp hseparator).1
            rw [List.drop_append_of_le_length hlength]
            cases hfound : findOscTerminator (xs.drop (oscPrefix.length + 2)) with
            | none =>
              rw [hfound] at h
              exact absurd rfl h
            | some found =>
              rw [findOscTerminator, findTerminatorFrom_append hfound]
              dsimp only
              rw [List.take_append_of_le_length]
              have hle := @findTerminatorFrom_le _ _ found.1 found.2 hfound
              omega
  · rw [if_pos hq, if_pos (not_prefix_of_append hp hq)]

end Steady

/-! ## What the recogniser finds -/

/-- The sequences that are taken out. -/
inductive Spells : List UInt8 → ControlSequence → Prop
  | query : Spells cursorPositionQuery .cursorPositionQuery
  | mode {opening : List UInt8} {suffix : UInt8} (hopening : opening = win32InputModePrefix ∨ opening = focusEventModePrefix)
      (hsuffix : suffix = 'h'.toUInt8 ∨ suffix = 'l'.toUInt8) : Spells (opening ++ [suffix]) .mode
  | title {selector : UInt8} {text terminator : List UInt8} (hselector : selector = '0'.toUInt8 ∨ selector = '2'.toUInt8)
      (hterminator : findOscTerminator (text ++ terminator) = some (text.length, terminator.length)) :
      Spells (oscPrefix ++ [selector, ';'.toUInt8] ++ (text ++ terminator)) (.title (String.fromUTF8? ⟨text.toArray⟩))

/-- A title without its terminator. -/
def OpenTitle (bytes : List UInt8) : Prop :=
  ∃ selector text, (selector = '0'.toUInt8 ∨ selector = '2'.toUInt8) ∧
    bytes = oscPrefix ++ [selector, ';'.toUInt8] ++ text ∧ findOscTerminator text = none

/-- What a sequence begins with, before it is clear which it is; a query in full. -/
def openings : List (List UInt8) :=
  [cursorPositionQuery, win32InputModePrefix, focusEventModePrefix, oscPrefix ++ ['0'.toUInt8], oscPrefix ++ ['2'.toUInt8]]

def Opening (bytes : List UInt8) : Prop := ∃ opening ∈ openings, bytes <+: opening

theorem eq_of_title_bytes {xs : List UInt8} {selector separator : UInt8} (hp : oscPrefix <+: xs)
    (hselector : xs[oscPrefix.length]? = some selector) (hseparator : xs[oscPrefix.length + 1]? = some separator) :
    xs = oscPrefix ++ [selector, separator] ++ xs.drop (oscPrefix.length + 2) := by
  obtain ⟨rest, rfl⟩ := hp
  rw [List.getElem?_append_right (Nat.le_refl _), Nat.sub_self] at hselector
  rw [List.getElem?_append_right (Nat.le_add_right _ _), Nat.add_sub_cancel_left] at hseparator
  cases rest with
  | nil => cases hselector
  | cons b rest =>
    cases rest with
    | nil => cases hseparator
    | cons c rest =>
      cases hselector
      cases hseparator
      rfl

theorem splitOscTitle_consumed {xs : List UInt8} {n : Nat} {title : Option String}
    (h : splitOscTitleSequence xs = some (.consumed n title)) : n ≤ xs.length ∧ Spells (xs.take n) (.title title) := by
  unfold splitOscTitleSequence at h
  split at h
  · cases h
  split at h
  · cases h
  · next hq =>
    rw [not_not] at hq
    split at h
    · cases h
    · next selector hselector =>
      split at h
      · cases h
      · next hsel =>
        dsimp only at h
        split at h
        · cases h
        · next separator hseparator =>
          split at h
          · cases h
          · next hsep =>
            split at h
            · cases h
            · next found titleLen terminatorLen hfound =>
              cases h
              have hxs := eq_of_title_bytes hq hselector hseparator
              rw [not_not] at hsep
              obtain ⟨text, terminator, rest, htitle, hplace, rfl, hspelled⟩ := findTerminatorFrom_split hfound
              rw [Nat.zero_add] at hplace
              subst hplace
              rw [htitle] at hxs ⊢
              have htake : xs.take (oscPrefix.length + 2 + text.length + terminator.length) =
                  oscPrefix ++ [selector, ';'.toUInt8] ++ (text ++ terminator) := by
                rw [hxs, hsep, ← List.append_assoc text, ← List.append_assoc]
                refine List.take_left' ?_
                simp only [List.length_append, List.length_cons, List.length_nil]
                omega
              refine ⟨?_, ?_⟩
              · rw [hxs]
                simp only [List.length_append, List.length_cons, List.length_nil]
                omega
              · rw [htake, List.take_left]
                refine .title ?_ hspelled
                by_contra hne
                rw [not_or] at hne
                exact hsel hne

theorem splitOscTitle_incomplete {xs : List UInt8} (h : splitOscTitleSequence xs = some .incomplete) :
    Opening xs ∨ OpenTitle xs := by
  unfold splitOscTitleSequence at h
  split at h
  · next hp => exact .inl ⟨oscPrefix ++ ['0'.toUInt8], by simp [openings], hp.trans (List.prefix_append _ _)⟩
  split at h
  · cases h
  · next hp hq =>
    rw [not_not] at hq
    split at h
    · next hselector =>
      have hlt := length_lt_of_shorter hp hq
      rw [List.getElem?_eq_getElem hlt] at hselector
      cases hselector
    · next selector hselector =>
      split at h
      · cases h
      · next hsel =>
        have hsel' : selector = '0'.toUInt8 ∨ selector = '2'.toUInt8 := by
          by_contra hne
          rw [not_or] at hne
          exact hsel hne
        dsimp only at h
        split at h
        · next hseparator =>
          refine .inl ⟨oscPrefix ++ [selector], ?_, ?_⟩
          · rcases hsel' with rfl | rfl <;> simp [openings]
          · obtain ⟨rest, rfl⟩ := hq
            rw [List.getElem?_append_right (Nat.le_refl _), Nat.sub_self] at hselector
            rw [List.getElem?_append_right (Nat.le_add_right _ _), Nat.add_sub_cancel_left] at hseparator
            cases rest with
            | nil => cases hselector
            | cons b rest =>
              cases hselector
              cases rest with
              | nil => exact List.prefix_rfl
              | cons c rest => cases hseparator
        · next separator hseparator =>
          split at h
          · cases h
          · next hsep =>
            rw [not_not] at hsep
            split at h
            · next hfound =>
              have hxs := eq_of_title_bytes hq hselector hseparator
              rw [hsep] at hxs
              exact .inr ⟨selector, _, hsel', hxs, hfound⟩
            · cases h

/-- What the recogniser takes is a sequence. -/
theorem nextSequence_token {xs : List UInt8} {n : Nat} {t : ControlSequence} (h : nextSequence xs = .token n t) :
    n ≤ xs.length ∧ Spells (xs.take n) t := by
  have hmode : ∀ {opening : List UInt8} {n : Nat}, opening = win32InputModePrefix ∨ opening = focusEventModePrefix →
      splitPrefixedControlSequence xs opening = some (.consumed n) → n ≤ xs.length ∧ Spells (xs.take n) .mode := by
    intro opening n hopening hsplit
    obtain ⟨rfl, hp, suffix, hsuffix, hs⟩ := splitPrefixed_consumed hsplit
    have hlength := (List.getElem?_eq_some_iff.mp hs).1
    refine ⟨hlength, ?_⟩
    rw [List.take_add_one, hs, List.prefix_iff_eq_take.mp hp |>.symm]
    exact .mode hopening hsuffix
  unfold nextSequence at h
  split at h
  · cases h
  split at h
  · next hq =>
    cases h
    refine ⟨hq.length_le, ?_⟩
    rw [← List.prefix_iff_eq_take.mp hq]
    exact .query
  split at h
  · next hsplit =>
    cases h
    exact hmode (.inl rfl) hsplit
  · cases h
  · split at h
    · next hsplit =>
      cases h
      exact hmode (.inr rfl) hsplit
    · cases h
    · split at h
      · next htitle =>
        cases h
        exact splitOscTitle_consumed htitle
      · cases h
      · cases h

/-- **The recogniser is steady.** -/
theorem steady_nextSequence : Scanner.Steady nextSequence := by
  have happend : ∀ {xs : List UInt8}, nextSequence xs ≠ .more → ∀ ys, nextSequence (xs ++ ys) = nextSequence xs := by
    intro xs h ys
    unfold nextSequence at h ⊢
    by_cases hp : xs <+: cursorPositionQuery
    · rw [if_pos hp] at h
      exact absurd rfl h
    rw [if_neg hp] at h
    rw [if_neg hp, if_neg (not_prefix_append hp)]
    by_cases hq : cursorPositionQuery <+: xs
    · rw [if_pos hq, if_pos (hq.trans (List.prefix_append xs ys))]
    rw [if_neg hq] at h
    rw [if_neg hq, if_neg (not_prefix_of_append hp hq)]
    by_cases hwin : splitPrefixedControlSequence xs win32InputModePrefix = some .incomplete
    · rw [hwin] at h
      exact absurd rfl h
    rw [splitPrefixed_append hwin]
    cases hwin' : splitPrefixedControlSequence xs win32InputModePrefix with
    | some found => cases found <;> rfl
    | none =>
      rw [hwin'] at h
      dsimp only at h ⊢
      by_cases hfocus : splitPrefixedControlSequence xs focusEventModePrefix = some .incomplete
      · rw [hfocus] at h
        exact absurd rfl h
      rw [splitPrefixed_append hfocus]
      cases hfocus' : splitPrefixedControlSequence xs focusEventModePrefix with
      | some found => cases found <;> rfl
      | none =>
        rw [hfocus'] at h
        dsimp only at h ⊢
        rw [splitOscTitle_append]
        intro htitle
        rw [htitle] at h
        exact h rfl
  refine ⟨fun {xs n t} h => ?_, fun {xs n t} h ys => ?_, fun {xs} _ h ys => ?_⟩
  · obtain ⟨hle, hspells⟩ := nextSequence_token h
    refine ⟨?_, hle⟩
    by_contra hn
    have hz : n = 0 := by omega
    rw [hz, List.take_zero] at hspells
    generalize hnil : ([] : List UInt8) = text at hspells
    cases hspells with
    | query => cases hnil
    | mode hopening => rcases hopening with rfl | rfl <;> cases hnil
    | title => cases hnil
  · rw [happend (by simp [h]), h]
  · rw [happend (by simp [h]), h]

/-- What it waits for more of. -/
theorem nextSequence_more {xs : List UInt8} (h : nextSequence xs = .more) : Opening xs ∨ OpenTitle xs := by
  unfold nextSequence at h
  split at h
  · next hp => exact .inl ⟨cursorPositionQuery, by simp [openings], hp⟩
  split at h
  · cases h
  split at h
  · cases h
  · next hsplit => exact .inl ⟨win32InputModePrefix, by simp [openings], splitPrefixed_incomplete hsplit⟩
  · split at h
    · cases h
    · next hsplit => exact .inl ⟨focusEventModePrefix, by simp [openings], splitPrefixed_incomplete hsplit⟩
    · split at h
      · cases h
      · next htitle =>
        exact splitOscTitle_incomplete htitle
      · cases h

/-- Behind `ESC ]` there is only a title to look for. -/
theorem nextSequence_osc (rest : List UInt8) : nextSequence (oscPrefix ++ rest) =
    match splitOscTitleSequence (oscPrefix ++ rest) with
    | some (.consumed n title) => .token n (.title title)
    | some .incomplete => .more
    | none => .plain := by
  have hsplit : ∀ opening : List UInt8, opening[1]? = some '['.toUInt8 → opening.head? = some 0x1b →
      ¬oscPrefix ++ rest <+: opening ∧ ¬opening <+: oscPrefix ++ rest := by
    intro opening hsecond hfirst
    match opening with
    | [] => cases hfirst
    | [_] => cases hsecond
    | a :: b :: tail =>
      cases hsecond
      constructor
      · intro hp
        have h := (List.cons_prefix_cons.mp (List.cons_prefix_cons.mp hp).2).1
        revert h
        decide
      · intro hp
        have h := (List.cons_prefix_cons.mp (List.cons_prefix_cons.mp hp).2).1
        revert h
        decide
  have hquery := hsplit cursorPositionQuery rfl rfl
  have hwin := hsplit win32InputModePrefix rfl rfl
  have hfocus := hsplit focusEventModePrefix rfl rfl
  have hnone : ∀ opening : List UInt8, (¬oscPrefix ++ rest <+: opening ∧ ¬opening <+: oscPrefix ++ rest) →
      splitPrefixedControlSequence (oscPrefix ++ rest) opening = none := by
    intro opening h
    rw [splitPrefixedControlSequence, if_neg h.1, if_neg h.2]
  unfold nextSequence
  rw [if_neg hquery.1, if_neg hquery.2, hnone _ hwin, hnone _ hfocus]

/-- What follows `ESC ] 0 ;` or `ESC ] 2 ;`. -/
theorem splitOscTitle_title {selector : UInt8} (hselector : selector = '0'.toUInt8 ∨ selector = '2'.toUInt8) (text : List UInt8) :
    splitOscTitleSequence (oscPrefix ++ ([selector, ';'.toUInt8] ++ text)) =
      match findOscTerminator text with
      | none => some .incomplete
      | some (titleLen, terminatorLen) =>
        some (.consumed (oscPrefix.length + 2 + titleLen + terminatorLen)
          (String.fromUTF8? ⟨(text.take titleLen).toArray⟩)) := by
  have hp : ¬oscPrefix ++ ([selector, ';'.toUInt8] ++ text) <+: oscPrefix := by
    intro hp
    have := hp.length_le
    simp only [List.length_append, List.length_cons] at this
    omega
  unfold splitOscTitleSequence
  rw [if_neg hp, if_neg (not_not_intro (List.prefix_append _ _))]
  have hsel : ¬(selector ≠ '0'.toUInt8 ∧ selector ≠ '2'.toUInt8) := by
    rintro ⟨h0, h2⟩
    exact hselector.elim h0 h2
  rw [show (oscPrefix ++ ([selector, ';'.toUInt8] ++ text))[oscPrefix.length]? = some selector from rfl]
  dsimp only
  rw [if_neg hsel, show (oscPrefix ++ ([selector, ';'.toUInt8] ++ text))[oscPrefix.length + 1]? = some ';'.toUInt8 from rfl]
  rfl

/-- **Every sequence is recognised at its last byte**, but a query. -/
theorem nextSequence_of_spells {text : List UInt8} {t : ControlSequence} (h : Spells text t) (hquery : text ≠ cursorPositionQuery) :
    nextSequence text = .token text.length t := by
  cases h with
  | query => exact absurd rfl hquery
  | mode hopening hsuffix => rcases hopening with rfl | rfl <;> rcases hsuffix with rfl | rfl <;> rfl
  | @title selector text terminator hselector hterminator =>
    rw [List.append_assoc, nextSequence_osc, splitOscTitle_title hselector, hterminator]
    simp only [List.length_append, List.length_cons, List.length_nil, List.take_left]
    congr 1
    omega

theorem nextSequence_openTitle {bytes : List UInt8} (h : OpenTitle bytes) : nextSequence bytes = .more := by
  obtain ⟨selector, text, hselector, rfl, hfound⟩ := h
  rw [List.append_assoc, nextSequence_osc, splitOscTitle_title hselector, hfound]

/-- A byte other than ESC begins nothing. -/
theorem nextSequence_plain {b : UInt8} (hb : b ≠ 0x1b) (rest : List UInt8) : nextSequence (b :: rest) = .plain := by
  have hsplit : ∀ opening : List UInt8, opening.head? = some 0x1b → ¬b :: rest <+: opening ∧ ¬opening <+: b :: rest := by
    intro opening hhead
    cases opening with
    | nil => cases hhead
    | cons a tail =>
      cases hhead
      exact ⟨fun hp => hb (List.cons_prefix_cons.mp hp).1, fun hp => hb (List.cons_prefix_cons.mp hp).1.symm⟩
  have hnone : ∀ opening : List UInt8, opening.head? = some 0x1b → splitPrefixedControlSequence (b :: rest) opening = none := by
    intro opening hhead
    rw [splitPrefixedControlSequence, if_neg (hsplit _ hhead).1, if_neg (hsplit _ hhead).2]
  have hquery := hsplit cursorPositionQuery rfl
  have hosc := hsplit oscPrefix rfl
  unfold nextSequence splitOscTitleSequence
  rw [if_neg hquery.1, if_neg hquery.2, hnone win32InputModePrefix rfl, hnone focusEventModePrefix rfl, if_neg hosc.1,
    if_pos hosc.2]

/-! ## What is kept -/

/-- What a stream leaves undecided. -/
def keptOf (stream : List UInt8) : List UInt8 := (scan nextSequence stream).2

theorem keptOf_append (xs ys : List UInt8) : keptOf (xs ++ ys) = keptOf (keptOf xs ++ ys) := by
  unfold keptOf
  rw [Scanner.scan_append steady_nextSequence]

theorem keptOf_more {stream : List UInt8} (h : nextSequence stream = .more) : keptOf stream = stream := by
  rw [keptOf, Scanner.scan_more h]

/-- Bytes other than ESC pass, when nothing is kept before them. -/
theorem keptOf_passes : ∀ {w : List UInt8}, (∀ b ∈ w, b ≠ 0x1b) → ∀ rest, keptOf (w ++ rest) = keptOf rest
  | [], _, _ => rfl
  | b :: w, h, rest => by
    rw [keptOf, List.cons_append, Scanner.scan_plain (nextSequence_plain (h b List.mem_cons_self) _)]
    exact keptOf_passes (fun c hc => h c (List.mem_cons_of_mem _ hc)) rest

instance (bytes : List UInt8) : Decidable (Opening bytes) := by
  unfold Opening
  infer_instance

/-- The openings that there are. -/
def allOpenings : List (List UInt8) := openings.flatMap List.inits

theorem Opening.mem {bytes : List UInt8} (h : Opening bytes) : bytes ∈ allOpenings := by
  obtain ⟨opening, hm, hp⟩ := h
  exact List.mem_flatMap.mpr ⟨opening, hm, (List.mem_inits _ _).mpr hp⟩

theorem Opening.length_le {bytes : List UInt8} (h : Opening bytes) : bytes.length ≤ 7 := by
  have hall : ∀ opening ∈ allOpenings, opening.length ≤ 7 := by decide +kernel
  exact hall bytes h.mem

/-- An opening that is followed by ESC is none. -/
theorem opening_escape : ∀ bytes ∈ allOpenings, bytes = [] ∨ bytes = cursorPositionQuery ∨
    bytes.head? = some 0x1b ∧ nextSequence (bytes ++ [0x1b]) = .plain ∧ 0x1b ∉ bytes.tail := by
  decide +kernel

/-- Its bytes pass, or it was a query. -/
theorem keptOf_opening {bytes : List UInt8} (h : Opening bytes) (rest : List UInt8) :
    keptOf (bytes ++ 0x1b :: rest) = keptOf (0x1b :: rest) := by
  rcases opening_escape bytes h.mem with rfl | rfl | ⟨hhead, hplain, htail⟩
  · rfl
  · have hv : nextSequence (cursorPositionQuery ++ [0x1b]) = .token cursorPositionQuery.length .cursorPositionQuery := by rfl
    have hv' := steady_nextSequence.token hv rest
    rw [List.append_assoc] at hv'
    rw [keptOf, show 0x1b :: rest = [0x1b] ++ rest from rfl, Scanner.scan_token steady_nextSequence hv', List.drop_left]
    rfl
  · cases bytes with
    | nil => cases hhead
    | cons b w =>
      have hv := steady_nextSequence.plain (by simp) hplain rest
      rw [List.append_assoc, List.cons_append, List.singleton_append] at hv
      rw [keptOf, List.cons_append, Scanner.scan_plain hv]
      refine keptOf_passes ?_ _
      rintro c hc rfl
      exact htail hc

/-! ## Open titles -/

theorem findTerminatorFrom_index : ∀ (bytes : List UInt8) (index : Nat),
    findTerminatorFrom index bytes = none ↔ findOscTerminator bytes = none := by
  have hstep : ∀ (bytes : List UInt8) (i j : Nat), findTerminatorFrom i bytes = none → findTerminatorFrom j bytes = none := by
    intro bytes
    induction bytes with
    | nil => exact fun _ _ _ => rfl
    | cons b rest ih =>
      intro i j h
      simp only [findTerminatorFrom] at h ⊢
      split
      · next hb =>
        rw [if_pos hb] at h
        cases h
      · next hb =>
        rw [if_neg hb] at h
        split
        · next he =>
          rw [if_pos he] at h
          split
          · next hc =>
            rw [if_pos hc] at h
            cases h
          · next hc =>
            rw [if_neg hc] at h
            split
            · rfl
            · next hn =>
              rw [if_neg hn] at h
              exact ih _ _ h
        · next he =>
          rw [if_neg he] at h
          exact ih _ _ h
  exact fun bytes index => ⟨hstep bytes index 0, hstep bytes 0 index⟩

/-- A text that is not terminated goes on with another that is not. -/
theorem findTerminatorFrom_none_append {ys : List UInt8} (hhead : ys.head? ≠ some '\\'.toUInt8) (hy : findOscTerminator ys = none) :
    ∀ {xs : List UInt8} {index : Nat}, findTerminatorFrom index xs = none → findTerminatorFrom index (xs ++ ys) = none
  | [], index, _ => (findTerminatorFrom_index ys index).mpr hy
  | b :: rest, index, h => by
    have hrest : findTerminatorFrom (index + 1) rest = none → findTerminatorFrom (index + 1) (rest ++ ys) = none :=
      findTerminatorFrom_none_append hhead hy
    simp only [findTerminatorFrom, List.cons_append] at h ⊢
    split
    · next hb =>
      rw [if_pos hb] at h
      cases h
    · next hb =>
      rw [if_neg hb] at h
      split
      · next he =>
        rw [if_pos he] at h
        cases rest with
        | nil =>
          rw [List.nil_append, if_neg hhead]
          split
          · rfl
          · exact (findTerminatorFrom_index ys _).mpr hy
        | cons c rest =>
          simp only [List.head?_cons, reduceCtorEq, if_false] at h
          split at h
          · cases h
          · next hc =>
            rw [List.cons_append, List.head?_cons, if_neg hc, if_neg (List.cons_ne_nil _ _)]
            exact hrest h
      · next he =>
        rw [if_neg he] at h
        exact hrest h

/-- A bell ends it. -/
theorem findTerminatorFrom_bell : ∀ {xs : List UInt8} {index : Nat}, findTerminatorFrom index xs = none →
    findTerminatorFrom index (xs ++ [0x07]) = some (index + xs.length, 1)
  | [], index, _ => rfl
  | b :: rest, index, h => by
    have hrest : findTerminatorFrom (index + 1) rest = none →
        findTerminatorFrom (index + 1) (rest ++ [0x07]) = some (index + (b :: rest).length, 1) := by
      intro hr
      rw [findTerminatorFrom_bell hr, List.length_cons]
      congr 2
      omega
    simp only [findTerminatorFrom, List.cons_append] at h ⊢
    split
    · next hb =>
      rw [if_pos hb] at h
      cases h
    · next hb =>
      rw [if_neg hb] at h
      split
      · next he =>
        rw [if_pos he] at h
        cases rest with
        | nil => rfl
        | cons c rest =>
          simp only [List.head?_cons, reduceCtorEq, if_false] at h
          split at h
          · cases h
          · next hc =>
            rw [List.cons_append, List.head?_cons, if_neg hc, if_neg (List.cons_ne_nil _ _)]
            exact hrest h
      · next he =>
        rw [if_neg he] at h
        exact hrest h

/-- A terminator that is found when more has come ends behind what there was. -/
theorem findTerminatorFrom_late {ys : List UInt8} {place size : Nat} : ∀ {xs : List UInt8} {index : Nat},
    findTerminatorFrom index xs = none → findTerminatorFrom index (xs ++ ys) = some (place, size) → index + xs.length < place + size
  | [], index, _, h => by
    have hle := findTerminatorFrom_le h
    simp only [List.length_nil]
    omega
  | b :: rest, index, hnone, h => by
    have hrest : findTerminatorFrom (index + 1) rest = none → findTerminatorFrom (index + 1) (rest ++ ys) = some (place, size) →
        index + (b :: rest).length < place + size := by
      intro hn hs
      have hlate := findTerminatorFrom_late hn hs
      simp only [List.length_cons]
      omega
    simp only [findTerminatorFrom, List.cons_append] at hnone h
    split at hnone
    · cases hnone
    · next hbell =>
      rw [if_neg hbell] at h
      split at hnone
      · next hescape =>
        rw [if_pos hescape] at h
        cases rest with
        | nil =>
          rw [List.nil_append] at h
          split at h
          · cases h
            simp only [List.length_cons, List.length_nil]
            omega
          · split at h
            · cases h
            · exact hrest rfl h
        | cons c rest =>
          simp only [List.head?_cons, List.cons_append, reduceCtorEq, if_false] at hnone h
          split at hnone
          · cases hnone
          · next hc =>
            rw [if_neg hc] at h
            exact hrest hnone h
      · next hescape =>
        rw [if_neg hescape] at h
        exact hrest hnone h

/-- An open title takes in what begins with ESC and ends no title. -/
theorem OpenTitle.append {bytes rest : List UInt8} (h : OpenTitle bytes) (hrest : findOscTerminator (0x1b :: rest) = none) :
    OpenTitle (bytes ++ 0x1b :: rest) := by
  obtain ⟨selector, text, hselector, rfl, hfound⟩ := h
  refine ⟨selector, text ++ 0x1b :: rest, hselector, by rw [List.append_assoc], ?_⟩
  have hhead : (0x1b :: rest).head? ≠ some '\\'.toUInt8 := by
    rw [List.head?_cons]
    decide
  exact findTerminatorFrom_none_append hhead hrest hfound

/-- The stream ends in a title that is not terminated. -/
def InTitle (stream : List UInt8) : Prop := ∃ before title, stream = before ++ title ∧ OpenTitle title

theorem OpenTitle.escape {bytes : List UInt8} (h : OpenTitle bytes) :
    ∃ rest, bytes = 0x1b :: rest ∧ findOscTerminator (0x1b :: rest) = none := by
  obtain ⟨selector, text, hselector, rfl, hfound⟩ := h
  refine ⟨_, rfl, ?_⟩
  have htext : findTerminatorFrom 4 text = none := (findTerminatorFrom_index text 4).mpr hfound
  rcases hselector with rfl | rfl
  · exact htext
  · exact htext

theorem kept_cases (stream : List UInt8) : Opening (keptOf stream) ∨ OpenTitle (keptOf stream) := by
  rcases Scanner.kept_scan steady_nextSequence stream with h | h
  · refine .inl ⟨cursorPositionQuery, by simp [openings], ?_⟩
    rw [keptOf, h]
    exact List.nil_prefix
  · exact nextSequence_more h

/-- What follows ESC is kept as it would be alone, or in an open title. -/
theorem keptOf_escape (before : List UInt8) {rest : List UInt8} (hrest : findOscTerminator (0x1b :: rest) = none) :
    keptOf (before ++ 0x1b :: rest) = keptOf (0x1b :: rest) ∨ OpenTitle (keptOf (before ++ 0x1b :: rest)) := by
  rw [keptOf_append]
  rcases kept_cases before with h | h
  · exact .inl (keptOf_opening h rest)
  · have happend := h.append hrest
    rw [keptOf_more (nextSequence_openTitle happend)]
    exact .inr happend

theorem inTitle_iff (stream : List UInt8) : InTitle stream ↔ OpenTitle (keptOf stream) := by
  constructor
  · rintro ⟨before, title, rfl, htitle⟩
    obtain ⟨rest, rfl, hrest⟩ := htitle.escape
    rcases keptOf_escape before hrest with h | h
    · rw [h, keptOf_more (nextSequence_openTitle htitle)]
      exact htitle
    · exact h
  · intro h
    exact ⟨_, _, (Scanner.texts_scan steady_nextSequence stream).symm, h⟩

/-! ## What is unfinished -/

/-- The bytes begin a sequence that is not complete. -/
structure Unfinished (bytes : List UInt8) : Prop where
  begins : ∃ text t, Spells text t ∧ bytes <+: text
  incomplete : ∀ t, ¬Spells bytes t

theorem OpenTitle.unfinished {bytes : List UInt8} (h : OpenTitle bytes) : Unfinished bytes := by
  refine ⟨?_, fun t ht => ?_⟩
  · obtain ⟨selector, text, hselector, rfl, hfound⟩ := h
    have hbell : findOscTerminator (text ++ [0x07]) = some (text.length, [0x07].length) := by
      rw [findOscTerminator, findTerminatorFrom_bell hfound, Nat.zero_add]
      rfl
    refine ⟨_, _, .title hselector hbell, ?_⟩
    rw [← List.append_assoc]
    exact List.prefix_append _ _
  · by_cases hquery : bytes = cursorPositionQuery
    · obtain ⟨selector, text, hselector, rfl, hfound⟩ := h
      cases hquery
    · have hmore := nextSequence_openTitle h
      rw [nextSequence_of_spells ht hquery] at hmore
      cases hmore

/-- The recogniser waits at each of the openings. -/
theorem opening_more : ∀ bytes ∈ allOpenings, nextSequence bytes = .more := by
  decide +kernel

theorem opening_begins {opening : List UInt8} (h : opening ∈ openings) : ∃ text t, Spells text t ∧ opening <+: text := by
  simp only [openings, List.mem_cons, List.not_mem_nil, or_false] at h
  rcases h with rfl | rfl | rfl | rfl | rfl
  · exact ⟨_, _, .query, List.prefix_rfl⟩
  · exact ⟨_, _, .mode (.inl rfl) (.inl rfl), List.prefix_append _ _⟩
  · exact ⟨_, _, .mode (.inr rfl) (.inl rfl), List.prefix_append _ _⟩
  · exact ⟨_, _, @Spells.title _ [] [0x07] (.inl rfl) rfl, ⟨[';'.toUInt8, 0x07], rfl⟩⟩
  · exact ⟨_, _, @Spells.title _ [] [0x07] (.inr rfl) rfl, ⟨[';'.toUInt8, 0x07], rfl⟩⟩

theorem Opening.unfinished {bytes : List UInt8} (h : Opening bytes) (hquery : bytes ≠ cursorPositionQuery) : Unfinished bytes := by
  refine ⟨?_, fun t ht => ?_⟩
  · obtain ⟨opening, hm, hp⟩ := h
    obtain ⟨text, t, hspells, hopening⟩ := opening_begins hm
    exact ⟨text, t, hspells, hp.trans hopening⟩
  · have hmore := opening_more bytes h.mem
    rw [nextSequence_of_spells ht hquery] at hmore
    cases hmore

/-- **What is kept is unfinished**, unless a query ends the stream outside of a title. -/
theorem unfinished_kept_iff (stream : List UInt8) :
    Unfinished (keptOf stream) ↔ (cursorPositionQuery <:+ stream → InTitle stream) := by
  constructor
  · rintro h ⟨before, rfl⟩
    rcases @keptOf_escape before [0x5b, 0x36, 0x6e] rfl with hkept | hkept
    · have hincomplete := h.incomplete .cursorPositionQuery
      rw [cursorPositionQuery, hkept] at hincomplete
      exact absurd Spells.query hincomplete
    · exact (inTitle_iff _).mpr hkept
  · intro h
    rcases kept_cases stream with hkept | hkept
    · refine hkept.unfinished fun hquery => ?_
      have hstream := Scanner.texts_scan steady_nextSequence stream
      have hsuffix : cursorPositionQuery <:+ stream := by
        rw [← hquery]
        exact ⟨_, hstream⟩
      obtain ⟨selector, text, _, htitle, _⟩ := (inTitle_iff _).mp (h hsuffix)
      rw [hquery] at htitle
      cases htitle
    · exact hkept.unfinished

/-! ## The processor and the pieces -/

namespace ServerOutputProcessor

/-- What all sequences do that are taken out. -/
def applyAll (cursor : Nat × Nat) (p : ServerOutputProcessor) (found : List ControlSequence) : ServerOutputProcessor :=
  found.foldl (apply cursor) p

end ServerOutputProcessor

/-- The sequences among some pieces. -/
def found (pieces : List (Piece UInt8 ControlSequence)) : List ControlSequence := pieces.filterMap Piece.tag

@[simp] theorem found_append (xs ys : List (Piece UInt8 ControlSequence)) : found (xs ++ ys) = found xs ++ found ys :=
  List.filterMap_append

@[simp] theorem found_plain (b : UInt8) (pieces : List (Piece UInt8 ControlSequence)) : found (.plain b :: pieces) = found pieces :=
  rfl

@[simp] theorem found_token (text : List UInt8) (t : ControlSequence) (pieces : List (Piece UInt8 ControlSequence)) :
    found (.token text t :: pieces) = t :: found pieces := rfl

/-- The responses to all queries, the first left out if `skip`. -/
def reports (cursor : Nat × Nat) : Bool → List ControlSequence → List UInt8
  | _, [] => []
  | true, .cursorPositionQuery :: rest => reports cursor false rest
  | false, .cursorPositionQuery :: rest => cursorPositionReport cursor ++ reports cursor false rest
  | skip, .mode :: rest => reports cursor skip rest
  | skip, .title _ :: rest => reports cursor skip rest

/-- No query has come yet. -/
def skips (skip : Bool) (found : List ControlSequence) : Bool := skip && !found.contains .cursorPositionQuery

def lastTitle : List ControlSequence → Option String
  | [] => none
  | .title (some title) :: rest => (lastTitle rest).or (some title)
  | _ :: rest => lastTitle rest

theorem reports_append (cursor : Nat × Nat) (ys : List ControlSequence) : ∀ (skip : Bool) (xs : List ControlSequence),
    reports cursor skip (xs ++ ys) = reports cursor skip xs ++ reports cursor (skips skip xs) ys
  | skip, [] => by simp [reports, skips]
  | true, .cursorPositionQuery :: xs => by
    simp only [List.cons_append, reports, skips]
    rw [reports_append cursor ys false xs]
    simp [skips]
  | false, .cursorPositionQuery :: xs => by
    simp only [List.cons_append, reports]
    rw [reports_append cursor ys false xs, List.append_assoc]
    simp [skips]
  | skip, .mode :: xs => by
    have hskips : skips skip (.mode :: xs) = skips skip xs := by simp [skips]
    rw [hskips, List.cons_append]
    cases skip <;> exact reports_append cursor ys _ xs
  | skip, .title title :: xs => by
    have hskips : skips skip (.title title :: xs) = skips skip xs := by simp [skips]
    rw [hskips, List.cons_append]
    cases skip <;> exact reports_append cursor ys _ xs

theorem skips_append (skip : Bool) (xs ys : List ControlSequence) : skips skip (xs ++ ys) = skips (skips skip xs) ys := by
  simp [skips, Bool.and_assoc]

theorem lastTitle_append (ys : List ControlSequence) : ∀ xs : List ControlSequence,
    lastTitle (xs ++ ys) = (lastTitle ys).or (lastTitle xs)
  | [] => by simp [lastTitle]
  | .title (some title) :: xs => by
    simp only [List.cons_append, lastTitle, lastTitle_append ys xs, Option.or_assoc]
  | .title none :: xs => lastTitle_append ys xs
  | .mode :: xs => lastTitle_append ys xs
  | .cursorPositionQuery :: xs => lastTitle_append ys xs

namespace ServerOutputProcessor

variable {cursor : Nat × Nat}

theorem applyAll_eq : ∀ (found : List ControlSequence) (p : ServerOutputProcessor), p.applyAll cursor found =
    { p with
      pendingResponse := p.pendingResponse ++ reports cursor p.skipNextCursorPositionResponse found
      pendingTitle := (lastTitle found).or p.pendingTitle
      skipNextCursorPositionResponse := skips p.skipNextCursorPositionResponse found }
  | [], p => by simp [applyAll, reports, lastTitle, skips]
  | t :: found, p => by
    rw [applyAll, List.foldl_cons, ← applyAll, applyAll_eq found]
    obtain ⟨pending, pendingResponse, pendingTitle, skip⟩ := p
    cases t with
    | cursorPositionQuery => cases skip <;> simp [apply, reports, skips, lastTitle]
    | mode => cases skip <;> simp [apply, reports, skips, lastTitle]
    | title title => cases title <;> cases skip <;> simp [apply, reports, skips, lastTitle]

/-- The loop works through the pieces. -/
theorem processFrom_eq : ∀ (fuel : Nat) (p : ServerOutputProcessor) (remaining filtered : List UInt8),
    remaining.length ≤ fuel → p.pending = [] → processFrom cursor fuel p remaining filtered =
      ({ p.applyAll cursor (found (scan nextSequence remaining).1) with pending := keptOf remaining },
        filtered ++ Scanner.passed (scan nextSequence remaining).1)
  | 0, p, remaining, filtered, hlength, hp => by
    obtain ⟨pending, pendingResponse, pendingTitle, skip⟩ := p
    cases hp
    rw [List.length_eq_zero_iff.mp (Nat.le_zero.mp hlength)]
    exact congrArg (Prod.mk _) (List.append_nil filtered).symm
  | fuel + 1, p, [], filtered, _, hp => by
    obtain ⟨pending, pendingResponse, pendingTitle, skip⟩ := p
    cases hp
    exact congrArg (Prod.mk _) (List.append_nil filtered).symm
  | fuel + 1, p, b :: rest, filtered, hlength, hp => by
    simp only [List.length_cons, Nat.add_le_add_iff_right] at hlength
    rw [processFrom]
    cases hv : nextSequence (b :: rest) with
    | more =>
      dsimp only
      rw [keptOf, Scanner.scan_more hv]
      simp [found, applyAll]
    | plain =>
      dsimp only
      rw [keptOf, Scanner.scan_plain hv, processFrom_eq fuel p rest _ hlength hp]
      simp [keptOf]
    | token n t =>
      obtain ⟨hpos, hle⟩ := steady_nextSequence.length hv
      have hdrop : ((b :: rest).drop n).length ≤ fuel := by
        simp only [List.length_drop, List.length_cons]
        omega
      have happly : (p.apply cursor t).pending = [] := by
        have := @applyAll_eq cursor [t] p
        rw [applyAll, List.foldl_cons, List.foldl_nil] at this
        rw [this]
        exact hp
      dsimp only
      rw [keptOf, Scanner.scan_token steady_nextSequence hv, processFrom_eq fuel _ _ filtered hdrop happly]
      simp [keptOf, applyAll]

theorem process_eq (p : ServerOutputProcessor) (bytes : List UInt8) : p.process bytes cursor =
    ({ p.applyAll cursor (found (scan nextSequence (p.pending ++ bytes)).1) with pending := keptOf (p.pending ++ bytes) },
      Scanner.passed (scan nextSequence (p.pending ++ bytes)).1) := by
  rw [process, processFrom_eq _ _ _ _ (Nat.le_refl _) rfl, applyAll_eq, applyAll_eq]
  rfl

end ServerOutputProcessor

/-- What is kept is what the recogniser waits with. -/
def Waits (p : ServerOutputProcessor) : Prop := scan nextSequence p.pending = ([], p.pending)

/-- A processor that has nothing left to be taken. -/
structure Taken (p : ServerOutputProcessor) : Prop where
  waits : Waits p
  response : p.pendingResponse = []
  title : p.pendingTitle = none

theorem taken_new (skip : Bool) : Taken (.new skip) := ⟨rfl, rfl, rfl⟩

theorem waits_process (p : ServerOutputProcessor) (cursor : Nat × Nat) (bytes : List UInt8) : Waits (p.process bytes cursor).1 := by
  rw [ServerOutputProcessor.process_eq]
  exact Scanner.scan_kept steady_nextSequence _

/-- **What a call lets pass** is what it has been given, and the beginning of a sequence that was none. -/
theorem length_process {p : ServerOutputProcessor} {cursor : Nat × Nat} (h : Waits p) (bytes : List UInt8) :
    (p.process bytes cursor).2.length ≤ bytes.length + 7 := by
  have hkept : p.pending = keptOf p.pending := by
    unfold Waits at h
    rw [keptOf, h]
  rw [ServerOutputProcessor.process_eq]
  show (Scanner.passed (scan nextSequence (p.pending ++ bytes)).1).length ≤ bytes.length + 7
  have hpassed := Scanner.length_passed_scan steady_nextSequence (p.pending ++ bytes)
  rw [List.length_append] at hpassed
  have hcases := kept_cases p.pending
  rw [← hkept] at hcases
  rcases hcases with hopening | htitle
  · have hlength := hopening.length_le
    omega
  · obtain ⟨selector, text, hselector, hpending, hfound⟩ := htitle
    rw [hpending, List.append_assoc, List.append_assoc]
    have hnext := nextSequence_osc ([selector, ';'.toUInt8] ++ (text ++ bytes))
    rw [splitOscTitle_title hselector] at hnext
    cases hterminator : findOscTerminator (text ++ bytes) with
    | none =>
      rw [hterminator] at hnext
      rw [Scanner.scan_more hnext]
      exact Nat.zero_le _
    | some found =>
      obtain ⟨place, size⟩ := found
      rw [hterminator] at hnext
      have hlate := findTerminatorFrom_late hfound hterminator
      have hrest := Scanner.length_passed_scan steady_nextSequence
        ((oscPrefix ++ ([selector, ';'.toUInt8] ++ (text ++ bytes))).drop (oscPrefix.length + 2 + place + size))
      rw [Scanner.scan_token steady_nextSequence hnext, Scanner.passed_token]
      refine Nat.le_trans hrest ?_
      simp only [List.length_drop, List.length_append, List.length_cons, List.length_nil]
      omega

/-- **All calls together** find what stands in the whole. -/
theorem processAll_eq (cursor : Nat × Nat) : ∀ (chunks : List (List UInt8)) {p : ServerOutputProcessor}, Taken p →
    processAll cursor p chunks =
      ({ p with
          pending := keptOf (p.pending ++ chunks.flatten)
          skipNextCursorPositionResponse :=
            skips p.skipNextCursorPositionResponse (found (scan nextSequence (p.pending ++ chunks.flatten)).1) },
        { filtered := Scanner.passed (scan nextSequence (p.pending ++ chunks.flatten)).1
          responses := reports cursor p.skipNextCursorPositionResponse
            (found (scan nextSequence (p.pending ++ chunks.flatten)).1)
          title := lastTitle (found (scan nextSequence (p.pending ++ chunks.flatten)).1) })
  | [], p, hp => by
    rw [List.flatten_nil, List.append_nil, keptOf, hp.waits]
    simp [processAll, found, reports, skips, lastTitle]
  | chunk :: chunks, p, hp => by
    have happend := Scanner.scan_append steady_nextSequence (p.pending ++ chunk) chunks.flatten
    rw [processAll, ServerOutputProcessor.process_eq, ServerOutputProcessor.applyAll_eq]
    simp only [ServerOutputProcessor.takePendingResponse, ServerOutputProcessor.takePendingTitle, hp.response, hp.title]
    have htaken : ∀ skip, Taken { pending := keptOf (p.pending ++ chunk), skipNextCursorPositionResponse := skip } :=
      fun skip => ⟨Scanner.scan_kept steady_nextSequence _, rfl, rfl⟩
    rw [processAll_eq cursor chunks (htaken _), List.flatten_cons, ← List.append_assoc]
    simp only [keptOf, happend, found_append, Scanner.passed_append, reports_append, skips_append, lastTitle_append,
      List.nil_append, Option.or_none]

/-- What has come out of the calls in the end, the bytes that are kept behind the filtered output. -/
def whole (skip : Bool) (cursor : Nat × Nat) (chunks : List (List UInt8)) : Outcome :=
  let (p, out) := processAll cursor (.new skip) chunks
  { out with filtered := out.filtered ++ p.pending }

def pendingAfter (skip : Bool) (cursor : Nat × Nat) (chunks : List (List UInt8)) : List UInt8 :=
  (processAll cursor (.new skip) chunks).1.pending

/-- The stream in pieces: a sequence that is taken out, and answered if it is a query, or a byte that passes, where no
sequence stands. -/
structure Accounted (skip : Bool) (pieces : List (Piece UInt8 ControlSequence)) (cursor : Nat × Nat) (chunks : List (List UInt8)) :
    Prop where
  texts : Scanner.texts pieces ++ pendingAfter skip cursor chunks = chunks.flatten
  sequences : ∀ text t, .token text t ∈ pieces → Spells text t
  complete : ∀ before b after, pieces = before ++ .plain b :: after → ∀ text t, Spells text t →
    ¬text <+: b :: (Scanner.texts after ++ pendingAfter skip cursor chunks)
  outcome : (processAll cursor (.new skip) chunks).2 =
    { filtered := Scanner.passed pieces, responses := reports cursor skip (found pieces), title := lastTitle (found pieces) }

/-- A division of the stream is not seen, no call keeps a sequence that is complete, and the pieces behind each call are
those that the recogniser finds in all bytes so far. -/
structure Prompt (skip : Bool) (cursor : Nat × Nat) (chunks : List (List UInt8)) : Prop where
  independent : ∀ chunks' : List (List UInt8), chunks'.flatten = chunks.flatten → whole skip cursor chunks' = whole skip cursor chunks
  unfinished : ∀ before, before <+: chunks → Unfinished (pendingAfter skip cursor before)
  accounted : ∀ before, before <+: chunks → Accounted skip (scan nextSequence before.flatten).1 cursor before

theorem pendingAfter_eq (skip : Bool) (cursor : Nat × Nat) (chunks : List (List UInt8)) :
    pendingAfter skip cursor chunks = keptOf chunks.flatten := by
  rw [pendingAfter, processAll_eq cursor chunks (taken_new skip)]
  rfl

theorem spells_of_mem_scan {stream text : List UInt8} {t : ControlSequence}
    (hm : Piece.token text t ∈ (scan nextSequence stream).1) : Spells text t := by
  obtain ⟨rest, hv⟩ := Scanner.token_of_mem_scan steady_nextSequence hm
  have hspells := (nextSequence_token hv).2
  rwa [List.take_left] at hspells

/-- Where a byte passes no sequence stands. -/
theorem not_spells_of_plain {stream text : List UInt8} {t : ControlSequence} (hv : nextSequence stream = .plain)
    (h : Spells text t) : ¬text <+: stream := by
  rintro ⟨rest, rfl⟩
  by_cases hquery : text = cursorPositionQuery
  · subst hquery
    cases rest with
    | nil => cases hv
    | cons b rest =>
      have hlonger : ¬cursorPositionQuery ++ b :: rest <+: cursorPositionQuery := by
        intro hp
        have hlength := hp.length_le
        rw [List.length_append, List.length_cons] at hlength
        omega
      unfold nextSequence at hv
      rw [if_neg hlonger, if_pos (List.prefix_append _ _)] at hv
      cases hv
  · cases (steady_nextSequence.token (nextSequence_of_spells h hquery) rest).symm.trans hv

theorem accounted (skip : Bool) (cursor : Nat × Nat) (chunks : List (List UInt8)) :
    Accounted skip (scan nextSequence chunks.flatten).1 cursor chunks where
  texts := by
    rw [pendingAfter_eq]
    exact Scanner.texts_scan steady_nextSequence _
  sequences _ _ := spells_of_mem_scan
  complete before b after h text t hspells := by
    rw [pendingAfter_eq]
    exact not_spells_of_plain (Scanner.plain_of_scan steady_nextSequence h) hspells
  outcome := by
    rw [processAll_eq cursor chunks (taken_new skip)]
    rfl

/-- **The filter is prompt** exactly if no call's bytes end in a query, except within a title. -/
theorem process_chunks (skip : Bool) (cursor : Nat × Nat) (chunks : List (List UInt8)) :
    Prompt skip cursor chunks ↔
      ∀ before, before <+: chunks → cursorPositionQuery <:+ before.flatten → InTitle before.flatten := by
  have hindependent : ∀ chunks' : List (List UInt8), chunks'.flatten = chunks.flatten →
      whole skip cursor chunks' = whole skip cursor chunks := by
    intro chunks' h
    unfold whole
    rw [processAll_eq cursor chunks (taken_new skip), processAll_eq cursor chunks' (taken_new skip), h]
  constructor
  · intro h before hbefore
    have hunfinished := h.unfinished before hbefore
    rw [pendingAfter_eq] at hunfinished
    exact (unfinished_kept_iff _).mp hunfinished
  · refine fun h => ⟨hindependent, fun before hbefore => ?_, fun before _ => accounted skip cursor before⟩
    rw [pendingAfter_eq]
    exact (unfinished_kept_iff _).mpr (h before hbefore)

/-- **A query that ends a read is kept**, and not answered. -/
theorem query_is_kept : ¬∀ skip cursor chunks, Prompt skip cursor chunks := by
  intro hall
  exact (hall false (0, 0) [cursorPositionQuery]).unfinished [cursorPositionQuery] List.prefix_rfl |>.incomplete _ .query

/-- With text behind it it is answered. -/
example : processAll (4, 2) (.new false) [[0x1b, 0x5b], [0x36, 0x6e, 0x6f, 0x6b]] =
    ({}, { filtered := [0x6f, 0x6b], responses := [0x1b, 0x5b, 0x33, 0x3b, 0x35, 0x52] }) := by decide +kernel

end CliPocket
