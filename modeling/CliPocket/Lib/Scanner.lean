import Mathlib.Data.List.Infix

/-!
# Scanning a stream that arrives in chunks

A recogniser looks at all that is there from a position on: it asks for more, takes a token off the front, or lets the
first symbol pass. What it asks more for is kept for the next chunk.

- `Verdict`, `Piece`, `scan`: the answers of a recogniser, and what they make of a stream;
- `Steady`: an answer other than `more` stays the same however the stream goes on;
- `scan_append`, `scan_flatten`: **a steady recogniser does not see the chunks.**
-/

namespace Scanner

variable {β τ : Type*}

/-- What a recogniser says of a stream from a position on. -/
inductive Verdict (τ : Type*)
  | more
  | token (length : Nat) (t : τ)
  | plain
  deriving DecidableEq

inductive Piece (β τ : Type*)
  | plain (b : β)
  | token (text : List β) (t : τ)
  deriving DecidableEq

/-- What the piece is made of. -/
def Piece.text : Piece β τ → List β
  | .plain b => [b]
  | .token text _ => text

/-- What passes. -/
def Piece.passed : Piece β τ → Option β
  | .plain b => some b
  | .token _ _ => none

def Piece.tag : Piece β τ → Option τ
  | .plain _ => none
  | .token _ t => some t

/-- The whole of some pieces. -/
def texts (pieces : List (Piece β τ)) : List β := pieces.flatMap Piece.text

def passed (pieces : List (Piece β τ)) : List β := pieces.filterMap Piece.passed

/-- The pieces of a stream, and what is kept. -/
def scanFrom (recognise : List β → Verdict τ) : Nat → List β → List (Piece β τ) × List β
  | 0, rest => ([], rest)
  | _ + 1, [] => ([], [])
  | fuel + 1, b :: rest =>
    match recognise (b :: rest) with
    | .more => ([], b :: rest)
    | .token n t =>
      let (pieces, kept) := scanFrom recognise fuel ((b :: rest).drop n)
      (.token ((b :: rest).take n) t :: pieces, kept)
    | .plain =>
      let (pieces, kept) := scanFrom recognise fuel rest
      (.plain b :: pieces, kept)

def scan (recognise : List β → Verdict τ) (stream : List β) : List (Piece β τ) × List β :=
  scanFrom recognise stream.length stream

/-- A chunk behind what is kept. -/
def feed (recognise : List β → Verdict τ) (state : List (Piece β τ) × List β) (chunk : List β) : List (Piece β τ) × List β :=
  (state.1 ++ (scan recognise (state.2 ++ chunk)).1, (scan recognise (state.2 ++ chunk)).2)

/-- Tokens have a length, and what is not undecided stays as it is when more comes. -/
structure Steady (recognise : List β → Verdict τ) : Prop where
  length : ∀ {xs n t}, recognise xs = .token n t → 0 < n ∧ n ≤ xs.length
  token : ∀ {xs n t}, recognise xs = .token n t → ∀ ys, recognise (xs ++ ys) = .token n t
  plain : ∀ {xs}, xs ≠ [] → recognise xs = .plain → ∀ ys, recognise (xs ++ ys) = .plain

section Pieces

@[simp] theorem texts_nil : texts ([] : List (Piece β τ)) = [] := rfl

@[simp] theorem texts_cons (piece : Piece β τ) (pieces : List (Piece β τ)) :
    texts (piece :: pieces) = piece.text ++ texts pieces := List.flatMap_cons

@[simp] theorem texts_append (xs ys : List (Piece β τ)) : texts (xs ++ ys) = texts xs ++ texts ys := List.flatMap_append

@[simp] theorem passed_nil : passed ([] : List (Piece β τ)) = [] := rfl

@[simp] theorem passed_plain (b : β) (pieces : List (Piece β τ)) : passed (.plain b :: pieces) = b :: passed pieces := rfl

@[simp] theorem passed_token (text : List β) (t : τ) (pieces : List (Piece β τ)) :
    passed (.token text t :: pieces) = passed pieces := rfl

@[simp] theorem passed_append (xs ys : List (Piece β τ)) : passed (xs ++ ys) = passed xs ++ passed ys :=
  List.filterMap_append

end Pieces

variable {recognise : List β → Verdict τ}

/-! ## One piece -/

/-- Fuel beyond the length makes no difference. -/
theorem scanFrom_fuel (hs : Steady recognise) : ∀ {fuel : Nat} {stream : List β}, stream.length ≤ fuel →
    scanFrom recognise fuel stream = scan recognise stream := by
  have hmain : ∀ n m : Nat, ∀ stream : List β, stream.length ≤ n → stream.length ≤ m →
      scanFrom recognise n stream = scanFrom recognise m stream := by
    intro n
    induction n with
    | zero =>
      intro m stream hn hm
      rw [List.length_eq_zero_iff.mp (Nat.le_zero.mp hn)]
      cases m <;> rfl
    | succ n ih =>
      intro m stream hn hm
      cases stream with
      | nil => cases m <;> rfl
      | cons b rest =>
        cases m with
        | zero => simp at hm
        | succ m =>
          simp only [List.length_cons, Nat.add_le_add_iff_right] at hn hm
          simp only [scanFrom]
          cases hv : recognise (b :: rest) with
          | more => rfl
          | plain => simp only [ih m rest hn hm]
          | token k t =>
            have hk := (hs.length hv).1
            have hdrop : ((b :: rest).drop k).length ≤ rest.length := by
              simp only [List.length_drop, List.length_cons]
              omega
            dsimp only
            rw [ih m ((b :: rest).drop k) (by omega) (by omega)]
  intro fuel stream h
  exact hmain _ _ _ h (Nat.le_refl _)

theorem scan_more {stream : List β} (hv : recognise stream = .more) : scan recognise stream = ([], stream) := by
  cases stream with
  | nil => rfl
  | cons b rest => simp only [scan, List.length_cons, scanFrom, hv]

theorem scan_plain {b : β} {rest : List β} (hv : recognise (b :: rest) = .plain) :
    scan recognise (b :: rest) = (.plain b :: (scan recognise rest).1, (scan recognise rest).2) := by
  simp only [scan, List.length_cons, scanFrom, hv]

theorem scan_token (hs : Steady recognise) {stream : List β} {n : Nat} {t : τ} (hv : recognise stream = .token n t) :
    scan recognise stream =
      (.token (stream.take n) t :: (scan recognise (stream.drop n)).1, (scan recognise (stream.drop n)).2) := by
  obtain ⟨hpos, hle⟩ := hs.length hv
  cases stream with
  | nil => simp only [List.length_nil] at hle; omega
  | cons b rest =>
    have hlength : ((b :: rest).drop n).length ≤ rest.length := by
      simp only [List.length_drop, List.length_cons]
      omega
    have hfuel := scanFrom_fuel hs hlength
    simp only [scan, List.length_cons, scanFrom, hv]
    rw [hfuel]
    rfl

/-! ## Streams -/

/-- The induction over the pieces of a stream. -/
theorem scan_induction (hs : Steady recognise) {P : List β → List (Piece β τ) → List β → Prop} (hnil : P [] [] [])
    (hmore : ∀ stream, stream ≠ [] → recognise stream = .more → P stream [] stream)
    (hplain : ∀ b rest, recognise (b :: rest) = .plain → P rest (scan recognise rest).1 (scan recognise rest).2 →
      P (b :: rest) (.plain b :: (scan recognise rest).1) (scan recognise rest).2)
    (htoken : ∀ text rest t, recognise (text ++ rest) = .token text.length t →
      P rest (scan recognise rest).1 (scan recognise rest).2 →
      P (text ++ rest) (.token text t :: (scan recognise rest).1) (scan recognise rest).2) (stream : List β) :
    P stream (scan recognise stream).1 (scan recognise stream).2 := by
  induction hn : stream.length using Nat.strongRecOn generalizing stream with
  | ind n ih =>
    cases stream with
    | nil => exact hnil
    | cons b rest =>
      simp only [List.length_cons] at hn
      cases hv : recognise (b :: rest) with
      | more =>
        rw [scan_more hv]
        exact hmore _ (List.cons_ne_nil _ _) hv
      | plain =>
        rw [scan_plain hv]
        exact hplain b rest hv (ih rest.length (by omega) rest rfl)
      | token k t =>
        obtain ⟨hpos, hle⟩ := hs.length hv
        rw [scan_token hs hv]
        have hlength : ((b :: rest).take k).length = k := by
          rw [List.length_take]
          exact Nat.min_eq_left hle
        have hstream : (b :: rest).take k ++ (b :: rest).drop k = b :: rest := List.take_append_drop _ _
        have h := htoken ((b :: rest).take k) ((b :: rest).drop k) t (by rw [hstream, hlength, hv])
          (ih ((b :: rest).drop k).length (by simp only [List.length_drop, List.length_cons]; omega) _ rfl)
        rwa [hstream] at h

/-- Nothing is lost. -/
theorem texts_scan (hs : Steady recognise) (stream : List β) :
    texts (scan recognise stream).1 ++ (scan recognise stream).2 = stream := by
  refine @scan_induction _ _ _ hs (fun stream pieces kept => texts pieces ++ kept = stream) rfl (fun _ _ _ => rfl) ?_ ?_ stream
  · intro b rest _ ih
    rw [texts_cons, List.append_assoc, ih]
    rfl
  · intro text rest t _ ih
    rw [texts_cons, List.append_assoc, ih]
    rfl

/-- What passes is not longer than what there is. -/
theorem length_passed_scan (hs : Steady recognise) (stream : List β) :
    (passed (scan recognise stream).1).length ≤ stream.length := by
  refine @scan_induction _ _ _ hs (fun stream pieces _ => (passed pieces).length ≤ stream.length) (Nat.le_refl _)
    (fun _ _ _ => Nat.zero_le _) ?_ ?_ stream
  · intro b rest _ ih
    simp only [passed_plain, List.length_cons]
    omega
  · intro text rest t _ ih
    rw [passed_token, List.length_append]
    omega

/-- A token is what the recogniser took it for. -/
theorem token_of_mem_scan (hs : Steady recognise) {stream text : List β} {t : τ}
    (hm : Piece.token text t ∈ (scan recognise stream).1) : ∃ rest, recognise (text ++ rest) = .token text.length t := by
  revert hm
  refine @scan_induction _ _ _ hs (fun _ pieces _ => Piece.token text t ∈ pieces → ∃ rest,
    recognise (text ++ rest) = .token text.length t) (fun hm => absurd hm List.not_mem_nil)
    (fun _ _ _ hm => absurd hm List.not_mem_nil) ?_ ?_ stream
  · intro b rest _ ih hm
    rcases List.mem_cons.mp hm with he | hm
    · cases he
    · exact ih hm
  · intro text' rest t' hv ih hm
    rcases List.mem_cons.mp hm with he | hm
    · cases he
      exact ⟨rest, hv⟩
    · exact ih hm

/-- A symbol has passed where the recogniser lets it, with all that stands behind it. -/
theorem plain_of_scan (hs : Steady recognise) {stream : List β} {before after : List (Piece β τ)} {b : β}
    (h : (scan recognise stream).1 = before ++ .plain b :: after) :
    recognise (b :: (texts after ++ (scan recognise stream).2)) = .plain := by
  revert before
  refine @scan_induction _ _ _ hs (fun _ pieces kept => ∀ {before : List (Piece β τ)}, pieces = before ++ .plain b :: after →
    recognise (b :: (texts after ++ kept)) = .plain) ?_ ?_ ?_ ?_ stream
  · intro before h
    cases before <;> cases h
  · intro _ _ _ before h
    cases before <;> cases h
  · intro b' rest hv ih before h
    cases before with
    | nil =>
      cases h
      rw [texts_scan hs]
      exact hv
    | cons piece before => exact ih (List.cons.inj h).2
  · intro text rest t _ ih before h
    cases before with
    | nil => cases h
    | cons piece before => exact ih (List.cons.inj h).2

/-- What is kept is undecided. -/
theorem kept_scan (hs : Steady recognise) (stream : List β) :
    (scan recognise stream).2 = [] ∨ recognise (scan recognise stream).2 = .more :=
  @scan_induction _ _ _ hs (fun _ _ kept => kept = [] ∨ recognise kept = .more) (.inl rfl) (fun _ _ hv => .inr hv)
    (fun _ _ _ ih => ih) (fun _ _ _ _ ih => ih) stream

/-- **A stream that goes on**: its pieces, and then those of what was kept with the rest. -/
theorem scan_append (hs : Steady recognise) (xs ys : List β) :
    scan recognise (xs ++ ys) = ((scan recognise xs).1 ++ (scan recognise ((scan recognise xs).2 ++ ys)).1,
      (scan recognise ((scan recognise xs).2 ++ ys)).2) := by
  refine @scan_induction _ _ _ hs (fun xs pieces kept => scan recognise (xs ++ ys) =
    (pieces ++ (scan recognise (kept ++ ys)).1, (scan recognise (kept ++ ys)).2)) rfl (fun _ _ _ => rfl) ?_ ?_ xs
  · intro b rest hv ih
    have hv' : recognise (b :: (rest ++ ys)) = .plain := hs.plain (List.cons_ne_nil _ _) hv ys
    rw [List.cons_append, scan_plain hv', ih]
    rfl
  · intro text rest t hv ih
    have hv' := hs.token hv ys
    rw [List.append_assoc] at hv' ⊢
    rw [scan_token hs hv', List.drop_left, List.take_left, ih]
    rfl

theorem scan_kept (hs : Steady recognise) (stream : List β) :
    scan recognise (scan recognise stream).2 = ([], (scan recognise stream).2) := by
  rcases kept_scan hs stream with h | h
  · rw [h]
    rfl
  · exact scan_more h

/-- **Chunks are not seen**: fed one after the other they give the pieces of the whole, and what it keeps. -/
theorem scan_flatten (hs : Steady recognise) : ∀ (chunks : List (List β)) (stream : List β),
    chunks.foldl (feed recognise) (scan recognise stream) = scan recognise (stream ++ chunks.flatten)
  | [], stream => by rw [List.flatten_nil, List.append_nil, List.foldl_nil]
  | chunk :: chunks, stream => by
    have hfeed : feed recognise (scan recognise stream) chunk = scan recognise (stream ++ chunk) := by
      rw [scan_append hs]
      rfl
    rw [List.foldl_cons, hfeed, scan_flatten hs chunks, List.flatten_cons, List.append_assoc]

end Scanner
