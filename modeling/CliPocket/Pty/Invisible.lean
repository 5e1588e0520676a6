import CliPocket.Pty.Filter
import CliPocket.Pty.Parser

/-!
# What the filter hides from the tracker

The tracker sees the filtered output only. It comes to the same as with the raw output where a sequence that is taken out
would have left its parser as it was: in the ground state, and no title with an escape in its text.

- `SameParse`: equal but for the title; `sameParse_advance`: equal trackers go on alike;
- `LeavesParse`: what may be taken out;
- `filter_invisible`: **the filter is invisible exactly if it takes out nothing else**; `filter_is_seen`: a stream where
  it does.
-/

namespace CliPocket

open Scanner (Piece scan texts passed)

/-! ## Trackers that go on alike -/

def AnchorStateMut.untitled (s : AnchorStateMut) : AnchorStateMut := { s with title := none }

/-- The same parser state, cursor, attributes, modes and charsets. -/
structure SameParse (t u : AnchorTracker) : Prop where
  parser : t.parser = u.parser
  state : t.state.untitled = u.state.untitled

theorem SameParse.rfl {t : AnchorTracker} : SameParse t t := ⟨Eq.refl _, Eq.refl _⟩

theorem SameParse.symm {t u : AnchorTracker} (h : SameParse t u) : SameParse u t := ⟨h.parser.symm, h.state.symm⟩

theorem SameParse.trans {t u w : AnchorTracker} (h : SameParse t u) (h' : SameParse u w) : SameParse t w :=
  ⟨h.parser.trans h'.parser, h.state.trans h'.state⟩

/-- The title has no part in what a callback does to the rest. -/
theorem untitled_perform (s : AnchorStateMut) (e : Vte.Event) : (s.perform e).untitled = (s.untitled.perform e).untitled := by
  cases e with
  | print c => rfl
  | execute byte =>
    simp only [AnchorStateMut.perform, AnchorStateMut.execute]
    split <;> rfl
  | hook | put | unhook => rfl
  | oscDispatch params bell =>
    simp only [AnchorStateMut.perform]
    split <;> rfl
  | csiDispatch params intermediates ignore action =>
    simp only [AnchorStateMut.perform, AnchorStateMut.csiDispatch]
    split
    case h_12 | h_13 =>
      unfold AnchorStateMut.modeSet
      split <;> rfl
    all_goals rfl
  | escDispatch intermediates ignore byte =>
    simp only [AnchorStateMut.perform, AnchorStateMut.escDispatch]
    split
    · split <;> rfl
    · rfl

theorem untitled_performAll : ∀ (es : List Vte.Event) {s u : AnchorStateMut}, s.untitled = u.untitled →
    (s.performAll es).untitled = (u.performAll es).untitled
  | [], _, _, h => h
  | e :: es, s, u, h => by
    refine untitled_performAll es ?_
    rw [untitled_perform, h, ← untitled_perform]

/-- **Trackers that are the same go on alike.** -/
theorem SameParse.advance {t u : AnchorTracker} (h : SameParse t u) (bytes : List UInt8) :
    SameParse (t.advance bytes) (u.advance bytes) where
  parser := by rw [AnchorTracker.parser_advance, AnchorTracker.parser_advance, h.parser]
  state := by
    rw [AnchorTracker.state_advance, AnchorTracker.state_advance, h.parser]
    exact untitled_performAll _ h.state

/-! ## Sequences the parser comes through -/

/-- A title without control characters that the parser acts on. -/
def PlainTitle (text : List UInt8) : Prop :=
  ∃ selector title terminator, text = oscPrefix ++ [selector, ';'.toUInt8] ++ (title ++ terminator) ∧
    (selector = '0'.toUInt8 ∨ selector = '2'.toUInt8) ∧ (terminator = [0x07] ∨ terminator = [0x1b, '\\'.toUInt8]) ∧
      ∀ b ∈ title, b ≠ 0x07 ∧ b ≠ 0x18 ∧ b ≠ 0x1a ∧ b ≠ 0x1b

/-- The sequence stands where the parser is in its ground state, and a title has a plain text; or the parser comes through
what else stands in the title to where it was. -/
def LeavesParse (t : AnchorTracker) (text : List UInt8) : ControlSequence → Prop
  | .title _ => (PlainTitle text ∧ t.parser = .ground) ∨ (¬PlainTitle text ∧ SameParse t (t.advance text))
  | _ => t.parser = .ground

/-- ESC begins anew, or ends a character. -/
theorem feed_escape (s : Vte.State) {rest : List UInt8} (hescape : (Vte.feed .escape rest).1 = .ground)
    (hground : (Vte.feed .ground rest).1 = .ground) : (Vte.feed s (0x1b :: rest)).1 = .ground := by
  rw [Vte.feed_cons]
  cases s with
  | utf8 u point => cases u <;> exact hground
  | _ => exact hescape

/-- Behind a query or a mode sequence the parser is in its ground state. -/
theorem feed_spells {text : List UInt8} {t : ControlSequence} (h : Spells text t) (ht : ∀ title, t ≠ .title title) (s : Vte.State) :
    (Vte.feed s text).1 = .ground := by
  cases h with
  | query => exact feed_escape s rfl rfl
  | mode hopening hsuffix =>
    rcases hopening with rfl | rfl <;> rcases hsuffix with rfl | rfl <;> exact feed_escape s rfl rfl
  | title => exact absurd rfl (ht _)

/-- From the ground state it changes nothing. -/
theorem advance_spells {text : List UInt8} {t : ControlSequence} (h : Spells text t) (ht : ∀ title, t ≠ .title title)
    {tracker : AnchorTracker} (hground : tracker.parser = .ground) : SameParse tracker (tracker.advance text) := by
  have hstate : ∀ events, Vte.feed .ground text = (.ground, events) → (∀ s : AnchorStateMut, s.performAll events = s) →
      SameParse tracker (tracker.advance text) := by
    intro events hfeed hevents
    refine ⟨?_, ?_⟩
    · rw [AnchorTracker.parser_advance, hground, hfeed]
    · rw [AnchorTracker.state_advance, hground, hfeed, hevents]
  cases h with
  | query => exact hstate _ rfl fun s => rfl
  | mode hopening hsuffix =>
    rcases hopening with rfl | rfl <;> rcases hsuffix with rfl | rfl <;> exact hstate _ rfl fun s => rfl
  | title => exact absurd rfl (ht _)

/-! ## Titles -/

/-- The parser is between characters, or in one. -/
def Printing : Vte.State → Prop
  | .ground => True
  | .utf8 _ _ => True
  | _ => False

theorem printing_beginUtf8 (b : UInt8) : Printing (Vte.beginUtf8 b) := by
  unfold Vte.beginUtf8
  dsimp only
  split_ifs <;> trivial

theorem printing_ground (b : UInt8) : Printing (Vte.advanceGround b).1 := by
  unfold Vte.advanceGround
  split_ifs
  · trivial
  · trivial
  · trivial
  · exact printing_beginUtf8 b
  · trivial

/-- A byte other than ESC begins no sequence. -/
theorem printing_advance {s : Vte.State} (hs : Printing s) {b : UInt8} (hb : b ≠ 0x1b) : Printing (Vte.advance s b).1 := by
  have he : (b == 0x1b) = false := beq_eq_false_iff_ne.mpr hb
  cases s with
  | ground =>
    unfold Vte.advance
    rw [he]
    split_ifs with h1 h2 h3
    · cases h1
    · trivial
    · cases h3
    · exact printing_ground b
  | utf8 u point =>
    show Printing (Vte.advanceUtf8 u point b).1
    unfold Vte.advanceUtf8
    split <;> trivial
  | _ => cases hs

theorem printing_feed : ∀ {bytes : List UInt8} {s : Vte.State}, Printing s → (∀ b ∈ bytes, b ≠ 0x1b) →
    Printing (Vte.feed s bytes).1
  | [], _, hs, _ => hs
  | b :: bytes, s, hs, h => by
    rw [Vte.feed_cons]
    exact printing_feed (printing_advance hs (h b List.mem_cons_self)) fun c hc => h c (List.mem_cons_of_mem _ hc)

/-- The end of a title ends a character, too. -/
theorem feed_terminator {terminator : List UInt8} (h : terminator = [0x07] ∨ terminator = [0x1b, '\\'.toUInt8]) {s : Vte.State}
    (hs : Printing s) : (Vte.feed s terminator).1 = .ground := by
  cases s with
  | ground => rcases h with rfl | rfl <;> rfl
  | utf8 u point => rcases h with rfl | rfl <;> cases u <;> rfl
  | _ => cases hs

/-- Within a title nothing is performed. -/
theorem feed_title : ∀ {title : List UInt8} (o : Vte.Osc), (∀ b ∈ title, b ≠ 0x07 ∧ b ≠ 0x18 ∧ b ≠ 0x1a ∧ b ≠ 0x1b) →
    ∃ o', Vte.feed (.oscString o) title = (.oscString o', [])
  | [], o, _ => ⟨o, rfl⟩
  | b :: title, o, h => by
    obtain ⟨hbell, hcan, hsub, hesc⟩ := h b List.mem_cons_self
    have hstep : ∃ o', Vte.advance (.oscString o) b = (.oscString o', []) := by
      unfold Vte.advance
      rw [beq_eq_false_iff_ne.mpr hcan, beq_eq_false_iff_ne.mpr hsub, beq_eq_false_iff_ne.mpr hesc]
      simp only [Vte.State.inUtf8, Bool.or_false, Bool.false_eq_true, if_false, Vte.State.row, Vte.advanceOscString]
      rw [beq_eq_false_iff_ne.mpr hbell]
      simp only [Bool.false_eq_true, if_false]
      split_ifs
      · exact ⟨_, rfl⟩
      · exact ⟨_, rfl⟩
    obtain ⟨o', hstep⟩ := hstep
    obtain ⟨o'', hrest⟩ := feed_title o' fun c hc => h c (List.mem_cons_of_mem _ hc)
    refine ⟨o'', ?_⟩
    rw [Vte.feed_cons, hstep, hrest]
    rfl

/-- A plain title sets the title, from whatever state that begins anew at ESC. -/
theorem feed_plainTitle {text : List UInt8} (h : PlainTitle text) : ∃ params bell, ∀ s : AnchorStateMut,
    (Vte.feed .ground text).1 = .ground ∧
      (s.performAll (Vte.feed .ground text).2).untitled = (s.perform (.oscDispatch params bell)).untitled := by
  obtain ⟨selector, title, terminator, rfl, hselector, hterminator, htitle⟩ := h
  have hopen : Vte.feed .ground (oscPrefix ++ [selector, ';'.toUInt8]) = (.oscString ⟨[[selector]], []⟩, []) := by
    rcases hselector with rfl | rfl <;> rfl
  obtain ⟨o, ho⟩ := feed_title ⟨[[selector]], []⟩ htitle
  rw [Vte.feed_append, hopen, Vte.feed_append, ho]
  rcases hterminator with rfl | rfl
  · exact ⟨o.finish, true, fun s => ⟨rfl, rfl⟩⟩
  · exact ⟨o.finish, false, fun s => ⟨rfl, rfl⟩⟩

theorem feed_plainTitle_ground {text : List UInt8} (h : PlainTitle text) (s : Vte.State) : (Vte.feed s text).1 = .ground := by
  have hground : ∀ rest, text = 0x1b :: rest → (Vte.feed .escape rest).1 = .ground := by
    rintro rest rfl
    obtain ⟨params, bell, hfeed⟩ := feed_plainTitle h
    exact (hfeed {}).1
  obtain ⟨selector, title, terminator, htext, hselector, hterminator, htitle⟩ := h
  have hrest : text = 0x1b :: (0x5d :: selector :: ';'.toUInt8 :: (title ++ terminator)) := htext
  rw [hrest]
  refine feed_escape s (hground _ hrest) ?_
  have hpassed : 0x5d :: selector :: ';'.toUInt8 :: (title ++ terminator) = (0x5d :: selector :: ';'.toUInt8 :: title) ++ terminator :=
    rfl
  rw [hpassed, Vte.feed_append]
  refine feed_terminator hterminator (printing_feed trivial ?_)
  intro b hb
  simp only [List.mem_cons] at hb
  rcases hb with rfl | rfl | rfl | hb
  · decide
  · rcases hselector with rfl | rfl <;> decide
  · decide
  · exact (htitle b hb).2.2.2

theorem advance_plainTitle {text : List UInt8} (h : PlainTitle text) {tracker : AnchorTracker} (hground : tracker.parser = .ground) :
    SameParse tracker (tracker.advance text) := by
  obtain ⟨params, bell, hfeed⟩ := feed_plainTitle h
  obtain ⟨hparser, hstate⟩ := hfeed tracker.state
  refine ⟨?_, ?_⟩
  · rw [AnchorTracker.parser_advance, hground, hparser]
  · rw [AnchorTracker.state_advance, hground, hstate]
    simp only [AnchorStateMut.perform]
    split <;> rfl

/-! ## The filter -/

/-- **What leaves the parse**: the parser is where it was, behind the sequence. -/
theorem leavesParse_iff {text : List UInt8} {t : ControlSequence} (h : Spells text t) (tracker : AnchorTracker) :
    LeavesParse tracker text t ↔ SameParse tracker (tracker.advance text) := by
  have hplain : (∀ title, t ≠ .title title) → (tracker.parser = .ground ↔ SameParse tracker (tracker.advance text)) := by
    intro ht
    refine ⟨advance_spells h ht, fun hsame => ?_⟩
    rw [hsame.parser, AnchorTracker.parser_advance, feed_spells h ht]
  cases t with
  | cursorPositionQuery => exact hplain fun _ => ControlSequence.noConfusion
  | mode => exact hplain fun _ => ControlSequence.noConfusion
  | title title =>
    constructor
    · rintro (⟨htitle, hground⟩ | ⟨_, hsame⟩)
      · exact advance_plainTitle htitle hground
      · exact hsame
    · intro hsame
      by_cases htitle : PlainTitle text
      · refine .inl ⟨htitle, ?_⟩
        rw [hsame.parser, AnchorTracker.parser_advance, feed_plainTitle_ground htitle]
      · exact .inr ⟨htitle, hsame⟩

/-- The tracker comes to the same with the filtered and with the raw output, at the end of every read and between any two
pieces of the output. -/
structure Invisible (skip : Bool) (cursor : Nat × Nat) (chunks : List (List UInt8)) : Prop where
  reads : ∀ before raw, before <+: chunks → raw ++ pendingAfter skip cursor before = before.flatten →
    SameParse (AnchorTracker.new.advance (processAll cursor (.new skip) before).2.filtered) (AnchorTracker.new.advance raw)
  pieces : ∀ before, before <+: (scan nextSequence chunks.flatten).1 →
    SameParse (AnchorTracker.new.advance (passed before)) (AnchorTracker.new.advance (texts before))

/-- Pieces that leave the parse can be taken out. -/
theorem sameParse_pieces {pieces : List (Piece UInt8 ControlSequence)} (hspells : ∀ text t, .token text t ∈ pieces → Spells text t)
    (hleaves : ∀ before text t, before ++ [.token text t] <+: pieces → LeavesParse (AnchorTracker.new.advance (passed before)) text t)
    {before : List (Piece UInt8 ControlSequence)} (hbefore : before <+: pieces) :
    SameParse (AnchorTracker.new.advance (passed before)) (AnchorTracker.new.advance (texts before)) := by
  induction before using List.reverseRecOn with
  | nil => exact .rfl
  | append_singleton before piece ih =>
    have hsame := ih ((List.prefix_append before [piece]).trans hbefore)
    have hm : piece ∈ pieces := hbefore.subset (by simp)
    rw [Scanner.passed_append, Scanner.texts_append, AnchorTracker.advance_append, AnchorTracker.advance_append]
    cases piece with
    | plain b => exact hsame.advance [b]
    | token text t =>
      have hleft := (leavesParse_iff (hspells text t hm) _).mp (hleaves before text t hbefore)
      have htexts : texts [Piece.token text t] = text := List.append_nil text
      rw [htexts]
      exact hleft.trans (hsame.advance text)

/-- **The filter is invisible** exactly if what it takes out leaves the parse. -/
theorem filter_invisible (skip : Bool) (cursor : Nat × Nat) (chunks : List (List UInt8)) :
    Invisible skip cursor chunks ↔
      ∀ before text t, before ++ [.token text t] <+: (scan nextSequence chunks.flatten).1 →
        LeavesParse (AnchorTracker.new.advance (passed before)) text t := by
  constructor
  · intro h before text t hbefore
    have hm : Piece.token text t ∈ (scan nextSequence chunks.flatten).1 := hbefore.subset (by simp)
    rw [leavesParse_iff (spells_of_mem_scan hm)]
    have hold := h.pieces before ((List.prefix_append _ _).trans hbefore)
    have hnew := h.pieces _ hbefore
    have htexts : texts [Piece.token text t] = text := List.append_nil text
    have hpassed : passed (before ++ [Piece.token text t]) = passed before := by
      rw [Scanner.passed_append]
      exact List.append_nil _
    rw [hpassed, Scanner.texts_append, htexts, AnchorTracker.advance_append] at hnew
    exact hnew.trans (hold.symm.advance text)
  · intro h
    refine ⟨fun before raw hbefore hraw => ?_, fun before hbefore => ?_⟩
    · have haccounted := accounted skip cursor before
      have htexts : raw = texts (scan nextSequence before.flatten).1 :=
        List.append_cancel_right (hraw.trans haccounted.texts.symm)
      rw [haccounted.outcome, htexts]
      refine sameParse_pieces (fun _ _ => spells_of_mem_scan) (fun first text t hfirst => h first text t (hfirst.trans ?_))
        List.prefix_rfl
      obtain ⟨rest, rfl⟩ := hbefore
      rw [List.flatten_append, Scanner.scan_append steady_nextSequence]
      exact List.prefix_append _ _
    · exact sameParse_pieces (fun _ _ => spells_of_mem_scan) h hbefore

/-- A query within another sequence, whose end is then read as if it followed its beginning. -/
def splitSgr : List UInt8 := [0x1b, 0x5b, 0x33] ++ cursorPositionQuery ++ [0x31, 0x6d]

/-- **Other streams are parsed otherwise**: the attributes differ. -/
theorem filter_is_seen : ¬∀ skip cursor chunks raw, raw ++ pendingAfter skip cursor chunks = chunks.flatten →
    (AnchorTracker.new.advance (processAll cursor (.new skip) chunks).2.filtered).state.sgr =
      (AnchorTracker.new.advance raw).state.sgr := by
  intro hall
  have hsgr := hall false (0, 0) [splitSgr] splitSgr (by rfl)
  revert hsgr
  decide +kernel

end CliPocket
