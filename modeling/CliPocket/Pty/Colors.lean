import CliPocket.Pty.Parser

/-!
# Extended colours among SGR parameters

A 38 or 48 among the parameters of an SGR sequence opens an extended colour, whose other parameters stand behind it:
as its own sub-parameters (`38:5:n`), or as the next parameters (`38;5;n`, `38;2;r;g;b`).

- `colourMask`, `withoutColours`: the parameters that belong to an extended colour, and the list without them;
- `attributeMask`: the parameters that the loop of `sgr` takes as attributes;
- `Readable`: no extended colour in semicolon form is cut off, or has a component above 255;
- `colours_leak_iff`: **the loop takes no parameter of an extended colour as an attribute exactly if they are readable.**
-/

namespace CliPocket

/-! ## Groups -/

def opensColour (item : List Nat) : Bool := item.headD 0 = 38 || item.headD 0 = 48

/-- The number of parameters that belong to the extended colour behind its first one. -/
def colourTail (current : List Nat) (rest : List (List Nat)) : Nat :=
  match current[1]? with
  | some _ => 0
  | none =>
    match (rest[0]?).bind List.head? with
    | some 5 => 2
    | some 2 => 4
    | _ => 0

/-- For each parameter, whether it belongs to an extended colour; `skip` are left of the last one. -/
def colourMask : List (List Nat) → Nat → List Bool
  | [], _ => []
  | _ :: rest, skip + 1 => true :: colourMask rest skip
  | item :: rest, 0 =>
    if opensColour item then true :: colourMask rest (colourTail item rest) else false :: colourMask rest 0

/-- The parameters without the extended colours. -/
def withoutColours : List (List Nat) → Nat → List (List Nat)
  | [], _ => []
  | _ :: rest, skip + 1 => withoutColours rest skip
  | item :: rest, 0 =>
    if opensColour item then withoutColours rest (colourTail item rest) else item :: withoutColours rest 0

/-- For each parameter, whether the loop takes it as an attribute of its own; see `sgrLoop`. -/
def attributeMask : List (List Nat) → Nat → List Bool
  | [], _ => []
  | _ :: rest, skip + 1 => false :: attributeMask rest skip
  | item :: rest, 0 =>
    if opensColour item then
      match parseExtendedColor item rest with
      | some (_, consumed) => false :: attributeMask rest (consumed - 1)
      | none => false :: attributeMask rest 0
    else true :: attributeMask rest 0

/-- The component at `index` is there, and fits in a byte. -/
def componentFits (items : List (List Nat)) (index : Nat) : Bool :=
  match (items[index]?).bind List.head? with
  | some value => value < 256
  | none => false

/-- An extended colour in semicolon form is complete, with components that fit. -/
def isReadable (current : List Nat) (rest : List (List Nat)) : Bool :=
  match current[1]? with
  | some _ => true
  | none =>
    match (rest[0]?).bind List.head? with
    | some 5 => componentFits rest 1
    | some 2 => componentFits rest 1 && componentFits rest 2 && componentFits rest 3
    | _ => true

/-- Every extended colour is readable. -/
def Readable : List (List Nat) → Nat → Prop
  | [], _ => True
  | _ :: rest, skip + 1 => Readable rest skip
  | item :: rest, 0 =>
    if opensColour item then isReadable item rest = true ∧ Readable rest (colourTail item rest) else Readable rest 0

/-- The attributes other than the colours. -/
def SgrAttrs.flags (sgr : SgrAttrs) : SgrAttrs := { sgr with fg := none, bg := none }

/-- No parameter of an extended colour is taken as an attribute, and the flags are those of the other parameters. -/
structure Leakless (params : List (List Nat)) : Prop where
  apart : ∀ i : Nat, (colourMask params 0)[i]? = some true → (attributeMask params 0)[i]? = some false
  flags : ∀ s : AnchorStateMut, (s.applySgr params).sgr.flags =
    (if params.isEmpty then {} else sgrLoop (withoutColours params 0) 0 s.sgr).flags

/-! ## The loop -/

variable {items rest : List (List Nat)} {item : List Nat} {skip : Nat} {sgr sgr' : SgrAttrs}

theorem toU8?_isSome {value : Nat} : (toU8? value).isSome = decide (value < 256) := by
  unfold toU8?
  split
  · next h => exact (decide_eq_true h).symm
  · next h => exact (decide_eq_false h).symm

theorem itemByte_isSome (items : List (List Nat)) (index : Nat) :
    (itemByte items index).isSome = componentFits items index := by
  unfold itemByte componentFits
  cases (items[index]?).bind List.head? with
  | none => rfl
  | some value => exact toU8?_isSome

/-- **The colour parser.** What it skips is the group if that is readable, and nothing if it is not. -/
theorem parseExtendedColor_skips (item : List Nat) (rest : List (List Nat)) :
    ((parseExtendedColor item rest).map fun color => color.2 - 1).getD 0 =
      if isReadable item rest then colourTail item rest else 0 := by
  unfold parseExtendedColor isReadable colourTail
  cases item[1]? with
  | some form =>
    split
    · cases byteAt item 2 <;> rfl
    · cases byteAt item 2 <;> cases byteAt item 3 <;> cases byteAt item 4 <;> rfl
    · next h => cases h
    · rfl
  | none =>
    dsimp only
    generalize (rest[0]?).bind List.head? = form
    match form with
    | some 5 =>
      rw [← itemByte_isSome]
      cases itemByte rest 1 <;> rfl
    | some 2 =>
      rw [← itemByte_isSome, ← itemByte_isSome, ← itemByte_isSome]
      cases itemByte rest 1 <;> cases itemByte rest 2 <;> cases itemByte rest 3 <;> rfl
    | none | some 0 | some 1 | some 3 | some 4 | some (n + 6) => rfl

/-- The loop at an extended colour goes on behind what the colour parser skips. -/
theorem attributeMask_colour (h : opensColour item = true) : attributeMask (item :: rest) 0 =
    false :: attributeMask rest (((parseExtendedColor item rest).map fun color => color.2 - 1).getD 0) := by
  rw [attributeMask, if_pos h]
  cases parseExtendedColor item rest <;> rfl

theorem sgrLoop_colour (h : opensColour item = true) : ∃ colored : SgrAttrs, colored.flags = sgr.flags ∧
    sgrLoop (item :: rest) 0 sgr =
      sgrLoop rest (((parseExtendedColor item rest).map fun color => color.2 - 1).getD 0) colored := by
  have hcode : item.headD 0 = 38 ∨ item.headD 0 = 48 := by
    unfold opensColour at h
    simpa using h
  rw [sgrLoop]
  rw [if_pos hcode]
  cases parseExtendedColor item rest with
  | none => exact ⟨sgr, rfl, rfl⟩
  | some color =>
    refine ⟨_, ?_, rfl⟩
    split <;> rfl

theorem sgrLoop_attribute (h : opensColour item = false) :
    sgrLoop (item :: rest) 0 sgr = sgrLoop rest 0 (sgrCode (item.headD 0) sgr) := by
  have hcode : ¬(item.headD 0 = 38 ∨ item.headD 0 = 48) := by
    unfold opensColour at h
    simpa using h
  rw [sgrLoop]
  rw [if_neg hcode]

/-- The flags after a code are made from the flags before it. -/
theorem flags_sgrCode (code : Nat) (h : sgr.flags = sgr'.flags) : (sgrCode code sgr).flags = (sgrCode code sgr').flags := by
  have hflags : ∀ sgr : SgrAttrs, (sgrCode code sgr).flags = (sgrCode code sgr.flags).flags := by
    intro sgr
    unfold sgrCode
    split
    all_goals first
      | rfl
      | (split
         · rfl
         · split
           · rfl
           · split
             · rfl
             · split <;> rfl)
  rw [hflags sgr, hflags sgr', h]

/-- A list of readable colours: the loop takes as attributes what does not belong to them. -/
theorem attributeMask_of_readable : ∀ (items : List (List Nat)) (skip : Nat), Readable items skip →
    attributeMask items skip = (colourMask items skip).map fun belongs => !belongs
  | [], _, _ => by simp only [attributeMask, colourMask, List.map_nil]
  | _ :: rest, skip + 1, h => by
    simp only [attributeMask, colourMask, List.map_cons, Bool.not_true]
    rw [attributeMask_of_readable rest skip h]
  | item :: rest, 0, h => by
    unfold Readable at h
    split at h
    · next hopens =>
      rw [attributeMask_colour hopens, parseExtendedColor_skips, if_pos h.1, colourMask, if_pos hopens,
        attributeMask_of_readable rest _ h.2]
      rfl
    · next hopens =>
      rw [attributeMask, if_neg hopens, colourMask, if_neg hopens, attributeMask_of_readable rest 0 h]
      rfl

/-- And the flags are those of the list without them. -/
theorem flags_of_readable : ∀ (items : List (List Nat)) (skip : Nat), Readable items skip →
    ∀ {sgr sgr' : SgrAttrs}, sgr.flags = sgr'.flags →
      (sgrLoop items skip sgr).flags = (sgrLoop (withoutColours items skip) 0 sgr').flags
  | [], _, _, _, _, hflags => by
    simp only [withoutColours, sgrLoop]
    exact hflags
  | _ :: rest, skip + 1, h, _, _, hflags => by
    simp only [withoutColours, sgrLoop]
    exact flags_of_readable rest skip h hflags
  | item :: rest, 0, h, sgr, sgr', hflags => by
    unfold Readable at h
    split at h
    · next hopens =>
      obtain ⟨colored, hcolored, hloop⟩ := @sgrLoop_colour rest item sgr hopens
      rw [hloop, parseExtendedColor_skips, if_pos h.1, withoutColours, if_pos hopens]
      exact flags_of_readable rest _ h.2 (hcolored.trans hflags)
    · next hopens =>
      have hplain : opensColour item = false := Bool.eq_false_iff.mpr hopens
      rw [withoutColours, if_neg hopens, sgrLoop_attribute hplain, sgrLoop_attribute hplain]
      exact flags_of_readable rest 0 h (flags_sgrCode _ hflags)

/-- Behind a colour that is not readable the loop takes the next parameter, which belongs to it, as an attribute. -/
theorem leak_of_unreadable (hopens : opensColour item = true) (hreadable : isReadable item rest = false) :
    (colourMask (item :: rest) 0)[1]? = some true ∧ (attributeMask (item :: rest) 0)[1]? = some true := by
  rw [attributeMask_colour hopens, parseExtendedColor_skips, hreadable, colourMask, if_pos hopens]
  have hhead : (rest[0]?).bind List.head? = some 5 ∧ colourTail item rest = 2 ∨
      (rest[0]?).bind List.head? = some 2 ∧ colourTail item rest = 4 := by
    unfold isReadable at hreadable
    unfold colourTail
    split at hreadable
    · cases hreadable
    · split at hreadable
      · next head => exact .inl ⟨head, rfl⟩
      · next head => exact .inr ⟨head, rfl⟩
      · cases hreadable
  cases rest with
  | nil => rcases hhead with ⟨head, _⟩ | ⟨head, _⟩ <;> cases head
  | cons form rest =>
    have hform : opensColour form = false := by
      rcases hhead with ⟨head, _⟩ | ⟨head, _⟩
      all_goals
        unfold opensColour
        rw [List.headD_eq_head?_getD, show form.head? = _ from head]
        rfl
    have hattribute : attributeMask (form :: rest) 0 = true :: attributeMask rest 0 := by
      rw [attributeMask, hform]
      rfl
    have hmember : ∀ n, colourMask (form :: rest) (n + 1) = true :: colourMask rest n := fun _ => by rw [colourMask]
    refine ⟨?_, ?_⟩
    · rcases hhead with ⟨_, htail⟩ | ⟨_, htail⟩
      all_goals
        rw [htail, hmember]
        rfl
    · rw [if_neg Bool.false_ne_true, hattribute]
      rfl

/-- If no parameter of a colour is taken as an attribute, all are readable. -/
theorem readable_of_apart : ∀ (items : List (List Nat)) (skip : Nat),
    (∀ i : Nat, (colourMask items skip)[i]? = some true → (attributeMask items skip)[i]? = some false) → Readable items skip
  | [], _, _ => by
    unfold Readable
    trivial
  | _ :: rest, skip + 1, h => by
    unfold Readable
    refine readable_of_apart rest skip fun i hi => ?_
    have hnext := h (i + 1)
    simp only [colourMask, attributeMask, List.getElem?_cons_succ] at hnext
    exact hnext hi
  | item :: rest, 0, h => by
    unfold Readable
    split
    · next hopens =>
      have hreadable : isReadable item rest = true := by
        refine eq_true_of_ne_false fun hunreadable => ?_
        obtain ⟨hbelongs, htaken⟩ := leak_of_unreadable hopens hunreadable
        have hapart := h 1 hbelongs
        rw [htaken] at hapart
        cases hapart
      refine ⟨hreadable, readable_of_apart rest _ fun i hi => ?_⟩
      have hnext := h (i + 1)
      rw [attributeMask_colour hopens, parseExtendedColor_skips, if_pos hreadable, colourMask, if_pos hopens,
        List.getElem?_cons_succ, List.getElem?_cons_succ] at hnext
      exact hnext hi
    · next hopens =>
      refine readable_of_apart rest 0 fun i hi => ?_
      have hnext := h (i + 1)
      rw [attributeMask, if_neg hopens, colourMask, if_neg hopens, List.getElem?_cons_succ, List.getElem?_cons_succ] at hnext
      exact hnext hi

/-- **Parameters of extended colours are not taken as attributes exactly if every colour is readable.** -/
theorem colours_leak_iff (params : List (List Nat)) : Leakless params ↔ Readable params 0 := by
  refine ⟨fun h => readable_of_apart params 0 h.apart, fun h => ⟨?_, ?_⟩⟩
  · intro i hi
    rw [attributeMask_of_readable params 0 h, List.getElem?_map, hi]
    rfl
  · intro s
    unfold AnchorStateMut.applySgr
    dsimp only
    split
    · rfl
    · exact flags_of_readable params 0 h rfl

/-- A component above 255: the form of the colour sets blinking, and the rest of the sequence goes on as if it were its own. -/
theorem component_leaks : ¬Leakless [[38], [5], [300]] ∧ ¬Readable [[38], [5], [300]] 0 ∧
    (({} : AnchorStateMut).applySgr [[38], [5], [300]]).sgr.blink = true := by
  refine ⟨fun h => ?_, ?_, rfl⟩
  · have hblink := congrArg SgrAttrs.blink (h.flags {})
    cases hblink
  · intro h
    exact absurd h.1 (by decide)

end CliPocket
