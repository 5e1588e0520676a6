import CliPocket.Lib.Vte
import CliPocket.Proto.Snapshot

/-!
# The anchor tracker

`AnchorTracker` follows a terminal's output with the published parser: its performer keeps cursor, SGR attributes,
modes, charset designations and title, and a flag that says whether the position after the last byte is a place
where a fresh parser could take over.

- `perform`: one callback; `AnchorTracker.advance`: one byte string;
- `state_advance`: the state after a byte string is a fold of the callbacks (`performAll`), the flag is left out.
-/

namespace CliPocket

open Vte (Event)
open Saturating (u16Max)

structure AnchorStateMut where
  cursorRow : Nat := 0
  cursorCol : Nat := 0
  sgr : SgrAttrs := {}
  modes : TerminalModes := {}
  charset : CharsetState := {}
  title : Option String := none
  deriving DecidableEq

structure AnchorTracker where
  parser : Vte.State := .ground
  state : AnchorStateMut := {}
  atSafeSplit : Bool := true
  deriving DecidableEq

/-! ## Parameters -/

/-- The first value of the parameter at `index`, unless it is absent or zero. -/
def paramAt (params : List (List Nat)) (index : Nat) (default : Nat) : Nat :=
  match (params[index]?).bind List.head? with
  | some value => if value ≠ 0 then value else default
  | none => default

def firstParam (params : List (List Nat)) (default : Nat) : Nat := paramAt params 0 default

def secondParam (params : List (List Nat)) (default : Nat) : Nat := paramAt params 1 default

/-- `u8::try_from(value).ok()`. -/
def toU8? (value : Nat) : Option UInt8 := if value < 256 then some value.toUInt8 else none

def paletteColor (value : Nat) : Option Color := (toU8? value).map Color.palette

/-- The value at `index`, if it fits in a byte. -/
def byteAt (values : List Nat) (index : Nat) : Option UInt8 := (values[index]?).bind toU8?

/-- The first value of the item at `index`, if it fits in a byte. -/
def itemByte (items : List (List Nat)) (index : Nat) : Option UInt8 :=
  ((items[index]?).bind List.head?).bind toU8?

/-- The colour that starts at the item `current`, with `rest` after it, and the number of items it takes. -/
def parseExtendedColor (current : List Nat) (rest : List (List Nat)) : Option (Color × Nat) :=
  match current[1]? with
  | some 5 => do
    let value ← byteAt current 2
    some (.indexed value, 1)
  | some 2 => do
    let r ← byteAt current 2
    let g ← byteAt current 3
    let b ← byteAt current 4
    some (.rgb r g b, 1)
  | none =>
    match (rest[0]?).bind List.head? with
    | some 5 => do
      let value ← itemByte rest 1
      some (.indexed value, 3)
    | some 2 => do
      let r ← itemByte rest 1
      let g ← itemByte rest 2
      let b ← itemByte rest 3
      some (.rgb r g b, 5)
    | _ => none
  | some _ => none

/-! ## SGR -/

/-- The attributes after one code other than an extended colour. -/
def sgrCode (code : Nat) (sgr : SgrAttrs) : SgrAttrs :=
  match code with
  | 0 => {}
  | 1 => { sgr with bold := true }
  | 2 => { sgr with faint := true }
  | 3 => { sgr with italic := true }
  | 4 => { sgr with underline := true }
  | 5 => { sgr with blink := true }
  | 7 => { sgr with reverse := true }
  | 9 => { sgr with strikethrough := true }
  | 21 | 22 => { sgr with bold := false, faint := false }
  | 23 => { sgr with italic := false }
  | 24 => { sgr with underline := false }
  | 25 => { sgr with blink := false }
  | 27 => { sgr with reverse := false }
  | 29 => { sgr with strikethrough := false }
  | 39 => { sgr with fg := none }
  | 49 => { sgr with bg := none }
  | code =>
    if 30 ≤ code ∧ code ≤ 37 then { sgr with fg := paletteColor (code - 30) }
    else if 40 ≤ code ∧ code ≤ 47 then { sgr with bg := paletteColor (code - 40) }
    else if 90 ≤ code ∧ code ≤ 97 then { sgr with fg := paletteColor (code - 82) }
    else if 100 ≤ code ∧ code ≤ 107 then { sgr with bg := paletteColor (code - 92) }
    else sgr

/-- The loop over the items, with the number of items an extended colour has still to skip. -/
def sgrLoop : List (List Nat) → Nat → SgrAttrs → SgrAttrs
  | [], _, sgr => sgr
  | _ :: rest, skip + 1, sgr => sgrLoop rest skip sgr
  | item :: rest, 0, sgr =>
    let code := item.headD 0
    if code = 38 ∨ code = 48 then
      match parseExtendedColor item rest with
      | some (color, consumed) =>
        sgrLoop rest (consumed - 1) (if code = 38 then { sgr with fg := some color } else { sgr with bg := some color })
      | none => sgrLoop rest 0 sgr
    else sgrLoop rest 0 (sgrCode code sgr)

def AnchorStateMut.applySgr (s : AnchorStateMut) (params : List (List Nat)) : AnchorStateMut :=
  { s with sgr := if params.isEmpty then {} else sgrLoop params 0 s.sgr }

/-! ## Cursor, modes, charsets -/

def AnchorStateMut.cursorPosition (s : AnchorStateMut) (params : List (List Nat)) : AnchorStateMut :=
  { s with cursorRow := firstParam params 1 - 1, cursorCol := secondParam params 1 - 1 }

/-- One parameter of a private mode sequence. -/
def setMode (on : Bool) (modes : TerminalModes) (code : Nat) : TerminalModes :=
  match code with
  | 1 => { modes with deccmmCursorKeys := on }
  | 7 => { modes with autowrap := on }
  | 1049 => { modes with altScreen := on }
  | 2004 => { modes with bracketedPaste := on }
  | 9 => { modes with mouseReporting := if on then .x10 else .off }
  | 1000 => { modes with mouseReporting := if on then .normal else .off }
  | 1002 => { modes with mouseReporting := if on then .buttonEvent else .off }
  | 1003 => { modes with mouseReporting := if on then .anyEvent else .off }
  | 6 => { modes with originMode := on }
  | _ => modes

def AnchorStateMut.modeSet (s : AnchorStateMut) (params : List (List Nat)) (intermediates : List UInt8) (on : Bool) :
    AnchorStateMut :=
  if intermediates ≠ ['?'.toUInt8] then s
  else { s with modes := params.foldl (fun modes param => setMode on modes (param.headD 0)) s.modes }

/-- The set a designation marker selects. -/
def charsetIndex (marker : UInt8) : Option (Fin 4) :=
  if marker = '('.toUInt8 then some 0
  else if marker = ')'.toUInt8 then some 1
  else if marker = '*'.toUInt8 then some 2
  else if marker = '+'.toUInt8 then some 3
  else none

def AnchorStateMut.escDispatch (s : AnchorStateMut) (intermediates : List UInt8) (byte : UInt8) : AnchorStateMut :=
  match intermediates with
  | [marker] =>
    match charsetIndex marker with
    | some idx => { s with charset := { s.charset with g := s.charset.g.set idx byte } }
    | none => s
  | _ => s

/-- `char::is_control`. -/
def isControl (c : Nat) : Bool := c < 0x20 || (0x7f ≤ c && c ≤ 0x9f)

def charWidth (c : Nat) : Nat := if isControl c then 0 else 1

/-- The title an OSC 0 or 2 sets, if its text is UTF-8. -/
def parseOscTitle (params : List (List UInt8)) : Option String :=
  match params with
  | [] => none
  | head :: tail =>
    if head ≠ ['0'.toUInt8] ∧ head ≠ ['2'.toUInt8] then none
    else String.fromUTF8? ⟨(List.intercalate [';'.toUInt8] tail).toArray⟩

/-! ## Callbacks -/

def AnchorStateMut.execute (s : AnchorStateMut) (byte : UInt8) : AnchorStateMut :=
  match Char.ofNat byte.toNat with
  | '\n' => { s with cursorRow := Saturating.add u16Max s.cursorRow 1, cursorCol := 0 }
  | '\r' => { s with cursorCol := 0 }
  | '\x08' => { s with cursorCol := s.cursorCol - 1 }
  | '\t' => { s with cursorCol := Saturating.mul u16Max (s.cursorCol / 8 + 1) 8 }
  | _ => s

def AnchorStateMut.csiDispatch (s : AnchorStateMut) (params : List (List Nat)) (intermediates : List UInt8)
    (action : UInt8) : AnchorStateMut :=
  match Char.ofNat action.toNat with
  | 'm' => s.applySgr params
  | 'H' | 'f' => s.cursorPosition params
  | 'A' => { s with cursorRow := s.cursorRow - firstParam params 1 }
  | 'B' => { s with cursorRow := Saturating.add u16Max s.cursorRow (firstParam params 1) }
  | 'C' => { s with cursorCol := Saturating.add u16Max s.cursorCol (firstParam params 1) }
  | 'D' => { s with cursorCol := s.cursorCol - firstParam params 1 }
  | 'E' => { s with cursorRow := Saturating.add u16Max s.cursorRow (firstParam params 1), cursorCol := 0 }
  | 'F' => { s with cursorRow := s.cursorRow - firstParam params 1, cursorCol := 0 }
  | 'G' => { s with cursorCol := firstParam params 1 - 1 }
  | 'd' => { s with cursorRow := firstParam params 1 - 1 }
  | 'h' => s.modeSet params intermediates true
  | 'l' => s.modeSet params intermediates false
  | _ => s

/-- The state after a callback. -/
def AnchorStateMut.perform (s : AnchorStateMut) : Event → AnchorStateMut
  | .print c => { s with cursorCol := Saturating.add u16Max s.cursorCol (charWidth c) }
  | .execute byte => s.execute byte
  | .hook _ _ _ _ => s
  | .put _ => s
  | .unhook => s
  | .oscDispatch params _ =>
    match parseOscTitle params with
    | some title => { s with title := some title }
    | none => s
  | .csiDispatch params intermediates _ action => s.csiDispatch params intermediates action
  | .escDispatch intermediates _ byte => s.escDispatch intermediates byte

/-- The flag a callback leaves behind. -/
def safeSplitAfter : Event → Bool
  | .hook _ _ _ _ => false
  | .put _ => false
  | _ => true

/-- The state after a list of callbacks. -/
def AnchorStateMut.performAll (s : AnchorStateMut) (events : List Event) : AnchorStateMut :=
  events.foldl AnchorStateMut.perform s

namespace AnchorTracker

def new : AnchorTracker := {}

/-- One byte: the flag is cleared, then every callback acts on the state and sets it. -/
def advanceByte (t : AnchorTracker) (byte : UInt8) : AnchorTracker :=
  let (parser, events) := Vte.advance t.parser byte
  { parser
    state := t.state.performAll events
    atSafeSplit := events.foldl (fun _ e => safeSplitAfter e) false }

def advance (t : AnchorTracker) (bytes : List UInt8) : AnchorTracker := bytes.foldl advanceByte t

def isAtSafeSplit (t : AnchorTracker) : Bool := t.atSafeSplit

def snapshotState (t : AnchorTracker) : AnchorState where
  cursor := (t.state.cursorCol, t.state.cursorRow)
  sgr := t.state.sgr
  modes := t.state.modes
  charset := t.state.charset
  title := t.state.title

end AnchorTracker

/-- The performer's state of an anchor state. -/
def AnchorState.toMut (a : AnchorState) : AnchorStateMut where
  cursorRow := a.cursor.2
  cursorCol := a.cursor.1
  sgr := a.sgr
  modes := a.modes
  charset := a.charset
  title := a.title

/-- A tracker with a fresh parser that starts in an anchor state. -/
def AnchorTracker.resume (a : AnchorState) : AnchorTracker where
  state := a.toMut

/-! ## Byte strings -/

namespace AnchorTracker

@[simp] theorem advance_nil (t : AnchorTracker) : t.advance [] = t := rfl

theorem advance_cons (t : AnchorTracker) (b : UInt8) (bs : List UInt8) :
    t.advance (b :: bs) = (t.advanceByte b).advance bs := rfl

theorem advance_append (t : AnchorTracker) (xs ys : List UInt8) :
    t.advance (xs ++ ys) = (t.advance xs).advance ys := List.foldl_append

theorem advance_concat (t : AnchorTracker) (xs : List UInt8) (b : UInt8) :
    t.advance (xs ++ [b]) = (t.advance xs).advanceByte b := by
  rw [advance_append]
  rfl

/-- The parser of a tracker runs on its own. -/
theorem parser_advance : ∀ (bs : List UInt8) (t : AnchorTracker), (t.advance bs).parser = (Vte.feed t.parser bs).1
  | [], _ => rfl
  | b :: bs, t => by
    rw [advance_cons, parser_advance bs, Vte.feed_cons]
    rfl

/-- The state of a tracker is what the callbacks make of it. -/
theorem state_advance : ∀ (bs : List UInt8) (t : AnchorTracker),
    (t.advance bs).state = t.state.performAll (Vte.feed t.parser bs).2
  | [], _ => rfl
  | b :: bs, t => by
    rw [advance_cons, state_advance bs, Vte.feed_cons]
    simp [advanceByte, AnchorStateMut.performAll, List.foldl_append]

@[simp] theorem toMut_snapshotState (t : AnchorTracker) : t.snapshotState.toMut = t.state := rfl

/-- Trackers with the same parser and state see the same from there on, whatever their flags. -/
theorem advance_congr {t u : AnchorTracker} (hp : t.parser = u.parser) (hs : t.state = u.state) (bs : List UInt8) :
    (t.advance bs).snapshotState = (u.advance bs).snapshotState := by
  unfold snapshotState
  rw [state_advance, state_advance, hp, hs]

end AnchorTracker

end CliPocket
