import CliPocket.Proto.Terminal
import CliPocket.Lib.Saturating

/-!
# Terminal snapshots and their render prefix

- `AnchorState`: what a renderer has to know to resume a terminal in mid-stream;
- `renderPrefixFromAnchor`: the control sequences that bring a fresh terminal into an anchor state, as bytes.
-/

namespace CliPocket

open Saturating (u16Max)

/-! ## The state of a terminal -/

inductive Color
  | palette (index : UInt8)
  | indexed (index : UInt8)
  | rgb (r g b : UInt8)
  deriving Repr, DecidableEq

structure SgrAttrs where
  fg : Option Color := none
  bg : Option Color := none
  bold : Bool := false
  faint : Bool := false
  italic : Bool := false
  underline : Bool := false
  blink : Bool := false
  reverse : Bool := false
  strikethrough : Bool := false
  deriving Repr, DecidableEq

inductive MouseMode
  | off
  | x10
  | normal
  | buttonEvent
  | anyEvent
  deriving Repr, DecidableEq

structure TerminalModes where
  deccmmCursorKeys : Bool := false
  autowrap : Bool := true
  altScreen : Bool := false
  bracketedPaste : Bool := false
  mouseReporting : MouseMode := .off
  originMode : Bool := false
  deriving Repr, DecidableEq

/-- G0..G3 designations as raw final bytes, and the active sets. -/
structure CharsetState where
  g : Vector UInt8 4 := Vector.replicate 4 'B'.toUInt8
  gl : Nat := 0
  gr : Nat := 0
  deriving Repr, DecidableEq

/-- The cursor is `(column, row)`, both `u16`. -/
structure AnchorState where
  cursor : Nat × Nat
  sgr : SgrAttrs
  modes : TerminalModes
  charset : CharsetState
  title : Option String
  deriving DecidableEq

structure Snapshot where
  cols : Nat
  rows : Nat
  anchorState : AnchorState
  bytes : List UInt8
  headSeq : StreamSeq
  deriving DecidableEq

structure DeltaSlice where
  bytes : List UInt8
  headSeq : StreamSeq
  deriving DecidableEq

/-! ## The render prefix -/

/-- A string of ASCII characters. -/
def ascii (cs : List Char) : List UInt8 := cs.map Char.toUInt8

/-- The decimal digits of a number. -/
def decimal (n : Nat) : List UInt8 := ascii (Nat.toDigits 10 n)

/-- A Latin-1 character in UTF-8. -/
def latin1 (set : UInt8) : List UInt8 :=
  if set < 0x80 then [set] else [(0xc0 : UInt8) ||| (set >>> 6), (0x80 : UInt8) ||| (set &&& 0x3f)]

/-- `params.join(";")`, each parameter in decimal. -/
def joinParams (params : List Nat) : List UInt8 := List.intercalate (ascii [';']) (params.map decimal)

def colorParams (color : Color) (foreground : Bool) : List Nat :=
  match color with
  | .palette index =>
    let base :=
      if foreground then if index < 8 then 30 else 90
      else if index < 8 then 40 else 100
    [base + index.toNat % 8]
  | .indexed index => [if foreground then 38 else 48, 5, index.toNat]
  | .rgb r g b => [if foreground then 38 else 48, 2, r.toNat, g.toNat, b.toNat]

def someColorParams (color : Option Color) (foreground : Bool) : List Nat :=
  match color with
  | some color => colorParams color foreground
  | none => []

/-- The parameters `apply_sgr` collects. -/
def sgrParams (sgr : SgrAttrs) : List Nat :=
  (if sgr.bold then [1] else []) ++ (if sgr.faint then [2] else []) ++ (if sgr.italic then [3] else []) ++
    (if sgr.underline then [4] else []) ++ (if sgr.blink then [5] else []) ++ (if sgr.reverse then [7] else []) ++
    (if sgr.strikethrough then [9] else []) ++
    someColorParams sgr.fg true ++ someColorParams sgr.bg false

def applySgr (sgr : SgrAttrs) : List UInt8 :=
  let params := sgrParams sgr
  if params.isEmpty then [] else ascii ['\x1b', '['] ++ joinParams params ++ ascii ['m']

def setPrivateMode (mode : Nat) (enabled : Bool) : List UInt8 :=
  ascii ['\x1b', '[', '?'] ++ decimal mode ++ ascii [if enabled then 'h' else 'l']

def applyModes (modes : TerminalModes) : List UInt8 :=
  setPrivateMode 1 modes.deccmmCursorKeys ++
  setPrivateMode 6 modes.originMode ++
  setPrivateMode 7 modes.autowrap ++
  setPrivateMode 1000 (modes.mouseReporting != .off) ++
  setPrivateMode 1002 (modes.mouseReporting == .buttonEvent) ++
  setPrivateMode 1003 (modes.mouseReporting == .anyEvent) ++
  setPrivateMode 1005 false ++
  setPrivateMode 1006 (modes.mouseReporting != .off) ++
  setPrivateMode 1049 modes.altScreen ++
  setPrivateMode 2004 modes.bracketedPaste

/-- One designation: the selector of the set, then its final byte. -/
def designate (selector : Char) (set : UInt8) : List UInt8 := ascii ['\x1b', selector] ++ latin1 set

def applyCharset (charset : CharsetState) : List UInt8 :=
  designate '(' charset.g[0] ++ designate ')' charset.g[1] ++ designate '*' charset.g[2] ++
    designate '+' charset.g[3] ++
    (if charset.gl ≤ 3 then
      ascii ['\x0f'] ++ (if charset.gl ≠ 0 then ascii ['\x1b', 'n'] else [])
    else [])

def renderPrefixFromAnchor (anchor : AnchorState) : List UInt8 :=
  ascii ['\x1b', '[', '0', 'm'] ++ ascii ['\x1b', '[', '?', '2', '5', 'h'] ++
    applySgr anchor.sgr ++ applyModes anchor.modes ++ applyCharset anchor.charset ++
    ascii ['\x1b', '['] ++ decimal (Saturating.add u16Max anchor.cursor.2 1) ++ ascii [';'] ++
    decimal (Saturating.add u16Max anchor.cursor.1 1) ++ ascii ['H']

end CliPocket
