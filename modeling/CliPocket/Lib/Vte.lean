import CliPocket.Lib.Saturating

/-!
# The published terminal parser

The byte-driven parser for terminal control sequences: the state table of the DEC ANSI parser as the `vte` crate
(0.13) publishes it, with UTF-8 decoded in the ground state by `utf8parse`. `advance` takes a state and one byte to
the next state and the callbacks performed, in order.

A state carries the registers that are live in it: they are cleared on entry to an escape, CSI, DCS or OSC sequence,
so the ground state has none.

`feed` is the parser over a byte string; it composes over concatenation (`feed_append`).
-/

namespace Vte

open Saturating (u16Max)

/-! ## Parameters and callbacks -/

/-- CSI and DCS parameters: closed groups, and the group that `:` has left open. -/
structure Params where
  groups : List (List Nat) := []
  current : List Nat := []
  deriving Repr, DecidableEq

namespace Params

def maxParams : Nat := 32

/-- The number of values, subparameters included. -/
def len (p : Params) : Nat := p.groups.flatten.length + p.current.length

def isFull (p : Params) : Bool := p.len == maxParams

def push (p : Params) (item : Nat) : Params := { groups := p.groups ++ [p.current ++ [item]], current := [] }

def extend (p : Params) (item : Nat) : Params := { p with current := p.current ++ [item] }

/-- The groups in order, the open one last. -/
def toList (p : Params) : List (List Nat) := if p.current.isEmpty then p.groups else p.groups ++ [p.current]

end Params

/-- What the parser calls on its performer. Code points are natural numbers. -/
inductive Event
  | print (c : Nat)
  | execute (byte : UInt8)
  | hook (params : List (List Nat)) (intermediates : List UInt8) (ignore : Bool) (action : UInt8)
  | put (byte : UInt8)
  | unhook
  | oscDispatch (params : List (List UInt8)) (bellTerminated : Bool)
  | csiDispatch (params : List (List Nat)) (intermediates : List UInt8) (ignore : Bool) (action : UInt8)
  | escDispatch (intermediates : List UInt8) (ignore : Bool) (byte : UInt8)
  deriving Repr, DecidableEq

/-! ## Registers -/

/-- The registers of an escape, CSI or DCS sequence. -/
structure Regs where
  intermediates : List UInt8 := []
  ignoring : Bool := false
  param : Nat := 0
  params : Params := {}
  deriving Repr, DecidableEq

def maxIntermediates : Nat := 2

/-- Add a decimal digit to a `u16`, saturating at both operations. -/
def addDigit (param : Nat) (byte : UInt8) : Nat :=
  Saturating.add u16Max (Saturating.mul u16Max param 10) (byte.toNat - 0x30)

namespace Regs

def collect (r : Regs) (byte : UInt8) : Regs :=
  if r.intermediates.length == maxIntermediates then { r with ignoring := true }
  else { r with intermediates := r.intermediates ++ [byte] }

/-- A digit, `;` or `:`. -/
def paramByte (r : Regs) (byte : UInt8) : Regs :=
  if r.params.isFull then { r with ignoring := true }
  else if byte == 0x3b then { r with params := r.params.push r.param, param := 0 }
  else if byte == 0x3a then { r with params := r.params.extend r.param, param := 0 }
  else { r with param := addDigit r.param byte }

/-- Close the last parameter at the final byte. -/
def finish (r : Regs) : Regs :=
  if r.params.isFull then { r with ignoring := true } else { r with params := r.params.push r.param }

def csi (r : Regs) (action : UInt8) : Event :=
  .csiDispatch r.finish.params.toList r.intermediates r.finish.ignoring action

def hook (r : Regs) (action : UInt8) : Event :=
  .hook r.finish.params.toList r.intermediates r.finish.ignoring action

end Regs

/-- An operating system command: the closed parameters and the bytes since the last `;`. -/
structure Osc where
  params : List (List UInt8) := []
  current : List UInt8 := []
  deriving Repr, DecidableEq

namespace Osc

def maxOscParams : Nat := 16

def put (o : Osc) (byte : UInt8) : Osc :=
  if byte == 0x3b then
    if o.params.length == maxOscParams then o else { params := o.params ++ [o.current], current := [] }
  else { o with current := o.current ++ [byte] }

def finish (o : Osc) : List (List UInt8) :=
  if o.params.length == maxOscParams then o.params else o.params ++ [o.current]

end Osc

/-- Where a multi-byte character stands, named as in `utf8parse`. -/
inductive Utf8
  | u3_2_e0
  | u3_2_ed
  | utf8_4_3_f0
  | utf8_4_3_f4
  | tail3
  | tail2
  | tail1
  deriving Repr, DecidableEq

/-! ## The states -/

inductive State
  | ground
  | utf8 (u : Utf8) (point : Nat)
  | escape
  | escapeIntermediate (r : Regs)
  | csiEntry
  | csiParam (r : Regs)
  | csiIntermediate (r : Regs)
  | csiIgnore
  | dcsEntry
  | dcsParam (r : Regs)
  | dcsIntermediate (r : Regs)
  | dcsPassthrough
  | dcsIgnore
  | oscString (o : Osc)
  | sosPmApcString
  deriving Repr, DecidableEq

/-- The byte lies in `lo..=hi`. -/
def within (lo hi : Nat) (byte : UInt8) : Bool := decide (lo ≤ byte.toNat) && decide (byte.toNat ≤ hi)

/-- The C0 controls of the table: all but CAN, SUB and ESC, which act in every state. -/
def isC0 (byte : UInt8) : Bool := within 0x00 0x17 byte || byte == 0x19 || within 0x1c 0x1f byte

/-- A byte that continues the character, the next place and the bits it adds. -/
def Utf8.continues (u : Utf8) (byte : UInt8) : Option (Option Utf8 × Nat) :=
  let bits := byte.toNat % 64
  match u with
  | .u3_2_e0 => if within 0xa0 0xbf byte then some (some .tail1, bits * 64) else none
  | .u3_2_ed => if within 0x80 0x9f byte then some (some .tail1, bits * 64) else none
  | .utf8_4_3_f0 => if within 0x90 0xbf byte then some (some .tail2, bits * 4096) else none
  | .utf8_4_3_f4 => if within 0x80 0x8f byte then some (some .tail2, bits * 4096) else none
  | .tail3 => if within 0x80 0xbf byte then some (some .tail2, bits * 4096) else none
  | .tail2 => if within 0x80 0xbf byte then some (some .tail1, bits * 64) else none
  | .tail1 => if within 0x80 0xbf byte then some (none, bits) else none

/-- U+FFFD, printed for an invalid sequence. -/
def replacement : Nat := 0xfffd

def advanceUtf8 (u : Utf8) (point : Nat) (byte : UInt8) : State × List Event :=
  match u.continues byte with
  | some (some v, bits) => (.utf8 v (point + bits), [])
  | some (none, bits) => (.ground, [.print (point + bits)])
  | none => (.ground, [.print replacement])

/-- The first byte of a multi-byte character. -/
def beginUtf8 (byte : UInt8) : State :=
  let b := byte.toNat
  if b ≤ 0xdf then .utf8 .tail1 (b % 32 * 64)
  else if b == 0xe0 then .utf8 .u3_2_e0 (b % 16 * 4096)
  else if b ≤ 0xec then .utf8 .tail2 (b % 16 * 4096)
  else if b == 0xed then .utf8 .u3_2_ed (b % 16 * 4096)
  else if b ≤ 0xef then .utf8 .tail2 (b % 16 * 4096)
  else if b == 0xf0 then .utf8 .utf8_4_3_f0 (b % 8 * 262144)
  else if b ≤ 0xf3 then .utf8 .tail3 (b % 8 * 262144)
  else .utf8 .utf8_4_3_f4 (b % 8 * 262144)

def advanceGround (byte : UInt8) : State × List Event :=
  if isC0 byte then (.ground, [.execute byte])
  else if within 0x20 0x7f byte then (.ground, [.print byte.toNat])
  else if within 0x80 0x8f byte || within 0x91 0x9a byte || byte == 0x9c then (.ground, [.execute byte])
  else if within 0xc2 0xf4 byte then (beginUtf8 byte, [])
  else (.ground, [])

def advanceEscape (byte : UInt8) : State × List Event :=
  if isC0 byte then (.escape, [.execute byte])
  else if within 0x20 0x2f byte then (.escapeIntermediate (Regs.collect {} byte), [])
  else if byte == 0x50 then (.dcsEntry, [])
  else if byte == 0x58 || byte == 0x5e || byte == 0x5f then (.sosPmApcString, [])
  else if byte == 0x5b then (.csiEntry, [])
  else if byte == 0x5d then (.oscString {}, [])
  else if within 0x30 0x7e byte then (.ground, [.escDispatch [] false byte])
  else (.escape, [])

def advanceEscapeIntermediate (r : Regs) (byte : UInt8) : State × List Event :=
  if isC0 byte then (.escapeIntermediate r, [.execute byte])
  else if within 0x20 0x2f byte then (.escapeIntermediate (r.collect byte), [])
  else if within 0x30 0x7e byte then (.ground, [.escDispatch r.intermediates r.ignoring byte])
  else (.escapeIntermediate r, [])

def advanceCsiEntry (byte : UInt8) : State × List Event :=
  if isC0 byte then (.csiEntry, [.execute byte])
  else if within 0x20 0x2f byte then (.csiIntermediate (Regs.collect {} byte), [])
  else if within 0x30 0x3b byte then (.csiParam (Regs.paramByte {} byte), [])
  else if within 0x3c 0x3f byte then (.csiParam (Regs.collect {} byte), [])
  else if within 0x40 0x7e byte then (.ground, [Regs.csi {} byte])
  else (.csiEntry, [])

def advanceCsiParam (r : Regs) (byte : UInt8) : State × List Event :=
  if isC0 byte then (.csiParam r, [.execute byte])
  else if within 0x30 0x3b byte then (.csiParam (r.paramByte byte), [])
  else if within 0x3c 0x3f byte then (.csiIgnore, [])
  else if within 0x20 0x2f byte then (.csiIntermediate (r.collect byte), [])
  else if within 0x40 0x7e byte then (.ground, [r.csi byte])
  else (.csiParam r, [])

def advanceCsiIntermediate (r : Regs) (byte : UInt8) : State × List Event :=
  if isC0 byte then (.csiIntermediate r, [.execute byte])
  else if within 0x20 0x2f byte then (.csiIntermediate (r.collect byte), [])
  else if within 0x30 0x3f byte then (.csiIgnore, [])
  else if within 0x40 0x7e byte then (.ground, [r.csi byte])
  else (.csiIntermediate r, [])

def advanceCsiIgnore (byte : UInt8) : State × List Event :=
  if isC0 byte then (.csiIgnore, [.execute byte])
  else if within 0x40 0x7e byte then (.ground, [])
  else (.csiIgnore, [])

def advanceDcsEntry (byte : UInt8) : State × List Event :=
  if within 0x20 0x2f byte then (.dcsIntermediate (Regs.collect {} byte), [])
  else if within 0x30 0x3b byte then (.dcsParam (Regs.paramByte {} byte), [])
  else if within 0x3c 0x3f byte then (.dcsParam (Regs.collect {} byte), [])
  else if within 0x40 0x7e byte then (.dcsPassthrough, [Regs.hook {} byte])
  else (.dcsEntry, [])

def advanceDcsParam (r : Regs) (byte : UInt8) : State × List Event :=
  if within 0x30 0x3b byte then (.dcsParam (r.paramByte byte), [])
  else if within 0x3c 0x3f byte then (.dcsIgnore, [])
  else if within 0x20 0x2f byte then (.dcsIntermediate (r.collect byte), [])
  else if within 0x40 0x7e byte then (.dcsPassthrough, [r.hook byte])
  else (.dcsParam r, [])

def advanceDcsIntermediate (r : Regs) (byte : UInt8) : State × List Event :=
  if within 0x20 0x2f byte then (.dcsIntermediate (r.collect byte), [])
  else if within 0x30 0x3f byte then (.dcsIgnore, [])
  else if within 0x40 0x7e byte then (.dcsPassthrough, [r.hook byte])
  else (.dcsIntermediate r, [])

def advanceDcsPassthrough (byte : UInt8) : State × List Event :=
  if isC0 byte || within 0x20 0x7e byte then (.dcsPassthrough, [.put byte])
  else if byte == 0x9c then (.ground, [.unhook])
  else (.dcsPassthrough, [])

def advanceOscString (o : Osc) (byte : UInt8) : State × List Event :=
  if byte == 0x07 then (.ground, [.oscDispatch o.finish true])
  else if within 0x20 0xff byte then (.oscString (o.put byte), [])
  else (.oscString o, [])

/-- The callbacks of leaving a state by CAN, SUB or ESC. -/
def State.leave : State → List Event
  | .dcsPassthrough => [.unhook]
  | .oscString o => [.oscDispatch o.finish false]
  | _ => []

/-- The row of the table for a state, without CAN, SUB and ESC. -/
def State.row : State → UInt8 → State × List Event
  | .ground, byte => advanceGround byte
  | .utf8 u point, byte => advanceUtf8 u point byte
  | .escape, byte => advanceEscape byte
  | .escapeIntermediate r, byte => advanceEscapeIntermediate r byte
  | .csiEntry, byte => advanceCsiEntry byte
  | .csiParam r, byte => advanceCsiParam r byte
  | .csiIntermediate r, byte => advanceCsiIntermediate r byte
  | .csiIgnore, byte => advanceCsiIgnore byte
  | .dcsEntry, byte => advanceDcsEntry byte
  | .dcsParam r, byte => advanceDcsParam r byte
  | .dcsIntermediate r, byte => advanceDcsIntermediate r byte
  | .dcsPassthrough, byte => advanceDcsPassthrough byte
  | .dcsIgnore, byte => (if byte == 0x9c then .ground else .dcsIgnore, [])
  | .oscString o, byte => advanceOscString o byte
  | .sosPmApcString, byte => (if byte == 0x9c then .ground else .sosPmApcString, [])

/-- A multi-byte character is in progress: its bytes go to the UTF-8 decoder alone. -/
def State.inUtf8 : State → Bool
  | .utf8 _ _ => true
  | _ => false

/-- One byte. CAN and SUB execute and abort, ESC restarts, in every state but inside a character. -/
def advance (s : State) (byte : UInt8) : State × List Event :=
  if s.inUtf8 then s.row byte
  else if byte == 0x18 || byte == 0x1a then (.ground, s.leave ++ [.execute byte])
  else if byte == 0x1b then (.escape, s.leave)
  else s.row byte

/-! ## Byte strings -/

/-- The parser over a byte string: the last state and all callbacks. -/
def feed : State → List UInt8 → State × List Event
  | s, [] => (s, [])
  | s, b :: bs =>
    let (t, es) := advance s b
    let (u, es') := feed t bs
    (u, es ++ es')

@[simp] theorem feed_nil (s : State) : feed s [] = (s, []) := rfl

theorem feed_cons (s : State) (b : UInt8) (bs : List UInt8) :
    feed s (b :: bs) = ((feed (advance s b).1 bs).1, (advance s b).2 ++ (feed (advance s b).1 bs).2) := rfl

/-- The state and the callbacks of a concatenation. -/
theorem feed_append : ∀ (s : State) (xs ys : List UInt8),
    feed s (xs ++ ys) = ((feed (feed s xs).1 ys).1, (feed s xs).2 ++ (feed (feed s xs).1 ys).2)
  | s, [], ys => by simp
  | s, b :: xs, ys => by
    rw [List.cons_append, feed_cons, feed_cons, feed_append _ xs ys]
    simp

end Vte
