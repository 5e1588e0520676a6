import CliPocket.Lib.Utf16
import Mathlib.Algebra.Order.Ring.Int

/-!
# JSON

- `Value.render`: the compact text of a value, with no more escapes than are needed;
- `parse`: a text, with blanks and any escape, back to its value;
- `parse_render`: **what has been rendered is parsed as what it was.**
-/

namespace Json

/-! ## Numbers -/

def isNumberChar (c : Char) : Bool := c.isDigit || c ∈ ['-', '+', '.', 'e', 'E']

/-- Digits, and what stands behind them. -/
def digits (cs : List Char) : Option (List Char × List Char) :=
  if cs.takeWhile Char.isDigit = [] then none else some (cs.takeWhile Char.isDigit, cs.dropWhile Char.isDigit)

/-- No zero stands in front of other digits. -/
def wholePart (cs : List Char) : Option (List Char × List Char) :=
  match digits cs with
  | some ('0' :: _ :: _, _) => none
  | part => part

def fractionPart : List Char → Option (List Char × List Char)
  | '.' :: rest => digits rest
  | rest => some ([], rest)

def natOf (ds : List Char) : Nat := ds.foldl (fun n c => n * 10 + (c.toNat - '0'.toNat)) 0

/-- Digits to the end. -/
def lastDigits (cs : List Char) : Option Int :=
  match digits cs with
  | some (ds, []) => some (natOf ds)
  | _ => none

def exponentPart : List Char → Option Int
  | [] => some 0
  | e :: rest =>
    if e = 'e' ∨ e = 'E' then
      match rest with
      | '-' :: rest => (lastDigits rest).map Int.neg
      | '+' :: rest => lastDigits rest
      | rest => lastDigits rest
    else none

/-- The value of a number without its sign: a natural number, and the power of ten that it is multiplied with. -/
def readUnsigned (cs : List Char) : Option (Nat × Int) := do
  let (whole, cs) ← wholePart cs
  let (fraction, cs) ← fractionPart cs
  let exponent ← exponentPart cs
  some (natOf (whole ++ fraction), exponent - fraction.length)

/-- The value of a number, and whether it is below zero. -/
def readDecimal (text : List Char) : Option (Bool × Nat × Int) :=
  if text.head? = some '-' then (readUnsigned text.tail).map fun value => (true, value)
  else (readUnsigned text).map fun value => (false, value)

/-- A number, as it is written. -/
structure Number where
  text : List Char
  chars : text.all isNumberChar = true
  valid : (readDecimal text).isSome = true

/-- Digits begin with a zero only where there is no other. -/
theorem head_toDigits : ∀ {n : Nat}, n ≠ 0 → (Nat.toDigits 10 n).head? ≠ some '0' := by
  intro n
  induction n using Nat.strongRecOn with
  | ind n ih =>
    intro hn
    by_cases hsmall : n < 10
    · have hdigit : ∀ d < 10, d ≠ 0 → some (Nat.digitChar d) ≠ some '0' := by decide
      rw [Nat.toDigits_of_lt_base hsmall]
      exact hdigit n hsmall hn
    · have hrest := ih (n / 10) (by omega) (by omega)
      rw [Nat.toDigits_of_base_le (by decide) (by omega), List.head?_append_of_ne_nil _ Nat.toDigits_ne_nil]
      exact hrest

theorem digits_toDigits (n : Nat) : digits (Nat.toDigits 10 n) = some (Nat.toDigits 10 n, []) := by
  have hall : ∀ c ∈ Nat.toDigits 10 n, c.isDigit = true := fun c hc => Nat.isDigit_of_mem_toDigits (by decide) (by decide) hc
  have htake := @List.takeWhile_append_of_pos _ Char.isDigit _ [] hall
  have hdrop := @List.dropWhile_append_of_pos _ Char.isDigit _ [] hall
  rw [List.append_nil] at htake hdrop
  unfold digits
  rw [htake, hdrop, List.takeWhile_nil, List.dropWhile_nil, List.append_nil, if_neg Nat.toDigits_ne_nil]

theorem wholePart_toDigits (n : Nat) : wholePart (Nat.toDigits 10 n) = some (Nat.toDigits 10 n, []) := by
  unfold wholePart
  rw [digits_toDigits]
  split
  · next c cs rest heq =>
    have htext : Nat.toDigits 10 n = '0' :: c :: cs := congrArg Prod.fst (Option.some.inj heq)
    by_cases hzero : n = 0
    · subst hzero
      cases htext
    · have hhead := head_toDigits hzero
      rw [htext] at hhead
      exact absurd rfl hhead
  · rfl

theorem readDecimal_toDigits (n : Nat) :
    readDecimal (Nat.toDigits 10 n) = some (false, natOf (Nat.toDigits 10 n), 0) := by
  have hhead : (Nat.toDigits 10 n).head? ≠ some '-' := by
    intro hhead
    have hdigit : '-'.isDigit = true := Nat.isDigit_of_mem_toDigits (by decide) (by decide) (List.mem_of_head? hhead)
    cases hdigit
  unfold readDecimal readUnsigned
  rw [if_neg hhead, wholePart_toDigits]
  simp [fractionPart, exponentPart]

/-- What digits spell. -/
theorem natOf_toDigits (n : Nat) : natOf (Nat.toDigits 10 n) = n := by
  have h := @Nat.ofDigitChars_ten_toDigits n
  rw [Nat.ofDigitChars_eq_foldl] at h
  simp only [Nat.mul_comm 10] at h
  exact h

def Number.ofNat (n : Nat) : Number where
  text := Nat.toDigits 10 n
  chars := by
    refine List.all_eq_true.mpr fun c hc => ?_
    have hdigit : c.isDigit = true := Nat.isDigit_of_mem_toDigits (by decide) (by decide) hc
    unfold isNumberChar
    rw [hdigit]
    rfl
  valid := by
    rw [readDecimal_toDigits]
    rfl

/-- The value of a number that is written with digits only. -/
def Number.natural (n : Number) : Option Nat := if n.text.all Char.isDigit then some (natOf n.text) else none

theorem natural_ofNat (n : Nat) : (Number.ofNat n).natural = some n := by
  have hall : (Nat.toDigits 10 n).all Char.isDigit = true :=
    List.all_eq_true.mpr fun c hc => Nat.isDigit_of_mem_toDigits (by decide) (by decide) hc
  show (if (Nat.toDigits 10 n).all Char.isDigit then some (natOf (Nat.toDigits 10 n)) else none) = _
  rw [if_pos hall, natOf_toDigits]

/-- The bounds, times two to the power of 54, of what a double has as 1. -/
def oneBounds : Nat × Nat := (18014398509481983, 18014398509481986)

/-- The number is 1, as a double. -/
def Number.isOne (n : Number) : Bool :=
  match readDecimal n.text with
  | some (false, mantissa, exponent) =>
    let numerator := 18014398509481984 * mantissa * 10 ^ exponent.toNat
    let denominator := 10 ^ (-exponent).toNat
    decide (oneBounds.1 * denominator ≤ numerator ∧ numerator ≤ oneBounds.2 * denominator)
  | _ => false

theorem isOne_one : (Number.ofNat 1).isOne = true := by
  have hvalue : readDecimal (Number.ofNat 1).text = some (false, 1, 0) := readDecimal_toDigits 1
  have hpow : 10 ^ (-(0 : Int)).toNat = 1 := rfl
  have hpow' : 10 ^ Int.toNat 0 = 1 := rfl
  unfold Number.isOne
  simp only [hvalue, oneBounds, hpow, hpow']
  exact decide_eq_true ⟨by omega, by omega⟩

/-! ## Values -/

inductive Value
  | null
  | bool (b : Bool)
  | number (n : Number)
  | string (cs : List Char)
  /-- A text with a surrogate without its partner, which no `Char`s are. Nothing asks which one it is. -/
  | illFormed
  | array (items : List Value)
  | object (members : List (List Char × Value))

/-- A member of an object. Of those with one name the last one counts. -/
def Value.member (name : String) : Value → Option Value
  | .object members => members.reverse.lookup name.toList
  | _ => none

/-! ## Rendering -/

def escape (c : Char) : List Char :=
  if c = '"' then ['\\', '"']
  else if c = '\\' then ['\\', '\\']
  else if c = '\x08' then ['\\', 'b']
  else if c = '\t' then ['\\', 't']
  else if c = '\n' then ['\\', 'n']
  else if c = '\x0c' then ['\\', 'f']
  else if c = '\r' then ['\\', 'r']
  else if c.toNat < 0x20 then ['\\', 'u', '0', '0', Nat.digitChar (c.toNat / 16), Nat.digitChar (c.toNat % 16)]
  else [c]

/-- A text with its closing quotation mark. -/
def closing (cs : List Char) : List Char := cs.flatMap escape ++ ['"']

mutual

def Value.render : Value → List Char
  | .null => ['n', 'u', 'l', 'l']
  | .bool true => ['t', 'r', 'u', 'e']
  | .bool false => ['f', 'a', 'l', 's', 'e']
  | .number n => n.text
  | .string cs => '"' :: closing cs
  | .illFormed => ['"', '\\', 'u', 'd', '8', '0', '0', '"']
  | .array items => '[' :: renderItems items
  | .object members => '{' :: renderMembers members
termination_by structural v => v

/-- Items, and the closing bracket. -/
def renderItems : List Value → List Char
  | [] => [']']
  | [item] => item.render ++ [']']
  | item :: items => item.render ++ ',' :: renderItems items
termination_by structural items => items

def renderMember : List Char × Value → List Char
  | (name, value) => '"' :: (closing name ++ ':' :: value.render)
termination_by structural member => member

/-- Members, and the closing brace. -/
def renderMembers : List (List Char × Value) → List Char
  | [] => ['}']
  | [member] => renderMember member ++ ['}']
  | member :: members => renderMember member ++ ',' :: renderMembers members
termination_by structural members => members

end

/-! ## Parsing -/

def skipBlanks (cs : List Char) : List Char := cs.dropWhile fun c => c ∈ [' ', '\t', '\n', '\r']

def hexValue (c : Char) : Option Nat :=
  if '0' ≤ c ∧ c ≤ '9' then some (c.toNat - '0'.toNat)
  else if 'a' ≤ c ∧ c ≤ 'f' then some (c.toNat - 'a'.toNat + 10)
  else if 'A' ≤ c ∧ c ≤ 'F' then some (c.toNat - 'A'.toNat + 10)
  else none

/-- The code unit of four hexadecimal digits. -/
def unitOf (a b c d : Char) : Option UInt16 := do
  let a ← hexValue a
  let b ← hexValue b
  let c ← hexValue c
  let d ← hexValue d
  some (UInt16.ofNat (((a * 16 + b) * 16 + c) * 16 + d))

/-- The code unit of an escape. -/
def escaped : Char → Option UInt16
  | '"' => some 0x22
  | '\\' => some 0x5c
  | '/' => some 0x2f
  | 'b' => some 0x08
  | 'f' => some 0x0c
  | 'n' => some 0x0a
  | 'r' => some 0x0d
  | 't' => some 0x09
  | _ => none

/-- The code units up to the closing quotation mark. -/
def parseUnits : List Char → Option (List UInt16 × List Char)
  | [] => none
  | c :: rest =>
    if c = '"' then some ([], rest)
    else if c = '\\' then
      match rest with
      | 'u' :: a :: b :: c :: d :: rest => do
        let unit ← unitOf a b c d
        let (units, rest) ← parseUnits rest
        some (unit :: units, rest)
      | e :: rest => do
        let unit ← escaped e
        let (units, rest) ← parseUnits rest
        some (unit :: units, rest)
      | [] => none
    else if c.toNat < 0x20 then none
    else do
      let (units, rest) ← parseUnits rest
      some (Utf16.encodeChar c ++ units, rest)

/-- The text of code units, unless there is a surrogate without its partner. -/
def textOf (units : List UInt16) : Option (List Char) :=
  let cs := Utf16.decode units
  if cs.flatMap Utf16.encodeChar = units then some cs else none

def textValue (units : List UInt16) : Value :=
  match textOf units with
  | some cs => .string cs
  | none => .illFormed

def parseText (cs : List Char) : Option (Value × List Char) :=
  (parseUnits cs).map fun (units, rest) => (textValue units, rest)

/-- In a name, U+FFFD stands for a surrogate without its partner. -/
def parseName (cs : List Char) : Option (List Char × List Char) :=
  (parseUnits cs).map fun (units, rest) => (Utf16.decode units, rest)

def parseNumber (cs : List Char) : Option (Value × List Char) :=
  if h : (readDecimal (cs.takeWhile isNumberChar)).isSome = true then
    some (.number ⟨cs.takeWhile isNumberChar, List.all_takeWhile, h⟩, cs.dropWhile isNumberChar)
  else none

def parseItems (parseValue : List Char → Option (Value × List Char)) : Nat → List Char → Option (List Value × List Char)
  | 0, _ => none
  | n + 1, cs => do
    let (item, rest) ← parseValue cs
    match skipBlanks rest with
    | ']' :: rest => some ([item], rest)
    | ',' :: rest => do
      let (items, rest) ← parseItems parseValue n rest
      some (item :: items, rest)
    | _ => none

def parseMember (parseValue : List Char → Option (Value × List Char)) (cs : List Char) :
    Option ((List Char × Value) × List Char) :=
  match skipBlanks cs with
  | '"' :: rest => do
    let (name, rest) ← parseName rest
    match skipBlanks rest with
    | ':' :: rest => do
      let (value, rest) ← parseValue rest
      some ((name, value), rest)
    | _ => none
  | _ => none

def parseMembers (parseValue : List Char → Option (Value × List Char)) :
    Nat → List Char → Option (List (List Char × Value) × List Char)
  | 0, _ => none
  | n + 1, cs => do
    let (member, rest) ← parseMember parseValue cs
    match skipBlanks rest with
    | '}' :: rest => some ([member], rest)
    | ',' :: rest => do
      let (members, rest) ← parseMembers parseValue n rest
      some (member :: members, rest)
    | _ => none

def parseArray (parseValue : List Char → Option (Value × List Char)) (n : Nat) (cs : List Char) :
    Option (Value × List Char) :=
  match skipBlanks cs with
  | ']' :: rest => some (.array [], rest)
  | _ => (parseItems parseValue n cs).map fun (items, rest) => (.array items, rest)

def parseObject (parseValue : List Char → Option (Value × List Char)) (n : Nat) (cs : List Char) :
    Option (Value × List Char) :=
  match skipBlanks cs with
  | '}' :: rest => some (.object [], rest)
  | _ => (parseMembers parseValue n cs).map fun (members, rest) => (.object members, rest)

/-- A word that stands for a value. -/
def parseWord (word : List Char) (value : Value) (cs : List Char) : Option (Value × List Char) :=
  if word.isPrefixOf cs then some (value, cs.drop word.length) else none

/-- A value, and what stands behind it. -/
def parseValue : Nat → List Char → Option (Value × List Char)
  | 0, _ => none
  | n + 1, cs =>
    match skipBlanks cs with
    | [] => none
    | c :: rest =>
      if c = '"' then parseText rest
      else if c = '[' then parseArray (parseValue n) n rest
      else if c = '{' then parseObject (parseValue n) n rest
      else if c = 'n' then parseWord ['u', 'l', 'l'] .null rest
      else if c = 't' then parseWord ['r', 'u', 'e'] (.bool true) rest
      else if c = 'f' then parseWord ['a', 'l', 's', 'e'] (.bool false) rest
      else parseNumber (c :: rest)

/-- `JSON.parse`. -/
def parse (text : List Char) : Option Value :=
  match parseValue text.length text with
  | some (value, rest) => if skipBlanks rest = [] then some value else none
  | none => none

/-! ## Texts -/

theorem parseUnits_short {e : Char} {unit : UInt16} (hu : e ≠ 'u') (h : escaped e = some unit) (rest : List Char) :
    parseUnits ('\\' :: e :: rest) = (parseUnits rest).map fun p => (unit :: p.1, p.2) := by
  conv_lhs => unfold parseUnits
  rw [if_neg (by decide), if_pos rfl]
  split
  · next heq =>
    cases heq
    exact absurd rfl hu
  · next heq =>
    cases heq
    rw [h]
    cases parseUnits rest <;> rfl
  · next heq => cases heq

theorem parseUnits_unit {a b c d : Char} {unit : UInt16} (h : unitOf a b c d = some unit) (rest : List Char) :
    parseUnits ('\\' :: 'u' :: a :: b :: c :: d :: rest) = (parseUnits rest).map fun p => (unit :: p.1, p.2) := by
  conv_lhs => unfold parseUnits
  rw [if_neg (by decide), if_pos rfl]
  show (unitOf a b c d).bind _ = _
  rw [h]
  cases parseUnits rest <;> rfl

theorem parseUnits_plain {c : Char} (hquote : c ≠ '"') (hbackslash : c ≠ '\\') (hcontrol : ¬c.toNat < 0x20)
    (rest : List Char) :
    parseUnits (c :: rest) = (parseUnits rest).map fun p => (Utf16.encodeChar c ++ p.1, p.2) := by
  conv_lhs => unfold parseUnits
  rw [if_neg hquote, if_neg hbackslash, if_neg hcontrol]
  cases parseUnits rest <;> rfl

theorem hexValue_digitChar : ∀ d < 16, hexValue (Nat.digitChar d) = some d := by decide

theorem unitOf_control : ∀ n < 0x20,
    unitOf '0' '0' (Nat.digitChar (n / 16)) (Nat.digitChar (n % 16)) = some (UInt16.ofNat n) := by decide

/-- The three ways to write a character. -/
theorem escape_cases (c : Char) :
    (∃ e unit, escape c = ['\\', e] ∧ e ≠ 'u' ∧ escaped e = some unit ∧ Utf16.encodeChar c = [unit]) ∨
      (c.toNat < 0x20 ∧
        escape c = ['\\', 'u', '0', '0', Nat.digitChar (c.toNat / 16), Nat.digitChar (c.toNat % 16)]) ∨
      (c ≠ '"' ∧ c ≠ '\\' ∧ ¬c.toNat < 0x20 ∧ escape c = [c]) := by
  by_cases hquote : c = '"'
  · subst hquote
    exact .inl ⟨'"', 0x22, rfl, by decide, rfl, rfl⟩
  by_cases hbackslash : c = '\\'
  · subst hbackslash
    exact .inl ⟨'\\', 0x5c, rfl, by decide, rfl, rfl⟩
  by_cases hbackspace : c = '\x08'
  · subst hbackspace
    exact .inl ⟨'b', 0x08, rfl, by decide, rfl, rfl⟩
  by_cases htab : c = '\t'
  · subst htab
    exact .inl ⟨'t', 0x09, rfl, by decide, rfl, rfl⟩
  by_cases hline : c = '\n'
  · subst hline
    exact .inl ⟨'n', 0x0a, rfl, by decide, rfl, rfl⟩
  by_cases hform : c = '\x0c'
  · subst hform
    exact .inl ⟨'f', 0x0c, rfl, by decide, rfl, rfl⟩
  by_cases hreturn : c = '\r'
  · subst hreturn
    exact .inl ⟨'r', 0x0d, rfl, by decide, rfl, rfl⟩
  unfold escape
  rw [if_neg hquote, if_neg hbackslash, if_neg hbackspace, if_neg htab, if_neg hline, if_neg hform, if_neg hreturn]
  by_cases hcontrol : c.toNat < 0x20
  · exact .inr (.inl ⟨hcontrol, if_pos hcontrol⟩)
  · exact .inr (.inr ⟨hquote, hbackslash, hcontrol, if_neg hcontrol⟩)

/-- A character that has been written is read as its code units. -/
theorem parseUnits_escape (c : Char) (rest : List Char) :
    parseUnits (escape c ++ rest) = (parseUnits rest).map fun p => (Utf16.encodeChar c ++ p.1, p.2) := by
  rcases escape_cases c with ⟨e, unit, hescape, hu, hunit, hchar⟩ | ⟨hcontrol, hescape⟩ |
    ⟨hquote, hbackslash, hcontrol, hescape⟩
  · rw [hescape, hchar]
    exact parseUnits_short hu hunit rest
  · have hchar : Utf16.encodeChar c = [UInt16.ofNat c.toNat] := by
      unfold Utf16.encodeChar
      exact if_pos (show c.toNat < 0x10000 by omega)
    rw [hescape, hchar]
    exact parseUnits_unit (unitOf_control c.toNat hcontrol) rest
  · rw [hescape]
    exact parseUnits_plain hquote hbackslash hcontrol rest

theorem parseUnits_closing (rest : List Char) : ∀ cs : List Char,
    parseUnits (closing cs ++ rest) = some (cs.flatMap Utf16.encodeChar, rest)
  | [] => by
    show parseUnits ('"' :: rest) = _
    unfold parseUnits
    exact if_pos rfl
  | c :: cs => by
    have hcs := parseUnits_closing rest cs
    unfold closing at hcs ⊢
    rw [List.flatMap_cons, List.append_assoc, List.append_assoc, parseUnits_escape, ← List.append_assoc, hcs]
    rfl

theorem textOf_flatMap (cs : List Char) : textOf (cs.flatMap Utf16.encodeChar) = some cs := by
  unfold textOf
  rw [Utf16.decode_flatMap]
  exact if_pos rfl

/-- **A text is read back.** -/
theorem parseText_closing (cs rest : List Char) : parseText (closing cs ++ rest) = some (.string cs, rest) := by
  unfold parseText textValue
  rw [parseUnits_closing, Option.map_some]
  dsimp only
  rw [textOf_flatMap]

theorem parseName_closing (cs rest : List Char) : parseName (closing cs ++ rest) = some (cs, rest) := by
  unfold parseName
  rw [parseUnits_closing, Option.map_some]
  dsimp only
  rw [Utf16.decode_flatMap]

theorem parseText_illFormed (rest : List Char) :
    parseText ('\\' :: 'u' :: 'd' :: '8' :: '0' :: '0' :: '"' :: rest) = some (.illFormed, rest) := by
  have hclose : parseUnits ('"' :: rest) = some ([], rest) := parseUnits_closing rest []
  have hunits := parseUnits_unit (show unitOf 'd' '8' '0' '0' = some 0xd800 by decide) ('"' :: rest)
  have hlone : textOf [0xd800] = none := by decide
  unfold parseText textValue
  rw [hunits, hclose]
  simp only [Option.map_some, hlone]

/-! ## Values -/

/-- A number does not go on. -/
def Ends (rest : List Char) : Prop := ∀ c ∈ rest.head?, isNumberChar c = false

theorem skipBlanks_cons {c : Char} (h : c ∉ [' ', '\t', '\n', '\r']) (rest : List Char) :
    skipBlanks (c :: rest) = c :: rest :=
  List.dropWhile_cons_of_neg (by simpa using h)

theorem takeWhile_append {text rest : List Char} (h : text.all isNumberChar = true) (hrest : Ends rest) :
    (text ++ rest).takeWhile isNumberChar = text ∧ (text ++ rest).dropWhile isNumberChar = rest := by
  have hall := List.all_eq_true.mp h
  rw [List.takeWhile_append_of_pos hall, List.dropWhile_append_of_pos hall]
  cases rest with
  | nil => exact ⟨List.append_nil _, rfl⟩
  | cons c rest =>
    have hc : ¬isNumberChar c = true := by
      rw [hrest c rfl]
      exact Bool.false_ne_true
    rw [List.takeWhile_cons_of_neg hc, List.dropWhile_cons_of_neg hc]
    exact ⟨List.append_nil _, rfl⟩

theorem parseNumber_text (n : Number) {rest : List Char} (hrest : Ends rest) :
    parseNumber (n.text ++ rest) = some (.number n, rest) := by
  obtain ⟨text, chars, valid⟩ := n
  obtain ⟨htake, hdrop⟩ := takeWhile_append chars hrest
  unfold parseNumber
  dsimp only
  rw [dif_pos (by rw [htake]; exact valid)]
  simp only [htake, hdrop]

theorem Number.text_eq_cons (n : Number) : ∃ c cs, n.text = c :: cs ∧ isNumberChar c = true := by
  obtain ⟨text, chars, valid⟩ := n
  cases text with
  | nil => cases valid
  | cons c cs => exact ⟨c, cs, rfl, List.all_eq_true.mp chars c List.mem_cons_self⟩

theorem not_blank_of_isNumberChar {c : Char} (h : isNumberChar c = true) : c ∉ [' ', '\t', '\n', '\r'] := by
  intro hblank
  simp only [List.mem_cons, List.not_mem_nil, or_false] at hblank
  rcases hblank with rfl | rfl | rfl | rfl <;> cases h

/-- What a value begins with: no blank, and no closing bracket. -/
theorem render_eq_cons (v : Value) : ∃ c cs, v.render = c :: cs ∧ c ∉ [' ', '\t', '\n', '\r'] ∧ c ≠ ']' := by
  cases v with
  | null => exact ⟨_, _, rfl, by decide, by decide⟩
  | bool b => cases b <;> exact ⟨_, _, rfl, by decide, by decide⟩
  | number n =>
    obtain ⟨c, cs, htext, hc⟩ := n.text_eq_cons
    refine ⟨c, cs, htext, not_blank_of_isNumberChar hc, ?_⟩
    rintro rfl
    cases hc
  | string cs => exact ⟨_, _, rfl, by decide, by decide⟩
  | illFormed => exact ⟨_, _, rfl, by decide, by decide⟩
  | array items => exact ⟨_, _, rfl, by decide, by decide⟩
  | object members => exact ⟨_, _, rfl, by decide, by decide⟩

theorem length_render_pos (v : Value) : 0 < v.render.length := by
  obtain ⟨c, cs, h, -⟩ := render_eq_cons v
  rw [h]
  exact Nat.succ_pos _

theorem parseValue_cons {c : Char} (h : c ∉ [' ', '\t', '\n', '\r']) (n : Nat) (rest : List Char) :
    parseValue (n + 1) (c :: rest) =
      if c = '"' then parseText rest
      else if c = '[' then parseArray (parseValue n) n rest
      else if c = '{' then parseObject (parseValue n) n rest
      else if c = 'n' then parseWord ['u', 'l', 'l'] .null rest
      else if c = 't' then parseWord ['r', 'u', 'e'] (.bool true) rest
      else if c = 'f' then parseWord ['a', 'l', 's', 'e'] (.bool false) rest
      else parseNumber (c :: rest) := by
  conv_lhs => unfold parseValue
  rw [skipBlanks_cons h]

theorem parseWord_append (word : List Char) (value : Value) (rest : List Char) :
    parseWord word value (word ++ rest) = some (value, rest) := by
  unfold parseWord
  rw [if_pos (List.isPrefixOf_iff_prefix.mpr (List.prefix_append _ _)), List.drop_left]

theorem parseValue_number (number : Number) (n : Nat) {rest : List Char} (hrest : Ends rest) :
    parseValue (n + 1) (number.text ++ rest) = some (.number number, rest) := by
  obtain ⟨c, cs, htext, hc⟩ := number.text_eq_cons
  have hnot : ∀ d, isNumberChar d = false → c ≠ d := by
    rintro d hd rfl
    rw [hd] at hc
    cases hc
  have hnumber := parseNumber_text number hrest
  rw [htext, List.cons_append] at hnumber ⊢
  rw [parseValue_cons (not_blank_of_isNumberChar hc), if_neg (hnot '"' rfl), if_neg (hnot '[' rfl),
    if_neg (hnot '{' rfl), if_neg (hnot 'n' rfl), if_neg (hnot 't' rfl), if_neg (hnot 'f' rfl)]
  exact hnumber

theorem ends_cons {c : Char} (h : isNumberChar c = false) (rest : List Char) : Ends (c :: rest) := by
  rintro _ ⟨⟩
  exact h

theorem renderItems_cons (item next : Value) (items : List Value) :
    renderItems (item :: next :: items) = item.render ++ ',' :: renderItems (next :: items) := rfl

theorem renderMembers_cons (member next : List Char × Value) (members : List (List Char × Value)) :
    renderMembers (member :: next :: members) = renderMember member ++ ',' :: renderMembers (next :: members) := rfl

theorem renderItems_eq_cons (item : Value) (items : List Value) :
    ∃ c cs, renderItems (item :: items) = c :: cs ∧ c ∉ [' ', '\t', '\n', '\r'] ∧ c ≠ ']' := by
  obtain ⟨c, cs, h, hc⟩ := render_eq_cons item
  cases items with
  | nil => exact ⟨c, cs ++ [']'], by rw [← List.cons_append, ← h]; rfl, hc⟩
  | cons next items => exact ⟨c, cs ++ ',' :: renderItems (next :: items), by rw [← List.cons_append, ← h]; rfl, hc⟩

theorem renderMembers_eq_cons (member : List Char × Value) (members : List (List Char × Value)) :
    ∃ cs, renderMembers (member :: members) = '"' :: cs := by
  obtain ⟨name, value⟩ := member
  cases members <;> exact ⟨_, rfl⟩

/-- An array with items. -/
theorem parseArray_of_items {n : Nat} {item : Value} {items : List Value} {rest : List Char}
    (h : parseItems (parseValue n) n (renderItems (item :: items) ++ rest) = some (item :: items, rest)) :
    parseArray (parseValue n) n (renderItems (item :: items) ++ rest) = some (.array (item :: items), rest) := by
  obtain ⟨c, cs, hcons, hblank, hclose⟩ := renderItems_eq_cons item items
  unfold parseArray
  rw [h]
  rw [hcons, List.cons_append, skipBlanks_cons hblank]
  split
  · next heq =>
    cases heq
    exact absurd rfl hclose
  · rfl

/-- An object with members. -/
theorem parseObject_of_members {n : Nat} {member : List Char × Value} {members : List (List Char × Value)}
    {rest : List Char}
    (h : parseMembers (parseValue n) n (renderMembers (member :: members) ++ rest) = some (member :: members, rest)) :
    parseObject (parseValue n) n (renderMembers (member :: members) ++ rest) =
      some (.object (member :: members), rest) := by
  obtain ⟨cs, hcons⟩ := renderMembers_eq_cons member members
  unfold parseObject
  rw [h]
  rw [hcons, List.cons_append, skipBlanks_cons (by decide)]
  rfl

mutual

theorem parseValue_render : ∀ (v : Value) (n : Nat) (rest : List Char), v.render.length ≤ n → Ends rest →
    parseValue n (v.render ++ rest) = some (v, rest)
  | .null, n + 1, rest, _, _ => (parseValue_cons (by decide) n _).trans (parseWord_append ['u', 'l', 'l'] _ rest)
  | .bool true, n + 1, rest, _, _ => (parseValue_cons (by decide) n _).trans (parseWord_append ['r', 'u', 'e'] _ rest)
  | .bool false, n + 1, rest, _, _ =>
    (parseValue_cons (by decide) n _).trans (parseWord_append ['a', 'l', 's', 'e'] _ rest)
  | .number number, n + 1, rest, _, hrest => parseValue_number number n hrest
  | .string cs, n + 1, rest, _, _ => by
    have htext := parseText_closing cs rest
    refine (parseValue_cons (by decide) n _).trans ?_
    rw [if_pos rfl]
    exact htext
  | .illFormed, n + 1, rest, _, _ => (parseValue_cons (by decide) n _).trans (parseText_illFormed rest)
  | .array [], n + 1, rest, _, _ => rfl
  | .array (item :: items), n + 1, rest, h, _ => by
    have hlength : (renderItems (item :: items)).length ≤ n := by
      simpa [Value.render] using h
    have hitems := parseItems_render item items n n rest hlength hlength
    refine (parseValue_cons (by decide) n _).trans ?_
    rw [if_neg (by decide), if_pos rfl]
    exact parseArray_of_items hitems
  | .object [], n + 1, rest, _, _ => rfl
  | .object (member :: members), n + 1, rest, h, _ => by
    have hlength : (renderMembers (member :: members)).length ≤ n := by
      simpa [Value.render] using h
    have hmembers := parseMembers_render member members n n rest hlength hlength
    refine (parseValue_cons (by decide) n _).trans ?_
    rw [if_neg (by decide), if_neg (by decide), if_pos rfl]
    exact parseObject_of_members hmembers
  | v, 0, _, h, _ => by
    have hpos := length_render_pos v
    omega
termination_by v => sizeOf v

theorem parseItems_render : ∀ (item : Value) (items : List Value) (n m : Nat) (rest : List Char),
    (renderItems (item :: items)).length ≤ n → (renderItems (item :: items)).length ≤ m →
    parseItems (parseValue n) m (renderItems (item :: items) ++ rest) = some (item :: items, rest)
  | item, [], n, m + 1, rest, hn, hm => by
    have hlength : (item.render ++ [']']).length ≤ n := hn
    rw [List.length_append] at hlength
    have hitem := parseValue_render item n (']' :: rest) (by omega) (ends_cons (by decide) rest)
    show parseItems (parseValue n) (m + 1) (item.render ++ [']'] ++ rest) = _
    unfold parseItems
    rw [List.append_assoc, List.singleton_append, hitem]
    rfl
  | item, next :: items, n, m + 1, rest, hn, hm => by
    rw [renderItems_cons, List.length_append, List.length_cons] at hn hm
    have hpos := length_render_pos item
    have hitem := parseValue_render item n (',' :: (renderItems (next :: items) ++ rest)) (by omega)
      (ends_cons (by decide) _)
    have hitems := parseItems_render next items n m rest (by omega) (by omega)
    rw [renderItems_cons, List.append_assoc, List.cons_append]
    unfold parseItems
    rw [hitem]
    show (parseItems (parseValue n) m (renderItems (next :: items) ++ rest)).bind _ = _
    rw [hitems]
    rfl
  | item, items, n, 0, rest, hn, hm => by
    obtain ⟨c, cs, hcons, -⟩ := renderItems_eq_cons item items
    rw [hcons] at hm
    simp at hm
termination_by item items => sizeOf (item :: items)

theorem parseMember_render : ∀ (member : List Char × Value) (n : Nat) (rest : List Char),
    (renderMember member).length ≤ n → Ends rest →
    parseMember (parseValue n) (renderMember member ++ rest) = some (member, rest)
  | (name, value), n, rest, hn, hrest => by
    have hlength : ('"' :: (closing name ++ ':' :: value.render)).length ≤ n := hn
    rw [List.length_cons, List.length_append, List.length_cons] at hlength
    have hvalue := parseValue_render value n rest (by omega) hrest
    have hname := parseName_closing name (':' :: (value.render ++ rest))
    show parseMember (parseValue n) ('"' :: (closing name ++ ':' :: value.render) ++ rest) = _
    unfold parseMember
    rw [List.cons_append, skipBlanks_cons (by decide), List.append_assoc, List.cons_append]
    show (parseName (closing name ++ ':' :: (value.render ++ rest))).bind _ = _
    rw [hname]
    show (match skipBlanks (':' :: (value.render ++ rest)) with
      | ':' :: rest => (parseValue n rest).bind fun p => some ((name, p.1), p.2)
      | _ => none) = _
    rw [skipBlanks_cons (by decide)]
    show (parseValue n (value.render ++ rest)).bind _ = _
    rw [hvalue]
    rfl
termination_by member => sizeOf member

theorem parseMembers_render : ∀ (member : List Char × Value) (members : List (List Char × Value)) (n m : Nat)
    (rest : List Char), (renderMembers (member :: members)).length ≤ n →
    (renderMembers (member :: members)).length ≤ m →
    parseMembers (parseValue n) m (renderMembers (member :: members) ++ rest) = some (member :: members, rest)
  | member, [], n, m + 1, rest, hn, hm => by
    have hlength : (renderMember member ++ ['}']).length ≤ n := hn
    rw [List.length_append] at hlength
    have hmember := parseMember_render member n ('}' :: rest) (by omega) (ends_cons (by decide) rest)
    show parseMembers (parseValue n) (m + 1) (renderMember member ++ ['}'] ++ rest) = _
    unfold parseMembers
    rw [List.append_assoc, List.singleton_append, hmember]
    rfl
  | member, next :: members, n, m + 1, rest, hn, hm => by
    rw [renderMembers_cons, List.length_append, List.length_cons] at hn hm
    have hmember := parseMember_render member n (',' :: (renderMembers (next :: members) ++ rest))
      (by omega) (ends_cons (by decide) _)
    have hmembers := parseMembers_render next members n m rest (by omega) (by omega)
    rw [renderMembers_cons, List.append_assoc, List.cons_append]
    unfold parseMembers
    rw [hmember]
    show (parseMembers (parseValue n) m (renderMembers (next :: members) ++ rest)).bind _ = _
    rw [hmembers]
    rfl
  | member, members, n, 0, rest, hn, hm => by
    obtain ⟨cs, hcons⟩ := renderMembers_eq_cons member members
    rw [hcons] at hm
    simp at hm
termination_by member members => sizeOf (member :: members)

end

/-- **What has been rendered is parsed as what it was.** -/
theorem parse_render (v : Value) : parse v.render = some v := by
  have hvalue := parseValue_render v v.render.length [] (Nat.le_refl _) nofun
  rw [List.append_nil] at hvalue
  unfold parse
  rw [hvalue]
  rfl

example : (parse "[ null, \"\\u0041\" ]".toList).map Value.render = some "[null,\"A\"]".toList := by decide +kernel

end Json
