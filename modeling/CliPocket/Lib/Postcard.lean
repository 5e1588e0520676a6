import CliPocket.Lib.Utf8
import CliPocket.Lib.Wire

/-!
# Postcard

The part of the postcard format that messages of tags, byte strings and text need: a tag is a `u32` of at most five
bytes, a length a `usize` of at most ten.

- `takeTag_eq_ok`, `takeBytes_eq_ok`, `takeStr_eq_ok`: what each reader accepts;
- `takeTag_putTag`, `takeBytes_putBytes`, `takeStr_putStr`: what the writers wrote is read back.
-/

namespace Postcard

/-- The errors of the deserializer that occur here. -/
inductive Error
  | deserializeUnexpectedEnd
  | deserializeBadVarint
  | deserializeBadUtf8
  | serdeDeCustom
  deriving DecidableEq

/-- `Display`. -/
def Error.toMessage : Error → String
  | .deserializeUnexpectedEnd => "Hit the end of buffer, expected more data"
  | .deserializeBadVarint => "Found a varint that didn't terminate. Is the usize too big for this platform?"
  | .deserializeBadUtf8 => "Tried to parse invalid utf-8"
  | .serdeDeCustom => "Serde Deserialization Error"

def Error.ofFault : Wire.Fault → Error
  | .unexpectedEnd => .deserializeUnexpectedEnd
  | .overlong => .deserializeBadVarint

/-! ## Readers -/

/-- The tag of an enum. -/
def takeTag (bytes : List UInt8) : Except Error (Nat × List UInt8) := (Wire.takeVarint 5 15 bytes).mapError .ofFault

/-- A byte string. -/
def takeBytes (bytes : List UInt8) : Except Error (List UInt8 × List UInt8) :=
  (Wire.takeBytes 10 1 bytes).mapError .ofFault

def takeStr (bytes : List UInt8) : Except Error (String × List UInt8) := do
  let (text, bytes) ← takeBytes bytes
  match Utf8.fromUtf8 text with
  | some s => .ok (s, bytes)
  | none => .error .deserializeBadUtf8

/-- `from_bytes`: what the reader leaves is ignored. -/
def fromBytes {α : Type} (take : List UInt8 → Except Error (α × List UInt8)) (bytes : List UInt8) : Except Error α := do
  let (a, _) ← take bytes
  .ok a

theorem takeTag_eq_ok {bytes rest : List UInt8} {n : Nat} :
    takeTag bytes = .ok (n, rest) ↔ ∃ tag, bytes = tag ++ rest ∧ Wire.Spells 5 15 tag n := by
  unfold takeTag
  rw [Wire.mapError_eq_ok]
  exact Wire.takeVarint_eq_ok

theorem takeBytes_eq_ok {bytes run rest : List UInt8} :
    takeBytes bytes = .ok (run, rest) ↔ ∃ len, bytes = len ++ run ++ rest ∧ Wire.Spells 10 1 len run.length := by
  unfold takeBytes
  rw [Wire.mapError_eq_ok]
  exact Wire.takeBytes_eq_ok

theorem takeStr_eq_ok {bytes rest : List UInt8} {s : String} :
    takeStr bytes = .ok (s, rest) ↔
      ∃ len text, bytes = len ++ text ++ rest ∧ Wire.Spells 10 1 len text.length ∧ Utf8.fromUtf8 text = some s := by
  unfold takeStr
  rw [Wire.bind_eq_ok]
  constructor
  · rintro ⟨⟨text, rest'⟩, ht, h⟩
    obtain ⟨len, rfl, hlen⟩ := takeBytes_eq_ok.mp ht
    simp only at h
    split at h
    · next hs =>
      cases h
      exact ⟨len, text, rfl, hlen, hs⟩
    · cases h
  · rintro ⟨len, text, rfl, hlen, hs⟩
    refine ⟨(text, rest), takeBytes_eq_ok.mpr ⟨len, rfl, hlen⟩, ?_⟩
    simp [hs]

theorem fromBytes_eq_ok {α : Type} {take : List UInt8 → Except Error (α × List UInt8)} {bytes : List UInt8} {a : α} :
    fromBytes take bytes = .ok a ↔ ∃ rest, take bytes = .ok (a, rest) := by
  unfold fromBytes
  rw [Wire.bind_eq_ok]
  constructor
  · rintro ⟨⟨a', rest⟩, ht, h⟩
    cases h
    exact ⟨rest, ht⟩
  · rintro ⟨rest, ht⟩
    exact ⟨(a, rest), ht, rfl⟩

/-! ## Writers -/

def putTag (n : Nat) : List UInt8 := Wire.putVarint n

def putBytes (run : List UInt8) : List UInt8 := Wire.putBytes run

def putStr (s : String) : List UInt8 := putBytes (s.toList.flatMap String.utf8EncodeChar)

/-- The unsigned integers but for `u8`. -/
def putUint (n : Nat) : List UInt8 := Wire.putVarint n

def putBool (b : Bool) : List UInt8 := [if b then 1 else 0]

def putOption {α : Type} (put : α → List UInt8) : Option α → List UInt8
  | none => [0]
  | some a => 1 :: put a

/-- The elements behind their number. -/
def putVec {α : Type} (put : α → List UInt8) (elements : List α) : List UInt8 :=
  putUint elements.length ++ elements.flatMap put

/-! ## What has been written is read back -/

theorem takeTag_putTag {n : Nat} (h : n < 2 ^ 32) (rest : List UInt8) : takeTag (putTag n ++ rest) = .ok (n, rest) :=
  takeTag_eq_ok.mpr ⟨putTag n, rfl, Wire.spells_putVarint (by decide) (by omega)⟩

theorem takeBytes_putBytes {run : List UInt8} (h : run.length < 2 ^ 64) (rest : List UInt8) :
    takeBytes (putBytes run ++ rest) = .ok (run, rest) :=
  takeBytes_eq_ok.mpr ⟨Wire.putVarint run.length, rfl, Wire.spells_putVarint (by decide) (by omega)⟩

theorem takeStr_putStr {s : String} (h : (Utf8.encode s).length < 2 ^ 64) (rest : List UInt8) :
    takeStr (putStr s ++ rest) = .ok (s, rest) :=
  takeStr_eq_ok.mpr ⟨Wire.putVarint (Utf8.encode s).length, Utf8.encode s, rfl,
    Wire.spells_putVarint (by decide) (by omega), Utf8.fromUtf8_encode s⟩

/-! ## Lengths -/

@[simp] theorem length_putBool (b : Bool) : (putBool b).length = 1 := rfl

/-- A byte string is longer by its length's spelling. -/
theorem length_putBytes (run : List UInt8) : (putBytes run).length = (putUint run.length).length + run.length := by
  unfold putBytes Wire.putBytes putUint
  rw [List.length_append]

theorem length_putStr (s : String) :
    (putStr s).length = (putUint (s.toList.flatMap String.utf8EncodeChar).length).length +
      (s.toList.flatMap String.utf8EncodeChar).length := length_putBytes _

end Postcard
