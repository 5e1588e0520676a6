import Mathlib.Algebra.Order.Ring.Int

/-!
# X25519

The Montgomery ladder over the field of `2 ^ 255 - 19` elements.

- `scalarMult`: a point, by its coordinate `u`, times the number that a key stands for;
- `publicOf`, `length_publicOf`: the public key of a private one, which has 32 bytes.
-/

namespace X25519

/-! ## The field -/

def prime : Nat := 2 ^ 255 - 19

def add (a b : Nat) : Nat := (a + b) % prime

def sub (a b : Nat) : Nat := (a + prime - b) % prime

def mul (a b : Nat) : Nat := a * b % prime

/-- The lowest `width` bits of a number, the highest first. -/
def bits (width n : Nat) : List Bool := (List.range width).reverse.map n.testBit

def pow (a exponent : Nat) : Nat :=
  (bits 255 exponent).foldl (fun power bit => if bit then mul (mul power power) a else mul power power) 1

/-! ## The ladder -/

/-- A multiple of a point and the next one, each as a fraction. -/
structure Rungs where
  x₂ : Nat
  z₂ : Nat
  x₃ : Nat
  z₃ : Nat

def Rungs.swapIf (bit : Bool) (r : Rungs) : Rungs := if bit then ⟨r.x₃, r.z₃, r.x₂, r.z₂⟩ else r

/-- The lower multiple doubled, and the sum of the two. -/
def Rungs.double (u : Nat) (r : Rungs) : Rungs :=
  let a := add r.x₂ r.z₂
  let b := sub r.x₂ r.z₂
  let e := sub (mul a a) (mul b b)
  let da := mul (sub r.x₃ r.z₃) a
  let cb := mul (add r.x₃ r.z₃) b
  { x₂ := mul (mul a a) (mul b b)
    z₂ := mul e (add (mul a a) (mul 121665 e))
    x₃ := mul (add da cb) (add da cb)
    z₃ := mul u (mul (sub da cb) (sub da cb)) }

def Rungs.step (u : Nat) (r : Rungs) (bit : Bool) : Rungs := ((r.swapIf bit).double u).swapIf bit

/-! ## Keys -/

def ofLe (bytes : List UInt8) : Nat := bytes.foldr (fun b n => b.toNat + 256 * n) 0

def toLe (width n : Nat) : List UInt8 := (List.range width).map fun i => UInt8.ofNat (n / 256 ^ i)

/-- The number that a key stands for: its highest and its three lowest bits are fixed. -/
def clamp (key : List UInt8) : Nat := 2 ^ 254 + ofLe key % 2 ^ 254 / 8 * 8

def scalarMult (key : List UInt8) (u : Nat) : List UInt8 :=
  let r := (bits 255 (clamp key)).foldl (Rungs.step u) { x₂ := 1, z₂ := 0, x₃ := u, z₃ := 1 }
  toLe 32 (mul r.x₂ (pow r.z₂ (prime - 2)))

/-- The base point has the coordinate 9. -/
def publicOf (key : List UInt8) : List UInt8 := scalarMult key 9

theorem length_publicOf (key : List UInt8) : (publicOf key).length = 32 := by
  unfold publicOf scalarMult toLe
  rw [List.length_map, List.length_range]

example : (publicOf (List.replicate 32 7)).take 4 = [0x13, 0xbe, 0x4f, 0xea] := by decide +kernel

end X25519
