import CliPocket.Lib.BigEndian
import CliPocket.Lib.Chunks

/-!
# SHA-256 and HMAC

- `hash`: the digest of some bytes, block by block;
- `hmac`: the code of some bytes under a key;
- `length_hash`, `length_hmac`: both have 32 bytes.
-/

namespace Sha256

open BigEndian Chunks

/-! ## One block -/

/-- A word turned right. -/
def rotr (n w : UInt32) : UInt32 := (w >>> n) ||| (w <<< (32 - n))

/-- The constants of the rounds. -/
def constants : List UInt32 :=
  [0x428a2f98, 0x71374491, 0xb5c0fbcf, 0xe9b5dba5, 0x3956c25b, 0x59f111f1, 0x923f82a4, 0xab1c5ed5,
   0xd807aa98, 0x12835b01, 0x243185be, 0x550c7dc3, 0x72be5d74, 0x80deb1fe, 0x9bdc06a7, 0xc19bf174,
   0xe49b69c1, 0xefbe4786, 0x0fc19dc6, 0x240ca1cc, 0x2de92c6f, 0x4a7484aa, 0x5cb0a9dc, 0x76f988da,
   0x983e5152, 0xa831c66d, 0xb00327c8, 0xbf597fc7, 0xc6e00bf3, 0xd5a79147, 0x06ca6351, 0x14292967,
   0x27b70a85, 0x2e1b2138, 0x4d2c6dfc, 0x53380d13, 0x650a7354, 0x766a0abb, 0x81c2c92e, 0x92722c85,
   0xa2bfe8a1, 0xa81a664b, 0xc24b8b70, 0xc76c51a3, 0xd192e819, 0xd6990624, 0xf40e3585, 0x106aa070,
   0x19a4c116, 0x1e376c08, 0x2748774c, 0x34b0bcb5, 0x391c0cb3, 0x4ed8aa4a, 0x5b9cca4f, 0x682e6ff3,
   0x748f82ee, 0x78a5636f, 0x84c87814, 0x8cc70208, 0x90befffa, 0xa4506ceb, 0xbef9a3f7, 0xc67178f2]

structure State where
  a : UInt32
  b : UInt32
  c : UInt32
  d : UInt32
  e : UInt32
  f : UInt32
  g : UInt32
  h : UInt32

def State.init : State :=
  ⟨0x6a09e667, 0xbb67ae85, 0x3c6ef372, 0xa54ff53a, 0x510e527f, 0x9b05688c, 0x1f83d9ab, 0x5be0cd19⟩

def State.add (s t : State) : State :=
  ⟨s.a + t.a, s.b + t.b, s.c + t.c, s.d + t.d, s.e + t.e, s.f + t.f, s.g + t.g, s.h + t.h⟩

/-- One round, with its constant and its word. -/
def State.round (s : State) (input : UInt32 × UInt32) : State :=
  let choice := (s.e &&& s.f) ^^^ (~~~s.e &&& s.g)
  let majority := (s.a &&& s.b) ^^^ (s.a &&& s.c) ^^^ (s.b &&& s.c)
  let t₁ := s.h + (rotr 6 s.e ^^^ rotr 11 s.e ^^^ rotr 25 s.e) + choice + input.1 + input.2
  let t₂ := (rotr 2 s.a ^^^ rotr 13 s.a ^^^ rotr 22 s.a) + majority
  { a := t₁ + t₂, b := s.a, c := s.b, d := s.c, e := s.d + t₁, f := s.e, g := s.f, h := s.g }

/-- The word that follows sixteen words. -/
def nextWord (window : List UInt32) : UInt32 :=
  let early := window.getD 1 0
  let late := window.getD 14 0
  window.getD 0 0 + (rotr 7 early ^^^ rotr 18 early ^^^ (early >>> 3)) + window.getD 9 0 +
    (rotr 17 late ^^^ rotr 19 late ^^^ (late >>> 10))

/-- The words of the rounds, from the sixteen of a block. -/
def schedule : Nat → List UInt32 → List UInt32
  | 0, _ => []
  | n + 1, window => window.headD 0 :: schedule n (window.tail ++ [nextWord window])

def words (block : List UInt8) : List UInt32 := (chunksOf 4 block).map fun bytes => UInt32.ofNat (ofBe bytes)

def compress (s : State) (block : List UInt8) : State :=
  s.add ((constants.zip (schedule 64 (words block))).foldl State.round s)

/-! ## Digests -/

/-- A mark, zeros, and the length in bits, up to the end of a block. -/
def padding (length : Nat) : List UInt8 := 0x80 :: List.replicate ((119 - length % 64) % 64) 0 ++ toBe 8 (8 * length)

def State.bytes (s : State) : List UInt8 := [s.a, s.b, s.c, s.d, s.e, s.f, s.g, s.h].flatMap fun w => toBe 4 w.toNat

def hash (bytes : List UInt8) : List UInt8 :=
  ((chunksOf 64 (bytes ++ padding bytes.length)).foldl compress State.init).bytes

/-- A key as a block, with each of its bytes changed. -/
def keyBlock (mask : UInt8) (key : List UInt8) : List UInt8 :=
  let key := if 64 < key.length then hash key else key
  (key ++ List.replicate (64 - key.length) 0).map (· ^^^ mask)

def hmac (key bytes : List UInt8) : List UInt8 := hash (keyBlock 0x5c key ++ hash (keyBlock 0x36 key ++ bytes))

theorem length_hash (bytes : List UInt8) : (hash bytes).length = 32 := by
  unfold hash State.bytes
  simp only [List.flatMap_cons, List.flatMap_nil, List.length_append, length_toBe, List.length_nil]

theorem length_hmac (key bytes : List UInt8) : (hmac key bytes).length = 32 := length_hash _

example : (hash [0x61, 0x62, 0x63]).take 4 = [0xba, 0x78, 0x16, 0xbf] := by decide +kernel

end Sha256
