import CliPocket.Lib.Postcard
import CliPocket.Lib.Reader
import CliPocket.Lib.Utf8Pieces

/-!
# Postcard readers

The whole of the postcard format that derived codecs need: unsigned integers of each width, flags, byte strings, texts,
options and sequences.

- `lawful_uint`, `lawful_bool`, `lawful_bytes`, `lawful_str`: the laws of the single fields;
- `lawful_option`, `lawful_vec`: those of options and sequences, from the laws of what is in them;
- `encode_of_fromUtf8`: a text has one spelling only.
-/

namespace Utf8

/-! ## One spelling -/

/-- The first byte of a character of two, three or four bytes, and what it says of the next. -/
theorem lead_pending_cases {n : Nat} {p : Pending} (h : lead n = .pending p) :
    (0xc2 ≤ n ∧ n ≤ 0xdf ∧ p.needed = 1 ∧ p.codePoint = n % 0x20) ∨
      (0xe0 ≤ n ∧ n ≤ 0xef ∧ p.needed = 2 ∧ p.codePoint = n % 0x10 ∧ (n = 0xe0 → p.lower = 0xa0) ∧
        (n = 0xed → p.upper = 0x9f)) ∨
      0xf0 ≤ n ∧ n ≤ 0xf4 ∧ p.needed = 3 ∧ p.codePoint = n % 8 ∧ (n = 0xf0 → p.lower = 0x90) ∧
        (n = 0xf4 → p.upper = 0x8f) := by
  unfold lead at h
  split at h
  · cases h
  · split at h
    · next hn =>
      cases h
      exact .inl ⟨hn.1, hn.2, rfl, rfl⟩
    · split at h
      · next hn =>
        cases h
        exact .inr (.inl ⟨hn.1, hn.2, rfl, rfl, fun heq => if_pos heq, fun heq => if_pos heq⟩)
      · split at h
        · next hn =>
          cases h
          exact .inr (.inr ⟨hn.1, hn.2, rfl, rfl, fun heq => if_pos heq, fun heq => if_pos heq⟩)
        · cases h

theorem encode_two {n : Nat} {b b₁ : UInt8} (hn : 0x80 ≤ n) (hn' : n < 0x800) (hb : n / 64 % 0x20 + 0xc0 = b.toNat)
    (hb₁ : n % 0x40 + 0x80 = b₁.toNat) : String.utf8EncodeChar (Char.ofNat n) = [b, b₁] := by
  unfold String.utf8EncodeChar
  rw [val_ofNat (.inl (by omega))]
  dsimp only
  rw [if_neg (by omega), if_pos (by omega), hb, hb₁]
  simp

theorem encode_three {n : Nat} {b b₁ b₂ : UInt8} (hvalid : n.isValidChar) (hn : 0x800 ≤ n) (hn' : n < 0x10000)
    (hb : n / 4096 % 0x10 + 0xe0 = b.toNat) (hb₁ : n / 64 % 0x40 + 0x80 = b₁.toNat)
    (hb₂ : n % 0x40 + 0x80 = b₂.toNat) : String.utf8EncodeChar (Char.ofNat n) = [b, b₁, b₂] := by
  unfold String.utf8EncodeChar
  rw [val_ofNat hvalid]
  dsimp only
  rw [if_neg (by omega), if_neg (by omega), if_pos (by omega), hb, hb₁, hb₂]
  simp

theorem encode_four {n : Nat} {b b₁ b₂ b₃ : UInt8} (hn : 0x10000 ≤ n) (hn' : n < 0x110000)
    (hb : n / 262144 % 0x08 + 0xf0 = b.toNat) (hb₁ : n / 4096 % 0x40 + 0x80 = b₁.toNat)
    (hb₂ : n / 64 % 0x40 + 0x80 = b₂.toNat) (hb₃ : n % 0x40 + 0x80 = b₃.toNat) :
    String.utf8EncodeChar (Char.ofNat n) = [b, b₁, b₂, b₃] := by
  unfold String.utf8EncodeChar
  rw [val_ofNat (.inr ⟨by omega, hn'⟩)]
  dsimp only
  rw [if_neg (by omega), if_neg (by omega), if_neg (by omega), hb, hb₁, hb₂, hb₃]
  simp

theorem lead_char {b : UInt8} {c : Char} (h : lead b.toNat = .char c) : String.utf8EncodeChar c = [b] := by
  unfold lead at h
  split at h
  · next hb =>
    cases h
    unfold String.utf8EncodeChar
    rw [val_ofNat (.inl (by omega))]
    dsimp only
    rw [if_pos hb]
    simp
  · split_ifs at h

/-- A character that is under way, and what stands behind it. -/
theorem under_way {p : Pending} {bytes : List UInt8} {c : Char} {out : List (Option Char)}
    (h : decode (some p) bytes = some c :: out) : ∃ b rest, bytes = b :: rest ∧
      (p.lower ≤ b.toNat ∧ b.toNat ≤ p.upper) ∧
      (p.needed = 1 → Char.ofNat (p.codePoint * 0x40 + b.toNat % 0x40) = c ∧ decode none rest = out) ∧
      (p.needed ≠ 1 → decode (some { needed := p.needed - 1, codePoint := p.codePoint * 0x40 + b.toNat % 0x40 }) rest =
        some c :: out) := by
  obtain ⟨b, rest, rfl, hb, _⟩ := continues_of_decode h
  refine ⟨b, rest, rfl, hb, fun hlast => ?_, fun hmore => ?_⟩
  · rw [decode_last hb hlast, List.cons.injEq, Option.some.injEq] at h
    exact h
  · rwa [decode_cont hb hmore] at h

/-- **Only the bytes of a character are read as it.** -/
theorem head_of_decode {bytes : List UInt8} {c : Char} {out : List (Option Char)}
    (h : decode none bytes = some c :: out) :
    ∃ rest, bytes = String.utf8EncodeChar c ++ rest ∧ decode none rest = out := by
  cases bytes with
  | nil => cases h
  | cons b rest =>
    cases hlead : lead b.toNat with
    | char c' =>
      rw [decode_char hlead, List.cons.injEq, Option.some.injEq] at h
      obtain ⟨rfl, hout⟩ := h
      refine ⟨rest, ?_, hout⟩
      rw [lead_char hlead]
      rfl
    | fault =>
      rw [decode_fault hlead] at h
      cases h
    | pending p =>
      obtain ⟨hlower, hupper⟩ := lead_ok hlead
      rw [decode_lead hlead] at h
      obtain ⟨b₁, rest₁, rfl, hb₁, hlast, hmore⟩ := under_way h
      rcases lead_pending_cases hlead with ⟨hn, hn', hneeded, hcode⟩ | ⟨hn, hn', hneeded, hcode, hlow, hup⟩ |
        ⟨hn, hn', hneeded, hcode, hlow, hup⟩
      · obtain ⟨rfl, hout⟩ := hlast hneeded
        refine ⟨rest₁, ?_, hout⟩
        rw [@encode_two _ b b₁ (by omega) (by omega) (by omega) (by omega)]
        rfl
      · obtain ⟨b₂, rest₂, rfl, hb₂, hlast₂, -⟩ := under_way (hmore (by omega))
        obtain ⟨rfl, hout⟩ := hlast₂ (by dsimp only; omega)
        dsimp only at hb₂ ⊢
        refine ⟨rest₂, ?_, hout⟩
        have hvalid : ((p.codePoint * 0x40 + b₁.toNat % 0x40) * 0x40 + b₂.toNat % 0x40).isValidChar := by
          rcases Nat.lt_trichotomy b.toNat 0xed with hlt | heq | hgt
          · exact .inl (by omega)
          · have hbound := hup heq
            exact .inl (by omega)
          · exact .inr ⟨by omega, by omega⟩
        have hlarge : 0x800 ≤ (p.codePoint * 0x40 + b₁.toNat % 0x40) * 0x40 + b₂.toNat % 0x40 := by
          by_cases heq : b.toNat = 0xe0
          · have hbound := hlow heq
            omega
          · omega
        rw [@encode_three _ b b₁ b₂ hvalid hlarge (by omega) (by omega) (by omega) (by omega)]
        rfl
      · obtain ⟨b₂, rest₂, rfl, hb₂, -, hmore₂⟩ := under_way (hmore (by omega))
        obtain ⟨b₃, rest₃, rfl, hb₃, hlast₃, -⟩ := under_way (hmore₂ (by dsimp only; omega))
        obtain ⟨rfl, hout⟩ := hlast₃ (by dsimp only; omega)
        dsimp only at hb₂ hb₃ ⊢
        refine ⟨rest₃, ?_, hout⟩
        have hlarge : 0x10000 ≤
            ((p.codePoint * 0x40 + b₁.toNat % 0x40) * 0x40 + b₂.toNat % 0x40) * 0x40 + b₃.toNat % 0x40 := by
          by_cases heq : b.toNat = 0xf0
          · have hbound := hlow heq
            omega
          · omega
        have hsmall : ((p.codePoint * 0x40 + b₁.toNat % 0x40) * 0x40 + b₂.toNat % 0x40) * 0x40 + b₃.toNat % 0x40 <
            0x110000 := by
          by_cases heq : b.toNat = 0xf4
          · have hbound := hup heq
            omega
          · omega
        rw [@encode_four _ b b₁ b₂ b₃ hlarge hsmall (by omega) (by omega) (by omega) (by omega)]
        rfl

theorem flatMap_of_decode : ∀ {cs : List Char} {bytes : List UInt8}, decode none bytes = cs.map some →
    cs.flatMap String.utf8EncodeChar = bytes
  | [], [], _ => rfl
  | [], b :: rest, h => by
    have hne : lossy (b :: rest) = [] := by
      unfold lossy
      rw [h]
      rfl
    exact absurd hne (lossy_ne_nil b rest)
  | c :: cs, bytes, h => by
    obtain ⟨rest, rfl, hrest⟩ := head_of_decode h
    rw [List.flatMap_cons, flatMap_of_decode hrest]

/-- **A text has one spelling.** -/
theorem encode_of_fromUtf8 {bytes : List UInt8} {s : String} (h : fromUtf8 bytes = some s) : encode s = bytes :=
  flatMap_of_decode (decode_of_fromUtf8 h)

end Utf8

namespace Postcard

open Readers

/-! ## Readers -/

inductive ReadError
  | postcard (error : Error)
  | deserializeBadBool
  | deserializeBadOption
  deriving DecidableEq

/-- `Display`. -/
def ReadError.toMessage : ReadError → String
  | .postcard error => error.toMessage
  | .deserializeBadBool => "Found a bool that wasn't 0 or 1"
  | .deserializeBadOption => "Found an Option discriminant that wasn't 0 or 1"

abbrev Read (α : Type) := Reader ReadError UInt8 α

def Read.of {α : Type} (take : List UInt8 → Except Error (α × List UInt8)) : Read α := fun bytes =>
  (take bytes).mapError .postcard

/-- An unsigned integer of at most `k` bytes; a `k`-th byte is at most `last`. -/
def readUint (k last : Nat) : Read Nat := .of fun bytes => (Wire.takeVarint k last bytes).mapError .ofFault

def readUint16 : Read Nat := readUint 3 3

def readUint32 : Read Nat := readUint 5 15

def readUint64 : Read Nat := readUint 10 1

def readBytes : Read (List UInt8) := .of takeBytes

def readStr : Read String := .of takeStr

def readByte : Read UInt8
  | [] => .error (.postcard .deserializeUnexpectedEnd)
  | b :: bytes => .ok (b, bytes)

def readBool : Read Bool := do
  let b ← readByte
  if b = 0 then pure false else if b = 1 then pure true else throw .deserializeBadBool

def readOption {α : Type} (read : Read α) : Read (Option α) := do
  let b ← readByte
  if b = 0 then pure none
  else if b = 1 then do
    let a ← read
    pure (some a)
  else throw .deserializeBadOption

def readVec {α : Type} (read : Read α) : Read (List α) := do
  let n ← readUint64
  times read n

/-! ## Numbers -/

theorem spells_length_pos {k last v : Nat} {bytes : List UInt8} (h : Wire.Spells k last bytes v) :
    0 < bytes.length := by
  cases h with
  | last => exact Nat.one_pos
  | more => exact Nat.succ_pos _

/-- Seven bits a byte. -/
theorem spells_lt {k last v : Nat} {bytes : List UInt8} (h : Wire.Spells k last bytes v) :
    v < 2 ^ (7 * bytes.length) := by
  induction h with
  | last hb =>
    rw [List.length_singleton]
    omega
  | @more k last v b bytes hb _ ih =>
    have hbyte := b.toNat_lt
    rw [List.length_cons, Nat.mul_add, Nat.pow_add]
    omega

/-- The last byte that there may be bounds the number. -/
theorem spells_bound {last : Nat} (hlast : last ≤ 0x7f) : ∀ {k v : Nat} {bytes : List UInt8},
    Wire.Spells (k + 1) last bytes v → v < (last + 1) * 2 ^ (7 * k)
  | 0, _, _, .last hb hle => by
    have hbound := hle rfl
    omega
  | k + 1, _, _, .last hb hle => by
    have hpos : 1 ≤ (last + 1) * 2 ^ (7 * k) := Nat.mul_pos (Nat.succ_pos last) Nat.one_le_two_pow
    rw [Nat.mul_add, Nat.pow_add, ← Nat.mul_assoc]
    omega
  | k + 1, _, _, .more hb h => by
    rename_i v b bytes
    have hv := spells_bound hlast h
    have hbyte := b.toNat_lt
    rw [Nat.mul_add, Nat.pow_add, ← Nat.mul_assoc]
    omega

theorem readUint_eq_ok {k last v : Nat} {bytes rest : List UInt8} :
    readUint k last bytes = .ok (v, rest) ↔ ∃ spelled, bytes = spelled ++ rest ∧ Wire.Spells k last spelled v := by
  unfold readUint Read.of
  rw [Wire.mapError_eq_ok, Wire.mapError_eq_ok]
  exact Wire.takeVarint_eq_ok

/-- **The numbers that are read are those whose last byte is not too large**; none is spelt shorter than written. -/
theorem lawful_uint {k last : Nat} (hlast : last ≤ 0x7f) :
    Lawful (readUint (k + 1) last) putUint (· < (last + 1) * 2 ^ (7 * k)) where
  reads ha rest := readUint_eq_ok.mpr ⟨_, rfl, Wire.spells_putVarint hlast ha⟩
  takes s a rest hs := by
    obtain ⟨spelled, rfl, hspells⟩ := readUint_eq_ok.mp hs
    refine ⟨spelled, rfl, fun more => readUint_eq_ok.mpr ⟨spelled, rfl, hspells⟩, spells_bound hlast hspells, ?_⟩
    exact Wire.length_putVarint_le (spells_lt hspells) (spells_length_pos hspells)

theorem lawful_uint16 : Lawful readUint16 putUint (· < 2 ^ 16) := lawful_uint (by decide)

theorem lawful_uint32 : Lawful readUint32 putUint (· < 2 ^ 32) := lawful_uint (by decide)

theorem lawful_uint64 : Lawful readUint64 putUint (· < 2 ^ 64) := lawful_uint (by decide)

/-! ## Byte strings and texts -/

theorem readBytes_eq_ok {bytes run rest : List UInt8} :
    readBytes bytes = .ok (run, rest) ↔ ∃ len, bytes = len ++ run ++ rest ∧ Wire.Spells 10 1 len run.length := by
  unfold readBytes Read.of
  rw [Wire.mapError_eq_ok]
  exact takeBytes_eq_ok

theorem readStr_eq_ok {bytes rest : List UInt8} {s : String} : readStr bytes = .ok (s, rest) ↔
    ∃ len text, bytes = len ++ text ++ rest ∧ Wire.Spells 10 1 len text.length ∧ Utf8.fromUtf8 text = some s := by
  unfold readStr Read.of
  rw [Wire.mapError_eq_ok]
  exact takeStr_eq_ok

/-- Its length's shortest spelling makes a byte string no longer. -/
theorem length_putBytes_le {len run : List UInt8} (h : Wire.Spells 10 1 len run.length) :
    (putBytes run).length ≤ (len ++ run).length := by
  have hlen : (putUint run.length).length ≤ len.length :=
    Wire.length_putVarint_le (spells_lt h) (spells_length_pos h)
  rw [length_putBytes, List.length_append]
  omega

theorem lawful_bytes : Lawful readBytes putBytes (·.length < 2 ^ 64) where
  reads {run} ha rest := by
    have hspells : Wire.Spells 10 1 (putUint run.length) run.length := Wire.spells_putVarint (by decide) (by omega)
    exact readBytes_eq_ok.mpr ⟨putUint run.length, rfl, hspells⟩
  takes s run rest hs := by
    obtain ⟨len, rfl, hspells⟩ := readBytes_eq_ok.mp hs
    have hbound : run.length < 2 ^ 64 := spells_bound (k := 9) (by decide) hspells
    refine ⟨len ++ run, rfl, fun more => readBytes_eq_ok.mpr ⟨len, rfl, hspells⟩, hbound, ?_⟩
    exact length_putBytes_le hspells

theorem lawful_str : Lawful readStr putStr fun s => (Utf8.encode s).length < 2 ^ 64 where
  reads {s} ha rest := by
    have hspells : Wire.Spells 10 1 (putUint (Utf8.encode s).length) (Utf8.encode s).length :=
      Wire.spells_putVarint (by decide) (by omega)
    exact readStr_eq_ok.mpr ⟨_, Utf8.encode s, rfl, hspells, Utf8.fromUtf8_encode s⟩
  takes t s rest hs := by
    obtain ⟨len, text, rfl, hspells, hs⟩ := readStr_eq_ok.mp hs
    have htext : Utf8.encode s = text := Utf8.encode_of_fromUtf8 hs
    subst htext
    have hbound : (Utf8.encode s).length < 2 ^ 64 := spells_bound (k := 9) (by decide) hspells
    refine ⟨len ++ Utf8.encode s, rfl, fun more => readStr_eq_ok.mpr ⟨len, _, rfl, hspells, hs⟩, hbound, ?_⟩
    exact length_putBytes_le hspells

/-! ## Flags, options and sequences -/

theorem reads_byte (b : UInt8) : Reads readByte [b] b := fun _ => rfl

theorem takes_byte : Takes readByte fun b used => used = [b] := by
  intro s b rest hs
  cases s with
  | nil => cases hs
  | cons b' bytes =>
    cases hs
    exact ⟨[b], rfl, reads_byte b, rfl⟩

theorem lawful_bool : Lawful readBool putBool fun _ => True where
  reads {b} _ := by
    cases b with
    | false => exact (reads_byte 0).bind (.pure false)
    | true => exact (reads_byte 1).bind (.pure true)
  takes := by
    refine takes_byte.bind fun b used hused => ?_
    subst hused
    split
    · exact .pure ⟨trivial, Nat.le_refl _⟩
    · split
      · exact .pure ⟨trivial, Nat.le_refl _⟩
      · exact .throw _

section Nested

variable {α : Type} {read : Read α} {put : α → List UInt8} {R : α → Prop}

theorem lawful_option (h : Lawful read put R) : Lawful (readOption read) (putOption put) fun o => ∀ a ∈ o, R a where
  reads {o} ho := by
    cases o with
    | none => exact (reads_byte 0).bind (.pure none)
    | some a => exact (reads_byte 1).bind (h.reads (ho a rfl)).map
  takes := by
    refine takes_byte.bind fun b used hused => ?_
    subst hused
    split
    · exact .pure ⟨fun a ha => absurd ha (Option.not_mem_none a), Nat.le_refl _⟩
    · split
      · refine h.takes.bind fun a more ha => .pure ⟨fun a' ha' => ?_, ?_⟩
        · cases ha'
          exact ha.1
        · have hlen := ha.2
          simp only [putOption, List.length_append, List.length_cons, List.length_nil]
          omega
      · exact .throw _

theorem lawful_vec (h : Lawful read put R) :
    Lawful (readVec read) (putVec put) fun as => as.length < 2 ^ 64 ∧ ∀ a ∈ as, R a where
  reads has := (lawful_uint64.reads has.1).bind (.times fun a ha => h.reads (has.2 a ha))
  takes := by
    refine lawful_uint64.takes.bind fun n used hn => ((Takes.times h.takes n).mono fun as more has => ?_)
    obtain ⟨rfl, hall, hlen⟩ := has
    refine ⟨⟨hn.1, hall⟩, ?_⟩
    have hcount := hn.2
    unfold putVec
    rw [List.length_append, List.length_append]
    omega

end Nested

/-! ## Enums -/

section Enums

variable {α : Type} {f : Nat → Read α} {put : α → List UInt8} {R : α → Prop} {n : Nat} {a : α} {more : List UInt8}

theorem reads_enum (hn : n < 2 ^ 32) (h : Reads (f n) more a) : Reads (readUint32 >>= f) (putTag n ++ more) a :=
  (lawful_uint32.reads hn).bind h

/-- A variant without fields. -/
theorem reads_unit (hn : n < 2 ^ 32) (h : Reads (f n) [] a) : Reads (readUint32 >>= f) (putTag n) a := by
  have hreads := reads_enum hn h
  rwa [List.append_nil] at hreads

theorem takes_enum (h : ∀ n, Takes (f n) fun a more => R a ∧ (put a).length ≤ (putTag n).length + more.length) :
    Takes (readUint32 >>= f) fun a used => R a ∧ (put a).length ≤ used.length := by
  refine lawful_uint32.takes.bind fun n used hn => (h n).mono fun a more ha => ⟨ha.1, ?_⟩
  have htag : (putTag n).length ≤ used.length := hn.2
  have hlen := ha.2
  rw [List.length_append]
  omega

end Enums

end Postcard
