import CliPocket.Lib.Utf8
import Mathlib.Data.List.Count
import Mathlib.Data.List.Flatten

/-!
# UTF-8 text in pieces

A stream of bytes is divided, and its pieces are decoded by themselves.

- `next`: the decoder as a machine, one byte at a time (`decode_cons`);
- `Cuts`: a division inside a character; it costs a character that is no byte order mark (`plain_lossy_append_lt`),
  every other one nothing (`lossy_append`);
- `Clean`: a division without such a cut that costs one byte order mark exactly where the stream begins with one;
- `flatMap_text_iff`: **the pieces give the text of the stream if and only if they are clean.**
-/

namespace Utf8

/-- What the first byte of a character gives, and what is under way behind it. -/
def first (b : UInt8) : List (Option Char) × Option Pending :=
  match lead b.toNat with
  | .char c => ([some c], none)
  | .pending p => ([], some p)
  | .fault => ([none], none)

/-- The same of any byte. -/
def next : Option Pending → UInt8 → List (Option Char) × Option Pending
  | none, b => first b
  | some p, b =>
    if p.lower ≤ b.toNat ∧ b.toNat ≤ p.upper then
      let codePoint := p.codePoint * 0x40 + b.toNat % 0x40
      if p.needed = 1 then ([some (Char.ofNat codePoint)], none)
      else ([], some { needed := p.needed - 1, codePoint })
    else (none :: (first b).1, (first b).2)

theorem decode_cons (p : Option Pending) (b : UInt8) (rest : List UInt8) :
    decode p (b :: rest) = (next p b).1 ++ decode (next p b).2 rest := by
  cases p with
  | none =>
    conv_lhs => unfold decode
    unfold next first
    dsimp only
    cases lead b.toNat <;> rfl
  | some p =>
    conv_lhs => unfold decode
    unfold next first
    dsimp only
    split
    · split <;> rfl
    · cases lead b.toNat <;> rfl

theorem decode_char {b : UInt8} {c : Char} (h : lead b.toNat = .char c) (rest : List UInt8) :
    decode none (b :: rest) = some c :: decode none rest := by
  conv_lhs => unfold decode
  rw [h]

theorem decode_fault {b : UInt8} (h : lead b.toNat = .fault) (rest : List UInt8) :
    decode none (b :: rest) = none :: decode none rest := by
  conv_lhs => unfold decode
  rw [h]

/-- What is under way behind `bytes`. -/
def pendingAfter (p : Option Pending) (bytes : List UInt8) : Option Pending := bytes.foldl (fun p b => (next p b).2) p

/-- The characters and faults that `bytes` complete. -/
def complete : Option Pending → List UInt8 → List (Option Char)
  | _, [] => []
  | p, b :: rest => (next p b).1 ++ complete (next p b).2 rest

theorem decode_append (more : List UInt8) : ∀ (bytes : List UInt8) (p : Option Pending),
    decode p (bytes ++ more) = complete p bytes ++ decode (pendingAfter p bytes) more
  | [], _ => rfl
  | b :: rest, p => by
    rw [List.cons_append, decode_cons, decode_append more rest]
    exact (List.append_assoc _ _ _).symm

/-- A byte that goes on with the character. -/
def Pending.Continues (p : Pending) : List UInt8 → Prop
  | [] => False
  | b :: _ => p.lower ≤ b.toNat ∧ b.toNat ≤ p.upper

/-- A character that is not gone on with is a fault. -/
theorem decode_some {p : Pending} {bytes : List UInt8} (h : ¬p.Continues bytes) :
    decode (some p) bytes = none :: decode none bytes := by
  cases bytes with
  | nil => rfl
  | cons b rest =>
    have hnext : next (some p) b = (none :: (first b).1, (first b).2) := if_neg h
    rw [decode_cons, decode_cons, hnext]
    rfl

/-- Only bytes that begin no character go on with one. -/
def Pending.Ok (p : Pending) : Prop := 0x80 ≤ p.lower ∧ p.upper ≤ 0xbf

theorem lead_ok {n : Nat} {p : Pending} (h : lead n = .pending p) : p.Ok := by
  unfold lead at h
  split at h
  · cases h
  · split at h
    · cases h
      exact ⟨Nat.le_refl _, Nat.le_refl _⟩
    · split at h
      · cases h
        constructor <;> dsimp only <;> split <;> omega
      · split at h
        · cases h
          constructor <;> dsimp only <;> split <;> omega
        · cases h

theorem first_ok {b : UInt8} {q : Pending} (h : (first b).2 = some q) : q.Ok := by
  unfold first at h
  split at h
  · cases h
  · next hlead =>
    cases h
    exact lead_ok hlead
  · cases h

theorem next_ok {p : Option Pending} {b : UInt8} {q : Pending} (h : (next p b).2 = some q) : q.Ok := by
  cases p with
  | none => exact first_ok h
  | some p =>
    unfold next at h
    dsimp only at h
    split at h
    · split at h
      · cases h
      · cases h
        exact ⟨Nat.le_refl _, Nat.le_refl _⟩
    · exact first_ok h

theorem pendingAfter_ok {q : Pending} : ∀ {bytes : List UInt8} {p : Option Pending}, (∀ r, p = some r → r.Ok) →
    pendingAfter p bytes = some q → q.Ok
  | [], _, hp, h => hp q h
  | _ :: _, _, _, h => pendingAfter_ok (fun _ hr => next_ok hr) h

/-! ## Cuts -/

/-- `bytes` end inside a character that `more` go on with. -/
def Cuts (bytes more : List UInt8) : Prop := ∃ p, pendingAfter none bytes = some p ∧ p.Continues more

/-- The lossy decoder, byte order marks and all. -/
def lossy (bytes : List UInt8) : List Char := (decode none bytes).map (·.getD '\ufffd')

/-- Without a byte order mark at the front. -/
def dropMark (cs : List Char) : List Char := if cs.head? = some '\ufeff' then cs.tail else cs

theorem textDecoder_eq (bytes : List UInt8) : textDecoder bytes = String.ofList (dropMark (lossy bytes)) := by
  unfold textDecoder dropMark lossy
  split
  · next h =>
    rw [h]
    rfl
  · next h =>
    rw [if_neg]
    intro hhead
    obtain ⟨cs, hcs⟩ := List.head?_eq_some_iff.mp hhead
    exact h cs hcs

/-- Between characters a division costs nothing. -/
theorem decode_none_append {bytes more : List UInt8} (h : ¬Cuts bytes more) :
    decode none (bytes ++ more) = decode none bytes ++ decode none more := by
  have hself := decode_append [] bytes none
  rw [List.append_nil] at hself
  rw [decode_append, hself, List.append_assoc]
  congr 1
  cases hp : pendingAfter none bytes with
  | none => rfl
  | some p => exact decode_some fun hc => h ⟨p, hp, hc⟩

theorem lossy_append {bytes more : List UInt8} (h : ¬Cuts bytes more) : lossy (bytes ++ more) = lossy bytes ++ lossy more := by
  unfold lossy
  rw [decode_none_append h, List.map_append]

/-- The characters that are no byte order marks. -/
def plain (cs : List Char) : Nat := cs.countP (· != '\ufeff')

theorem plain_append (cs ds : List Char) : plain (cs ++ ds) = plain cs + plain ds := List.countP_append

theorem plain_mark (cs : List Char) : plain ('\ufeff' :: cs) = plain cs := List.countP_cons_of_neg (by decide)

theorem plain_fault (cs : List Char) : plain ('\ufffd' :: cs) = plain cs + 1 := List.countP_cons_of_pos (by decide)

theorem plain_dropMark (cs : List Char) : plain (dropMark cs) = plain cs := by
  unfold dropMark
  split
  · next h =>
    obtain ⟨ds, rfl⟩ := List.head?_eq_some_iff.mp h
    exact (plain_mark ds).symm
  · rfl

theorem plain_cons_le (c : Char) (cs : List Char) : plain (c :: cs) ≤ plain cs + 1 := by
  unfold plain
  rw [List.countP_cons]
  split <;> omega

/-- A byte that goes on with a character begins none. -/
theorem decode_continuation {p : Pending} {b : UInt8} {rest : List UInt8} (hok : p.Ok) (h : p.Continues (b :: rest)) :
    decode none (b :: rest) = none :: decode none rest := by
  have hlead : lead b.toNat = .fault := by
    obtain ⟨hlower, hupper⟩ := h
    obtain ⟨hlower', hupper'⟩ := hok
    unfold lead
    rw [if_neg (by omega), if_neg (by omega), if_neg (by omega), if_neg (by omega)]
  exact decode_fault hlead rest

/-- What is under way gives one character at most; where it is gone on with, a decoder that has forgotten it gives more. -/
theorem plain_decode_some : ∀ (bytes : List UInt8) {p : Pending}, p.Ok →
    plain ((decode (some p) bytes).map (·.getD '\ufffd')) ≤ plain (lossy bytes) + 1 ∧
      (p.Continues bytes → plain ((decode (some p) bytes).map (·.getD '\ufffd')) < plain (lossy bytes) + 1)
  | [], p, _ => ⟨Nat.le_refl _, fun h => h.elim⟩
  | b :: rest, p, hok => by
    by_cases hc : p.Continues (b :: rest)
    · have hforgot : plain (lossy (b :: rest)) = plain (lossy rest) + 1 := by
        unfold lossy
        rw [decode_continuation hok hc]
        exact plain_fault _
      have hlt : plain ((decode (some p) (b :: rest)).map (·.getD '\ufffd')) ≤ plain (lossy rest) + 1 := by
        by_cases hlast : p.needed = 1
        · rw [decode_last hc hlast, List.map_cons]
          exact plain_cons_le _ _
        · rw [decode_cont hc hlast]
          exact (plain_decode_some rest ⟨Nat.le_refl _, Nat.le_refl _⟩).1
      constructor
      · omega
      · intro _
        omega
    · rw [decode_some hc]
      exact ⟨Nat.le_of_eq (plain_fault _), fun h => absurd h hc⟩

/-- Inside a character a division costs. -/
theorem plain_lossy_append_lt {bytes more : List UInt8} (h : Cuts bytes more) :
    plain (lossy (bytes ++ more)) < plain (lossy bytes) + plain (lossy more) := by
  obtain ⟨p, hp, hc⟩ := h
  have hok := pendingAfter_ok (fun r hr => (by cases hr)) hp
  have hself := decode_append [] bytes none
  rw [List.append_nil, hp] at hself
  have hleft : lossy bytes = (complete none bytes).map (·.getD '\ufffd') ++ ['\ufffd'] := by
    unfold lossy
    rw [hself, List.map_append]
    rfl
  have hboth : lossy (bytes ++ more) =
      (complete none bytes).map (·.getD '\ufffd') ++ (decode (some p) more).map (·.getD '\ufffd') := by
    unfold lossy
    rw [decode_append, hp, List.map_append]
  have hlt := (plain_decode_some more hok).2 hc
  rw [hleft, hboth, plain_append, plain_append]
  have hone : plain ['\ufffd'] = 1 := rfl
  omega

/-! ## Byte order marks -/

/-- The bytes of a byte order mark. -/
def mark : List UInt8 := [0xef, 0xbb, 0xbf]

theorem lossy_mark (rest : List UInt8) : lossy (mark ++ rest) = '\ufeff' :: lossy rest := by
  have hdecode : decode none (mark ++ rest) = some '\ufeff' :: decode none rest := decode_utf8EncodeChar '\ufeff' rest
  unfold lossy
  rw [hdecode]
  rfl

theorem val_ofNat {n : Nat} (h : n.isValidChar) : (Char.ofNat n).val.toNat = n := by
  rw [Char.ofNat, dif_pos h]
  rfl

theorem eq_of_ofNat {n : Nat} (h : Char.ofNat n = '\ufeff') : n = 0xfeff := by
  have htoNat := congrArg Char.toNat h
  by_cases hvalid : n.isValidChar
  · exact (val_ofNat hvalid).symm.trans htoNat
  · rw [Char.ofNat, dif_neg hvalid] at htoNat
    cases htoNat

/-- A character that is under way is completed byte by byte. -/
theorem continues_of_decode {p : Pending} {bytes : List UInt8} {c : Char} {out : List (Option Char)}
    (h : decode (some p) bytes = some c :: out) : ∃ b rest, bytes = b :: rest ∧ (p.lower ≤ b.toNat ∧ b.toNat ≤ p.upper) ∧
      if p.needed = 1 then Char.ofNat (p.codePoint * 0x40 + b.toNat % 0x40) = c
      else decode (some { needed := p.needed - 1, codePoint := p.codePoint * 0x40 + b.toNat % 0x40 }) rest =
        some c :: out := by
  by_cases hc : p.Continues bytes
  · cases bytes with
    | nil => exact hc.elim
    | cons b rest =>
      refine ⟨b, rest, rfl, hc, ?_⟩
      split
      · next hlast =>
        rw [decode_last hc hlast] at h
        cases h
        rfl
      · next hmore =>
        rwa [decode_cont hc hmore] at h
  · rw [decode_some hc] at h
    cases h

theorem eq_of_toNat {b : UInt8} {n : Nat} (h : b.toNat = n) : b = UInt8.ofNat n := by
  rw [← h]
  exact UInt8.ofNat_toNat.symm

/-- The characters of two, three and four bytes. -/
theorem lead_pending {n : Nat} {p : Pending} (h : lead n = .pending p) :
    (p.needed = 1 ∧ 2 ≤ p.codePoint ∧ p.codePoint < 0x20) ∨
      (p.needed = 2 ∧ 0xe0 ≤ n ∧ n ≤ 0xef ∧ p.codePoint = n % 0x10 ∧ (p.codePoint = 0 → 0xa0 ≤ p.lower) ∧
        (p.codePoint = 0xd → p.upper ≤ 0x9f)) ∨
      p.needed = 3 ∧ p.codePoint ≤ 4 ∧ (p.codePoint = 0 → 0x90 ≤ p.lower) ∧ (p.codePoint = 4 → p.upper ≤ 0x8f) := by
  unfold lead at h
  split at h
  · cases h
  · split at h
    · next hn =>
      cases h
      refine .inl ⟨rfl, ?_, Nat.mod_lt _ (by decide)⟩
      dsimp only
      omega
    · split at h
      · next hn =>
        cases h
        refine .inr (.inl ⟨rfl, hn.1, hn.2, rfl, fun hzero => ?_, fun hsurrogate => ?_⟩)
        · dsimp only at hzero ⊢
          exact Nat.le_of_eq (if_pos (by omega)).symm
        · dsimp only at hsurrogate ⊢
          exact Nat.le_of_eq (if_pos (by omega))
      · split at h
        · next hn =>
          cases h
          refine .inr (.inr ⟨rfl, ?_, fun hzero => ?_, fun hlast => ?_⟩)
          · dsimp only
            omega
          · dsimp only at hzero ⊢
            exact Nat.le_of_eq (if_pos (by omega)).symm
          · dsimp only at hlast ⊢
            exact Nat.le_of_eq (if_pos (by omega))
        · cases h

/-- Only its own bytes are read as a byte order mark. -/
theorem mark_of_decode {b : UInt8} {rest : List UInt8} {out : List (Option Char)}
    (h : decode none (b :: rest) = some '\ufeff' :: out) : ∃ more, b :: rest = mark ++ more := by
  cases hlead : lead b.toNat with
  | char c =>
    rw [decode_char hlead] at h
    unfold lead at hlead
    split at hlead
    · cases h
      have hb := eq_of_ofNat (Lead.char.inj hlead)
      omega
    · split at hlead
      · cases hlead
      · split at hlead
        · cases hlead
        · split at hlead <;> cases hlead
  | fault =>
    rw [decode_fault hlead] at h
    cases h
  | pending p =>
    have hok := lead_ok hlead
    rw [decode_lead hlead] at h
    obtain ⟨b₁, rest₁, rfl, hb₁, h⟩ := continues_of_decode h
    obtain ⟨hlower, hupper⟩ := hok
    rcases lead_pending hlead with ⟨hneeded, -, hcode⟩ | ⟨hneeded, hb, hb', hcode, -, -⟩ | ⟨hneeded, -, hfour, -⟩
    · rw [if_pos hneeded] at h
      have hvalue := eq_of_ofNat h
      omega
    · rw [if_neg (by omega)] at h
      obtain ⟨b₂, rest₂, rfl, hb₂, h⟩ := continues_of_decode h
      dsimp only at hb₂ h
      rw [if_pos (by omega)] at h
      have hvalue := eq_of_ofNat h
      rw [hcode] at hvalue
      refine ⟨rest₂, ?_⟩
      rw [eq_of_toNat (b := b) (n := 0xef) (by omega), eq_of_toNat (b := b₁) (n := 0xbb) (by omega),
        eq_of_toNat (b := b₂) (n := 0xbf) (by omega)]
      rfl
    · rw [if_neg (by omega)] at h
      obtain ⟨b₂, rest₂, rfl, hb₂, h⟩ := continues_of_decode h
      dsimp only at hb₂ h
      rw [if_neg (by omega)] at h
      obtain ⟨b₃, rest₃, rfl, hb₃, h⟩ := continues_of_decode h
      dsimp only at hb₃ h
      rw [if_pos (by omega)] at h
      have hvalue := eq_of_ofNat h
      omega

theorem mark_of_head {bytes : List UInt8} (h : (lossy bytes).head? = some '\ufeff') : ∃ rest, bytes = mark ++ rest := by
  unfold lossy at h
  cases hdecode : decode none bytes with
  | nil =>
    rw [hdecode] at h
    cases h
  | cons item out =>
    rw [hdecode] at h
    cases item with
    | none => cases h
    | some c =>
      cases h
      cases bytes with
      | nil => cases hdecode
      | cons b rest => exact mark_of_decode hdecode

/-- What is under way comes out as something. -/
theorem decode_some_ne_nil : ∀ (bytes : List UInt8) (p : Pending), decode (some p) bytes ≠ []
  | [], _ => nofun
  | b :: rest, p => by
    by_cases hc : p.Continues (b :: rest)
    · by_cases hlast : p.needed = 1
      · rw [decode_last hc hlast]
        nofun
      · rw [decode_cont hc hlast]
        exact decode_some_ne_nil rest _
    · rw [decode_some hc]
      nofun

theorem lossy_ne_nil (b : UInt8) (rest : List UInt8) : lossy (b :: rest) ≠ [] := by
  unfold lossy
  intro h
  have hnil := List.map_eq_nil_iff.mp h
  cases hlead : lead b.toNat with
  | pending p =>
    rw [decode_lead hlead] at hnil
    exact decode_some_ne_nil rest p hnil
  | char c =>
    rw [decode_char hlead] at hnil
    cases hnil
  | fault =>
    rw [decode_fault hlead] at hnil
    cases hnil

/-- Only its own bytes are read as byte order marks. -/
theorem eq_replicate_of_forall : ∀ {n : Nat} {bytes : List UInt8}, (lossy bytes).length = n →
    (∀ c ∈ lossy bytes, c = '\ufeff') → bytes = (List.replicate n mark).flatten
  | 0, bytes, hn, _ => by
    cases bytes with
    | nil => rfl
    | cons b rest => exact absurd (List.eq_nil_of_length_eq_zero hn) (lossy_ne_nil b rest)
  | n + 1, bytes, hn, h => by
    cases hlossy : lossy bytes with
    | nil =>
      rw [hlossy] at hn
      cases hn
    | cons c cs =>
      rw [hlossy] at hn h
      cases h c List.mem_cons_self
      obtain ⟨rest, rfl⟩ := @mark_of_head bytes (by rw [hlossy]; rfl)
      rw [lossy_mark] at hlossy
      cases hlossy
      rw [eq_replicate_of_forall (Nat.succ.inj hn) fun d hd => h d (List.mem_cons_of_mem _ hd)]
      rfl

/-! ## Pieces -/

/-- A piece of a stream, decoded by itself; `kept`: a byte order mark at its front stays. -/
structure Piece where
  kept : Bool
  bytes : List UInt8

def Piece.text (p : Piece) : List Char := if p.kept then lossy p.bytes else dropMark (lossy p.bytes)

/-- No piece ends inside a character. -/
def Whole : List (List UInt8) → Prop
  | [] => True
  | bytes :: rest => ¬Cuts bytes rest.flatten ∧ Whole rest

theorem lossy_flatten : ∀ {pieces : List (List UInt8)}, Whole pieces → lossy pieces.flatten = pieces.flatMap lossy
  | [], _ => rfl
  | bytes :: rest, h => by
    rw [List.flatten_cons, lossy_append h.1, lossy_flatten h.2]
    rfl

theorem plain_lossy_append_le (bytes more : List UInt8) :
    plain (lossy (bytes ++ more)) ≤ plain (lossy bytes) + plain (lossy more) := by
  by_cases h : Cuts bytes more
  · exact Nat.le_of_lt (plain_lossy_append_lt h)
  · exact Nat.le_of_eq (by rw [lossy_append h, plain_append])

theorem plain_flatten_le : ∀ pieces : List (List UInt8), plain (lossy pieces.flatten) ≤ plain (pieces.flatMap lossy)
  | [] => Nat.le_refl _
  | bytes :: rest => by
    have hrest := plain_flatten_le rest
    have hbytes := plain_lossy_append_le bytes rest.flatten
    rw [List.flatten_cons, List.flatMap_cons, plain_append]
    omega

theorem plain_flatten_lt : ∀ {pieces : List (List UInt8)}, ¬Whole pieces →
    plain (lossy pieces.flatten) < plain (pieces.flatMap lossy)
  | [], h => absurd trivial h
  | bytes :: rest, h => by
    rw [List.flatten_cons, List.flatMap_cons, plain_append]
    by_cases hc : Cuts bytes rest.flatten
    · have hrest := plain_flatten_le rest
      have hbytes := plain_lossy_append_lt hc
      omega
    · have hrest := plain_flatten_lt fun hw => h ⟨hc, hw⟩
      have hbytes := plain_lossy_append_le bytes rest.flatten
      omega

/-- The first pieces of a division. -/
theorem Whole.left {more : List (List UInt8)} : ∀ {pieces : List (List UInt8)}, Whole (pieces ++ more) → Whole pieces
  | [], _ => trivial
  | bytes :: rest, h => by
    refine ⟨?_, h.2.left⟩
    rintro ⟨p, hp, hc⟩
    refine h.1 ⟨p, hp, ?_⟩
    show p.Continues (rest ++ more).flatten
    rw [List.flatten_append]
    cases hrest : rest.flatten with
    | nil =>
      rw [hrest] at hc
      exact hc.elim
    | cons b tail =>
      rw [hrest] at hc
      exact hc

/-- A piece that loses a byte order mark. -/
def Piece.Drops (p : Piece) : Prop := p.kept = false ∧ mark <+: p.bytes

/-- One byte order mark is lost where the stream begins with one, and it is one of those at its front. -/
def OneMark (pieces : List Piece) : Prop :=
  (¬mark <+: pieces.flatMap Piece.bytes ∧ ∀ p ∈ pieces, ¬p.Drops) ∨
    ∃ before p behind, pieces = before ++ p :: behind ∧ p.Drops ∧ (∀ q ∈ before ++ behind, ¬q.Drops) ∧
      ∃ n, before.flatMap Piece.bytes = (List.replicate n mark).flatten

/-- A division that can not be seen in the text. -/
structure Clean (pieces : List Piece) : Prop where
  whole : Whole (pieces.map Piece.bytes)
  mark : OneMark pieces

theorem head_iff {bytes : List UInt8} : (lossy bytes).head? = some '\ufeff' ↔ mark <+: bytes := by
  constructor
  · intro h
    obtain ⟨rest, rfl⟩ := mark_of_head h
    exact List.prefix_append _ _
  · rintro ⟨rest, rfl⟩
    rw [lossy_mark]
    rfl

theorem text_of_drops {p : Piece} (h : p.Drops) : lossy p.bytes = '\ufeff' :: p.text := by
  obtain ⟨hkept, rest, hrest⟩ := h
  unfold Piece.text dropMark
  rw [← hrest, lossy_mark, hkept]
  rfl

theorem text_of_not_drops {p : Piece} (h : ¬p.Drops) : p.text = lossy p.bytes := by
  unfold Piece.text dropMark
  split
  · rfl
  · next hkept =>
    rw [if_neg]
    intro hhead
    exact h ⟨by simpa using hkept, head_iff.mp hhead⟩

theorem flatMap_text_of_forall : ∀ {pieces : List Piece}, (∀ p ∈ pieces, ¬p.Drops) →
    pieces.flatMap Piece.text = pieces.flatMap (lossy ·.bytes)
  | [], _ => rfl
  | p :: rest, h => by
    rw [List.flatMap_cons, List.flatMap_cons, text_of_not_drops (h p List.mem_cons_self),
      flatMap_text_of_forall fun q hq => h q (List.mem_cons_of_mem _ hq)]

theorem plain_flatMap_text : ∀ pieces : List Piece,
    plain (pieces.flatMap Piece.text) = plain (pieces.flatMap (lossy ·.bytes))
  | [] => rfl
  | p :: rest => by
    rw [List.flatMap_cons, List.flatMap_cons, plain_append, plain_append, plain_flatMap_text rest]
    congr 1
    unfold Piece.text
    split
    · rfl
    · exact plain_dropMark _

/-- Each mark that is lost is a character less. -/
theorem length_flatMap_text : ∀ pieces : List Piece,
    (pieces.flatMap Piece.text).length ≤ (pieces.flatMap (lossy ·.bytes)).length ∧
      ((pieces.flatMap Piece.text).length = (pieces.flatMap (lossy ·.bytes)).length → ∀ p ∈ pieces, ¬p.Drops)
  | [] => ⟨Nat.le_refl _, fun _ _ h => (by cases h)⟩
  | p :: rest => by
    obtain ⟨hle, hnone⟩ := length_flatMap_text rest
    rw [List.flatMap_cons, List.flatMap_cons, List.length_append, List.length_append]
    by_cases hp : p.Drops
    · rw [text_of_drops hp, List.length_cons]
      constructor
      · omega
      · intro h
        omega
    · rw [text_of_not_drops hp]
      refine ⟨by omega, fun h q hq => ?_⟩
      rcases List.mem_cons.mp hq with rfl | hq
      · exact hp
      · exact hnone (by omega) q hq

/-- A list that is shifted into itself. -/
theorem eq_of_cons_eq_concat : ∀ {cs : List Char} {d c : Char}, d :: cs = cs ++ [c] → ∀ e ∈ d :: cs, e = c
  | [], d, c, h, e, he => by
    cases h
    exact List.mem_singleton.mp he
  | d' :: cs, d, c, h, e, he => by
    obtain ⟨rfl, hrest⟩ := List.cons.inj h
    have hall := eq_of_cons_eq_concat hrest
    rcases List.mem_cons.mp he with rfl | he
    · exact hall _ List.mem_cons_self
    · exact hall e he

/-- A character that may be taken from the front instead. -/
theorem eq_of_append_eq_tail {cs ds : List Char} {c : Char} (h : cs ++ ds = (cs ++ c :: ds).tail) : ∀ d ∈ cs, d = c := by
  cases cs with
  | nil => simp
  | cons d cs =>
    have htail : d :: cs ++ ds = cs ++ [c] ++ ds := by
      rw [List.append_assoc]
      exact h
    exact eq_of_cons_eq_concat (List.append_cancel_right htail)

theorem flatMap_lossy (pieces : List Piece) (h : Whole (pieces.map Piece.bytes)) :
    lossy (pieces.flatMap Piece.bytes) = pieces.flatMap (lossy ·.bytes) := by
  have hflatten := lossy_flatten h
  rw [List.flatMap_map] at hflatten
  exact hflatten

/-- Marks are read as marks. -/
theorem lossy_replicate : ∀ n : Nat, lossy (List.replicate n mark).flatten = List.replicate n '\ufeff'
  | 0 => rfl
  | n + 1 => by
    rw [List.replicate_succ, List.flatten_cons, lossy_mark, lossy_replicate n]
    rfl

/-- A mark behind marks may be taken from the front. -/
theorem dropMark_replicate_append (n : Nat) (cs : List Char) :
    dropMark (List.replicate n '\ufeff' ++ '\ufeff' :: cs) = List.replicate n '\ufeff' ++ cs := by
  have hfront : List.replicate n '\ufeff' ++ '\ufeff' :: cs = '\ufeff' :: (List.replicate n '\ufeff' ++ cs) := by
    rw [← List.cons_append, ← List.replicate_succ, List.replicate_succ', List.append_assoc]
    rfl
  rw [hfront]
  rfl

/-- The text of pieces of which one loses a mark. -/
theorem flatMap_text_of_drops {before behind : List Piece} {p : Piece} (hp : p.Drops)
    (hothers : ∀ q ∈ before ++ behind, ¬q.Drops) :
    (before ++ p :: behind).flatMap Piece.text =
      before.flatMap (lossy ·.bytes) ++ (p.text ++ behind.flatMap (lossy ·.bytes)) ∧
    (before ++ p :: behind).flatMap (lossy ·.bytes) =
      before.flatMap (lossy ·.bytes) ++ '\ufeff' :: (p.text ++ behind.flatMap (lossy ·.bytes)) := by
  rw [List.flatMap_append, List.flatMap_append, List.flatMap_cons, List.flatMap_cons, text_of_drops hp]
  rw [flatMap_text_of_forall fun q hq => hothers q (List.mem_append_left _ hq),
    flatMap_text_of_forall fun q hq => hothers q (List.mem_append_right _ hq)]
  exact ⟨rfl, rfl⟩

/-- Clean pieces give the text of the stream. -/
theorem Clean.flatMap_text {pieces : List Piece} (h : Clean pieces) :
    pieces.flatMap Piece.text = dropMark (lossy (pieces.flatMap Piece.bytes)) := by
  rcases h.mark with ⟨hstream, hnone⟩ | ⟨before, p, behind, rfl, hp, hothers, n, hmarks⟩
  · unfold dropMark
    rw [if_neg fun hhead => hstream (head_iff.mp hhead), flatMap_text_of_forall hnone, flatMap_lossy pieces h.whole]
  · obtain ⟨htext, hlossy⟩ := flatMap_text_of_drops hp hothers
    have hbefore : before.flatMap (lossy ·.bytes) = List.replicate n '\ufeff' := by
      have hwhole := h.whole
      rw [List.map_append] at hwhole
      rw [← flatMap_lossy before hwhole.left, hmarks, lossy_replicate]
    rw [htext, flatMap_lossy _ h.whole, hlossy, hbefore, dropMark_replicate_append]

/-- The first piece that loses a mark. -/
theorem exists_first : ∀ {pieces : List Piece}, (∃ p ∈ pieces, p.Drops) →
    ∃ before p behind, pieces = before ++ p :: behind ∧ p.Drops ∧ ∀ q ∈ before, ¬q.Drops
  | [], ⟨_, hp, _⟩ => (by cases hp)
  | p :: rest, ⟨q, hq, hdrops⟩ => by
    by_cases hp : p.Drops
    · exact ⟨[], p, rest, rfl, hp, fun _ h => (by cases h)⟩
    · rcases List.mem_cons.mp hq with rfl | hq
      · exact absurd hdrops hp
      · obtain ⟨before, r, behind, rfl, hr, hbefore⟩ := exists_first ⟨q, hq, hdrops⟩
        refine ⟨p :: before, r, behind, rfl, hr, fun x hx => ?_⟩
        rcases List.mem_cons.mp hx with rfl | hx
        · exact hp
        · exact hbefore x hx

theorem length_dropMark (cs : List Char) : cs.length ≤ (dropMark cs).length + 1 ∧
    ((dropMark cs).length < cs.length → dropMark cs = cs.tail) := by
  unfold dropMark
  split
  · next h =>
    obtain ⟨ds, rfl⟩ := List.head?_eq_some_iff.mp h
    exact ⟨Nat.le_refl _, fun _ => rfl⟩
  · exact ⟨Nat.le_succ _, fun h => absurd h (Nat.lt_irrefl _)⟩

/-- Pieces that give the text of the stream are clean. -/
theorem Clean.of_flatMap_text {pieces : List Piece}
    (h : pieces.flatMap Piece.text = dropMark (lossy (pieces.flatMap Piece.bytes))) : Clean pieces := by
  have hwhole : Whole (pieces.map Piece.bytes) := by
    by_contra hcut
    have hlt := plain_flatten_lt hcut
    have hplain := congrArg plain h
    rw [plain_flatMap_text, plain_dropMark] at hplain
    rw [List.flatMap_map] at hlt
    exact Nat.lt_irrefl _ (hplain ▸ hlt)
  refine ⟨hwhole, ?_⟩
  rw [flatMap_lossy pieces hwhole] at h
  by_cases hdrops : ∃ p ∈ pieces, p.Drops
  · right
    obtain ⟨before, p, behind, rfl, hp, hbefore⟩ := exists_first hdrops
    have hlossy : (before ++ p :: behind).flatMap (lossy ·.bytes) =
        before.flatMap (lossy ·.bytes) ++ '\ufeff' :: (p.text ++ behind.flatMap (lossy ·.bytes)) := by
      rw [List.flatMap_append, List.flatMap_cons, text_of_drops hp]
      rfl
    rw [hlossy, List.flatMap_append, List.flatMap_cons, flatMap_text_of_forall hbefore] at h
    obtain ⟨hlong, htail⟩ := length_dropMark
      (before.flatMap (lossy ·.bytes) ++ '\ufeff' :: (p.text ++ behind.flatMap (lossy ·.bytes)))
    obtain ⟨hshort, hnone⟩ := length_flatMap_text behind
    have hlength := congrArg List.length h
    simp only [List.length_append, List.length_cons] at hlength hlong
    have hbehind := hnone (by omega)
    rw [flatMap_text_of_forall hbehind, htail (by simp only [List.length_append, List.length_cons]; omega)] at h
    have hmarks := eq_of_append_eq_tail h
    have hothers : ∀ q ∈ before ++ behind, ¬q.Drops := fun q hq => (List.mem_append.mp hq).elim (hbefore q) (hbehind q)
    rw [List.map_append] at hwhole
    rw [← flatMap_lossy before hwhole.left] at hmarks
    exact ⟨before, p, behind, rfl, hp, hothers, _, eq_replicate_of_forall rfl hmarks⟩
  · left
    have hnone : ∀ p ∈ pieces, ¬p.Drops := fun p hp hd => hdrops ⟨p, hp, hd⟩
    refine ⟨fun hmark => ?_, hnone⟩
    rw [flatMap_text_of_forall hnone] at h
    have hhead := head_iff.mpr hmark
    rw [flatMap_lossy pieces hwhole] at hhead
    obtain ⟨cs, hcs⟩ := List.head?_eq_some_iff.mp hhead
    rw [hcs] at h
    have hlength := congrArg List.length h
    simp [dropMark] at hlength

/-- **Pieces give the text of the stream if and only if they are clean.** -/
theorem flatMap_text_iff (pieces : List Piece) :
    pieces.flatMap Piece.text = dropMark (lossy (pieces.flatMap Piece.bytes)) ↔ Clean pieces :=
  ⟨Clean.of_flatMap_text, Clean.flatMap_text⟩

/-! ## Lengths -/

/-- The bytes of what is read. -/
def weight (items : List (Option Char)) : Nat := (items.map fun item => (item.getD '\ufffd').utf8Size).sum

theorem weight_fault (items : List (Option Char)) : weight (none :: items) = 3 + weight items := rfl

theorem weight_char (c : Char) (items : List (Option Char)) : weight (some c :: items) = c.utf8Size + weight items := rfl

theorem length_flatMap_encode : ∀ cs : List Char, (cs.flatMap String.utf8EncodeChar).length = (cs.map Char.utf8Size).sum
  | [] => rfl
  | c :: cs => by
    rw [List.flatMap_cons, List.length_append, String.length_utf8EncodeChar, length_flatMap_encode cs]
    rfl

theorem length_encode_lossy (bytes : List UInt8) :
    (encode (String.ofList (lossy bytes))).length = weight (decode none bytes) := by
  unfold encode lossy weight
  rw [String.toList_ofList, length_flatMap_encode, List.map_map]
  rfl

theorem utf8Size_ofNat {n : Nat} (h : n.isValidChar) :
    (0x80 ≤ n → 2 ≤ (Char.ofNat n).utf8Size) ∧ (0x800 ≤ n → 3 ≤ (Char.ofNat n).utf8Size) ∧
      (0x10000 ≤ n → 4 ≤ (Char.ofNat n).utf8Size) := by
  rw [← String.length_utf8EncodeChar]
  unfold String.utf8EncodeChar
  rw [val_ofNat h]
  dsimp only
  refine ⟨fun hn => ?_, fun hn => ?_, fun hn => ?_⟩
  · rw [if_neg (by omega)]
    split
    · exact Nat.le_refl _
    · split <;> simp
  · rw [if_neg (by omega), if_neg (by omega)]
    split <;> simp
  · rw [if_neg (by omega), if_neg (by omega), if_neg (by omega)]
    simp

/-- What is under way comes to as many bytes at least as it has taken. -/
theorem le_weight_some {p : Pending} {bytes : List UInt8} {taken : Nat} (htaken : taken ≤ 3)
    (hrest : bytes.length ≤ weight (decode none bytes))
    (hgo : ∀ b rest, bytes = b :: rest → p.lower ≤ b.toNat ∧ b.toNat ≤ p.upper →
      rest.length + (taken + 1) ≤ weight (decode (some p) bytes)) :
    bytes.length + taken ≤ weight (decode (some p) bytes) := by
  by_cases hc : p.Continues bytes
  · cases bytes with
    | nil => exact hc.elim
    | cons b rest =>
      have hle := hgo b rest rfl hc
      rw [List.length_cons]
      omega
  · rw [decode_some hc, weight_fault]
    omega

/-- The last byte of a character. -/
theorem le_weight_last {p : Pending} {b : UInt8} {rest : List UInt8} {taken : Nat} (hlast : p.needed = 1)
    (h : p.lower ≤ b.toNat ∧ b.toNat ≤ p.upper) (hrest : rest.length ≤ weight (decode none rest))
    (hsize : taken + 1 ≤ (Char.ofNat (p.codePoint * 0x40 + b.toNat % 0x40)).utf8Size) :
    rest.length + (taken + 1) ≤ weight (decode (some p) (b :: rest)) := by
  rw [decode_last h hlast, weight_char]
  omega

theorem length_le_weight : ∀ {n : Nat} {bytes : List UInt8}, bytes.length ≤ n → bytes.length ≤ weight (decode none bytes)
  | _, [], _ => Nat.zero_le _
  | 0, _ :: _, h => by simp at h
  | n + 1, b :: rest, h => by
    have hn : rest.length ≤ n := by simpa using h
    have hrest := length_le_weight hn
    rw [List.length_cons]
    cases hlead : lead b.toNat with
    | char c =>
      have hsize := Char.utf8Size_pos c
      rw [decode_char hlead, weight_char]
      omega
    | fault =>
      rw [decode_fault hlead, weight_fault]
      omega
    | pending p =>
      obtain ⟨hlower, hupper⟩ := lead_ok hlead
      rw [decode_lead hlead]
      rcases lead_pending hlead with ⟨hneeded, hcode, hcode'⟩ | ⟨hneeded, -, hb', hcode, hzero, hsurrogate⟩ |
        ⟨hneeded, hcode, hzero, hfour⟩
      · apply le_weight_some (by omega) hrest
        rintro b₁ rest₁ rfl hb₁
        have hrest₁ : rest₁.length ≤ weight (decode none rest₁) := length_le_weight (n := n) (by simp at hn; omega)
        have hvalid : (p.codePoint * 0x40 + b₁.toNat % 0x40).isValidChar := .inl (by omega)
        exact le_weight_last hneeded hb₁ hrest₁ ((utf8Size_ofNat hvalid).1 (by omega))
      · apply le_weight_some (by omega) hrest
        rintro b₁ rest₁ rfl hb₁
        have hrest₁ : rest₁.length ≤ weight (decode none rest₁) := length_le_weight (n := n) (by simp at hn; omega)
        rw [decode_cont hb₁ (by omega)]
        apply le_weight_some (by omega) hrest₁
        rintro b₂ rest₂ rfl hb₂
        have hrest₂ : rest₂.length ≤ weight (decode none rest₂) := length_le_weight (n := n) (by simp at hn; omega)
        dsimp only at hb₂
        have hvalid : ((p.codePoint * 0x40 + b₁.toNat % 0x40) * 0x40 + b₂.toNat % 0x40).isValidChar := by
          by_cases hlow : p.codePoint < 0xd
          · exact .inl (by omega)
          · by_cases heq : p.codePoint = 0xd
            · have hbound := hsurrogate heq
              exact .inl (by omega)
            · exact .inr ⟨by omega, by omega⟩
        refine le_weight_last (by dsimp only; omega) hb₂ hrest₂ ((utf8Size_ofNat hvalid).2.1 ?_)
        by_cases heq : p.codePoint = 0
        · have hbound := hzero heq
          omega
        · omega
      · apply le_weight_some (by omega) hrest
        rintro b₁ rest₁ rfl hb₁
        have hrest₁ : rest₁.length ≤ weight (decode none rest₁) := length_le_weight (n := n) (by simp at hn; omega)
        rw [decode_cont hb₁ (by omega)]
        apply le_weight_some (by omega) hrest₁
        rintro b₂ rest₂ rfl hb₂
        have hrest₂ : rest₂.length ≤ weight (decode none rest₂) := length_le_weight (n := n) (by simp at hn; omega)
        dsimp only at hb₂
        rw [decode_cont hb₂ (by dsimp only; omega)]
        apply le_weight_some (by omega) hrest₂
        rintro b₃ rest₃ rfl hb₃
        have hrest₃ : rest₃.length ≤ weight (decode none rest₃) := length_le_weight (n := n) (by simp at hn; omega)
        dsimp only at hb₃
        have hlow : 0x10000 ≤ ((p.codePoint * 0x40 + b₁.toNat % 0x40) * 0x40 + b₂.toNat % 0x40) * 0x40 + b₃.toNat % 0x40 := by
          by_cases heq : p.codePoint = 0
          · have hbound := hzero heq
            omega
          · omega
        have hvalid : (((p.codePoint * 0x40 + b₁.toNat % 0x40) * 0x40 + b₂.toNat % 0x40) * 0x40 +
            b₃.toNat % 0x40).isValidChar := by
          refine .inr ⟨by omega, ?_⟩
          by_cases heq : p.codePoint = 4
          · have hbound := hfour heq
            omega
          · omega
        exact le_weight_last (by dsimp only; omega) hb₃ hrest₃ ((utf8Size_ofNat hvalid).2.2 hlow)

/-- **Reading bytes and writing them again does not make them fewer.** -/
theorem length_le_encode_lossy (bytes : List UInt8) : bytes.length ≤ (encode (String.ofList (lossy bytes))).length := by
  rw [length_encode_lossy]
  exact length_le_weight (Nat.le_refl _)

/-! ## Bytes of a text -/

/-- Some text is written as `bytes`. -/
def IsText (bytes : List UInt8) : Prop := ∃ cs : List Char, bytes = cs.flatMap String.utf8EncodeChar

theorem IsText.append {bytes more : List UInt8} (h : IsText bytes) (h' : IsText more) : IsText (bytes ++ more) := by
  obtain ⟨cs, rfl⟩ := h
  obtain ⟨ds, rfl⟩ := h'
  exact ⟨cs ++ ds, (List.flatMap_append ..).symm⟩

theorem isText_nil : IsText [] := ⟨[], rfl⟩

theorem IsText.flatten : ∀ {pieces : List (List UInt8)}, (∀ piece ∈ pieces, IsText piece) → IsText pieces.flatten
  | [], _ => isText_nil
  | _ :: _, h =>
    (h _ List.mem_cons_self).append (IsText.flatten fun piece hpiece => h piece (List.mem_cons_of_mem _ hpiece))

theorem isText_byte {b : UInt8} (h : b.toNat ≤ 0x7f) : IsText [b] := by
  refine ⟨[Char.ofNat b.toNat], ?_⟩
  have hvalid : b.toNat.isValidChar := .inl (by omega)
  rw [List.flatMap_cons, List.flatMap_nil, List.append_nil]
  unfold String.utf8EncodeChar
  rw [val_ofNat hvalid]
  dsimp only
  rw [if_pos h]
  exact congrArg (· :: []) (eq_of_toNat rfl)

theorem isText_of_ascii : ∀ {bytes : List UInt8}, (∀ b ∈ bytes, b.toNat ≤ 0x7f) → IsText bytes
  | [], _ => isText_nil
  | _ :: _, h =>
    (isText_byte (h _ List.mem_cons_self)).append (isText_of_ascii fun b hb => h b (List.mem_cons_of_mem _ hb))

theorem decode_flatMap_append (rest : List UInt8) : ∀ cs : List Char,
    decode none (cs.flatMap String.utf8EncodeChar ++ rest) = cs.map some ++ decode none rest
  | [] => rfl
  | c :: cs => by
    rw [List.flatMap_cons, List.append_assoc, decode_utf8EncodeChar, decode_flatMap_append rest cs]
    rfl

/-- Behind a text the decoder begins anew. -/
theorem IsText.lossy_append {bytes : List UInt8} (h : IsText bytes) (rest : List UInt8) :
    lossy (bytes ++ rest) = lossy bytes ++ lossy rest := by
  obtain ⟨cs, rfl⟩ := h
  unfold lossy
  rw [decode_flatMap_append, decode_flatMap, List.map_append]

theorem IsText.length_encode {bytes : List UInt8} (h : IsText bytes) :
    (encode (String.ofList (lossy bytes))).length = bytes.length := by
  obtain ⟨cs, rfl⟩ := h
  have hread : lossy (cs.flatMap String.utf8EncodeChar) = cs := by
    unfold lossy
    rw [decode_flatMap, List.map_map]
    exact List.map_id _
  rw [hread]
  unfold encode
  rw [String.toList_ofList]

end Utf8
