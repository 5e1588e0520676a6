import CliPocket.Lib.Utf8Pieces

/-!
# URLs

What `new URL` and `new URLSearchParams` make of a text. Which texts are URLs is decided in front of the fragment; this,
with its hosts and ports, is a parameter.

- `parse`: the clean-up of the text, and the fragment;
- `searchParams`: the parameters of a query;
- `decodeParam_of_plain`, `searchParams_append`: a parameter of plain characters, and parameters one after the other;
- `hash_mem_decodeParam`: no decoding hides a number sign.
-/

namespace Url

/-! ## The fragment -/

/-- A C0 control or a space. -/
def isEdge (c : Char) : Bool := c.toNat ≤ 0x20

def isTabOrNewline (c : Char) : Bool := c ∈ ['\t', '\n', '\r']

/-- What the parser looks at. -/
def clean (input : List Char) : List Char :=
  (((input.dropWhile isEdge).reverse.dropWhile isEdge).reverse).filter fun c => !isTabOrNewline c

/-- The text in front of the fragment. -/
def front (cs : List Char) : List Char := cs.takeWhile (· ≠ '#')

def hexDigit (n : Nat) : Char := "0123456789ABCDEF".toList.getD n '0'

def percentEncode (b : UInt8) : List Char := ['%', hexDigit (b.toNat / 16), hexDigit (b.toNat % 16)]

/-- The fragment percent-encode set. -/
def inFragmentSet (c : Char) : Bool := c.toNat ≤ 0x1f || 0x7e < c.toNat || c ∈ [' ', '"', '<', '>', '`']

def encodeFragment (cs : List Char) : List Char :=
  cs.flatMap fun c => if inFragmentSet c then (String.utf8EncodeChar c).flatMap percentEncode else [c]

structure Parsed where
  /-- `URL.hash`. -/
  hash : List Char
  deriving DecidableEq

/-- `new URL`, with no base. -/
def parse (accepts : List Char → Bool) (input : List Char) : Option Parsed :=
  if accepts (front (clean input)) then
    match (clean input).dropWhile (· ≠ '#') with
    | [] | ['#'] => some { hash := [] }
    | _ :: fragment => some { hash := '#' :: encodeFragment fragment }
  else none

/-! ## Parameters -/

def hexValue (b : UInt8) : Option Nat :=
  let n := b.toNat
  if 0x30 ≤ n ∧ n ≤ 0x39 then some (n - 0x30)
  else if 0x41 ≤ n ∧ n ≤ 0x46 then some (n - 0x41 + 10)
  else if 0x61 ≤ n ∧ n ≤ 0x66 then some (n - 0x61 + 10)
  else none

def percentDecode : List UInt8 → List UInt8
  | [] => []
  | [b] => [b]
  | [b, c] => [b, c]
  | b :: hi :: lo :: rest =>
    if b = 0x25 then
      match hexValue hi, hexValue lo with
      | some hi, some lo => UInt8.ofNat (hi * 16 + lo) :: percentDecode rest
      | _, _ => b :: percentDecode (hi :: lo :: rest)
    else b :: percentDecode (hi :: lo :: rest)

/-- A name or a value. -/
def decodePart (cs : List Char) : List Char :=
  Utf8.lossy (percentDecode ((cs.map fun c => if c = '+' then ' ' else c).flatMap String.utf8EncodeChar))

/-- One parameter. -/
def decodeParam (cs : List Char) : List Char × List Char :=
  (decodePart (cs.takeWhile (· ≠ '=')), decodePart (cs.dropWhile (· ≠ '=')).tail)

/-- The parameters of a query without its question mark. -/
def params (cs : List Char) : List (List Char × List Char) :=
  ((cs.splitOn '&').filter (· ≠ [])).map decodeParam

/-- `new URLSearchParams`. -/
def searchParams : List Char → List (List Char × List Char)
  | '?' :: cs => params cs
  | cs => params cs

/-- `URLSearchParams.get`. -/
def get (name : List Char) (params : List (List Char × List Char)) : Option (List Char) := params.lookup name

/-! ## Plain characters -/

/-- What is left alone by the decoding of a parameter. -/
def Plain (c : Char) : Prop := c.toNat < 0x80 ∧ c ≠ '%' ∧ c ≠ '+'

instance (c : Char) : Decidable (Plain c) := inferInstanceAs (Decidable (_ ∧ _))

theorem utf8EncodeChar_ascii {c : Char} (h : c.toNat < 0x80) : String.utf8EncodeChar c = [UInt8.ofNat c.toNat] := by
  unfold String.utf8EncodeChar
  exact if_pos (show c.val.toNat ≤ 0x7f from Nat.le_of_lt_succ h)

theorem percentDecode_of_not_mem : ∀ {bytes : List UInt8}, 0x25 ∉ bytes → percentDecode bytes = bytes
  | [], _ => rfl
  | [_], _ => rfl
  | [_, _], _ => rfl
  | b :: hi :: lo :: rest, h => by
    have hb : b ≠ 0x25 := fun heq => h (heq ▸ List.mem_cons_self)
    unfold percentDecode
    rw [if_neg hb, percentDecode_of_not_mem fun hmem => h (List.mem_cons_of_mem _ hmem)]

theorem percent_not_mem {c : Char} (h : Plain c) : 0x25 ∉ String.utf8EncodeChar c := by
  obtain ⟨hascii, hpercent, -⟩ := h
  rw [utf8EncodeChar_ascii hascii]
  intro hmem
  have hbyte : (0x25 : UInt8).toNat = (UInt8.ofNat c.toNat).toNat := congrArg UInt8.toNat (List.mem_singleton.mp hmem)
  rw [UInt8.toNat_ofNat_of_lt' (show c.toNat < 256 by omega)] at hbyte
  apply hpercent
  rw [← Char.ofNat_toNat c, ← hbyte]
  rfl

theorem decodePart_of_plain {cs : List Char} (h : ∀ c ∈ cs, Plain c) : decodePart cs = cs := by
  have hmap : (cs.map fun c => if c = '+' then ' ' else c) = cs := by
    conv_rhs => rw [← List.map_id cs]
    exact List.map_congr_left fun c hc => if_neg (h c hc).2.2
  have hpercent : 0x25 ∉ cs.flatMap String.utf8EncodeChar := by
    intro hmem
    obtain ⟨c, hc, hbyte⟩ := List.mem_flatMap.mp hmem
    exact percent_not_mem (h c hc) hbyte
  unfold decodePart Utf8.lossy
  rw [hmap, percentDecode_of_not_mem hpercent, Utf8.decode_flatMap, List.map_map]
  exact List.map_id _

theorem takeWhile_append_cons {p : Char → Bool} {cs rest : List Char} {c : Char} (h : ∀ d ∈ cs, p d = true) (hc : p c = false) :
    (cs ++ c :: rest).takeWhile p = cs ∧ (cs ++ c :: rest).dropWhile p = c :: rest := by
  have hneg : ¬p c = true := by
    rw [hc]
    exact Bool.false_ne_true
  rw [List.takeWhile_append_of_pos h, List.dropWhile_append_of_pos h, List.takeWhile_cons_of_neg hneg,
    List.dropWhile_cons_of_neg hneg]
  exact ⟨List.append_nil _, rfl⟩

/-- A parameter of plain characters. -/
theorem decodeParam_of_plain {name value : List Char} (hname : ∀ c ∈ name, Plain c ∧ c ≠ '=') (hvalue : ∀ c ∈ value, Plain c) :
    decodeParam (name ++ '=' :: value) = (name, value) := by
  obtain ⟨htake, hdrop⟩ := @takeWhile_append_cons (· ≠ '=') name value '='
    (fun c hc => decide_eq_true (hname c hc).2) (by decide)
  unfold decodeParam
  rw [htake, hdrop, List.tail_cons, decodePart_of_plain fun c hc => (hname c hc).1, decodePart_of_plain hvalue]

/-! ## Parameters one after the other -/

theorem params_append (cs more : List Char) : params (cs ++ '&' :: more) = params cs ++ params more := by
  unfold params
  rw [List.splitOn_append_cons_self, List.filter_append, List.map_append]

theorem params_single {cs : List Char} (hne : cs ≠ []) (h : '&' ∉ cs) : params cs = [decodeParam cs] := by
  unfold params
  rw [List.splitOn_eq_singleton h]
  simp [hne]

theorem searchParams_eq {c : Char} (hc : c ≠ '?') (cs : List Char) : searchParams (c :: cs) = params (c :: cs) := by
  unfold searchParams
  split
  · next heq =>
    cases heq
    exact absurd rfl hc
  · rfl

/-- The last parameter. -/
theorem searchParams_append (cs : List Char) {last : List Char} (hne : last ≠ []) (h : '&' ∉ last) :
    searchParams (cs ++ '&' :: last) = searchParams cs ++ [decodeParam last] := by
  cases cs with
  | nil =>
    have hfirst := params_append [] last
    rw [List.nil_append, params_single hne h] at hfirst
    exact (searchParams_eq (by decide) last).trans hfirst
  | cons c cs =>
    by_cases hc : c = '?'
    · subst hc
      show params (cs ++ '&' :: last) = params cs ++ _
      rw [params_append, params_single hne h]
    · rw [List.cons_append, searchParams_eq hc, searchParams_eq hc, ← List.cons_append, params_append, params_single hne h]

/-! ## Number signs -/

theorem mem_percentDecode {b : UInt8} (hhex : hexValue b = none) (hb : b ≠ 0x25) :
    ∀ {bytes : List UInt8}, b ∈ bytes → b ∈ percentDecode bytes
  | [], h => h
  | [_], h => h
  | [_, _], h => h
  | c :: hi :: lo :: rest, h => by
    unfold percentDecode
    have hrest : b ∈ hi :: lo :: rest → b ∈ percentDecode (hi :: lo :: rest) := mem_percentDecode hhex hb
    split
    · next hc =>
      have hmem : b ∈ hi :: lo :: rest := (List.mem_cons.mp h).resolve_left fun heq => hb (heq.trans hc)
      split
      · next hhi hlo =>
        have hmore : b ∈ rest := by
          rcases List.mem_cons.mp hmem with rfl | hmem
          · rw [hhex] at hhi
            cases hhi
          · rcases List.mem_cons.mp hmem with rfl | hmem
            · rw [hhex] at hlo
              cases hlo
            · exact hmem
        exact List.mem_cons_of_mem _ (mem_percentDecode hhex hb hmore)
      · exact List.mem_cons_of_mem _ (hrest hmem)
    · rcases List.mem_cons.mp h with rfl | hmem
      · exact List.mem_cons_self
      · exact List.mem_cons_of_mem _ (hrest hmem)

/-- An ASCII byte stands for its character, whatever is under way. -/
theorem mem_decode_ascii {b : UInt8} (hb : b.toNat < 0x80) : ∀ {bytes : List UInt8} {p : Option Utf8.Pending},
    (∀ q, p = some q → q.Ok) → b ∈ bytes → some (Char.ofNat b.toNat) ∈ Utf8.decode p bytes
  | c :: rest, p, hp, h => by
    rw [Utf8.decode_cons]
    rcases List.mem_cons.mp h with rfl | h
    · apply List.mem_append_left
      have hfirst : Utf8.first b = ([some (Char.ofNat b.toNat)], none) := by
        have hlead : Utf8.lead b.toNat = .char (Char.ofNat b.toNat) := if_pos (by omega)
        unfold Utf8.first
        rw [hlead]
      cases p with
      | none =>
        show _ ∈ (Utf8.first b).1
        rw [hfirst]
        exact List.mem_cons_self
      | some q =>
        obtain ⟨hlower, -⟩ := hp q rfl
        have hnext : Utf8.next (some q) b = (none :: (Utf8.first b).1, (Utf8.first b).2) := if_neg (by omega)
        rw [hnext, hfirst]
        exact List.mem_cons_of_mem _ List.mem_cons_self
    · exact List.mem_append_right _ (mem_decode_ascii hb (fun _ hq => Utf8.next_ok hq) h)

theorem hash_mem_decodePart {cs : List Char} (h : '#' ∈ cs) : '#' ∈ decodePart cs := by
  have hmap : '#' ∈ cs.map fun c => if c = '+' then ' ' else c := List.mem_map.mpr ⟨'#', h, rfl⟩
  have hbyte : (0x23 : UInt8) ∈ (cs.map fun c => if c = '+' then ' ' else c).flatMap String.utf8EncodeChar :=
    List.mem_flatMap.mpr ⟨'#', hmap, List.mem_singleton.mpr rfl⟩
  have hdecoded := mem_decode_ascii (b := 0x23) (by decide) (p := none) nofun (mem_percentDecode rfl (by decide) hbyte)
  exact List.mem_map.mpr ⟨_, hdecoded, rfl⟩

/-- A parameter keeps its number signs. -/
theorem hash_mem_decodeParam {cs : List Char} (h : '#' ∈ cs) : '#' ∈ (decodeParam cs).1 ∨ '#' ∈ (decodeParam cs).2 := by
  rw [← @List.takeWhile_append_dropWhile _ (· ≠ '=') cs] at h
  rcases List.mem_append.mp h with h | h
  · exact .inl (hash_mem_decodePart h)
  · right
    apply hash_mem_decodePart
    cases hdrop : cs.dropWhile (· ≠ '=') with
    | nil =>
      rw [hdrop] at h
      cases h
    | cons c rest =>
      have hc := List.head?_dropWhile_not (· ≠ '=') cs
      rw [hdrop] at h hc
      rcases List.mem_cons.mp h with rfl | h
      · simp at hc
      · exact h

/-! ## Fragments -/

theorem encodeFragment_append (cs more : List Char) : encodeFragment (cs ++ more) = encodeFragment cs ++ encodeFragment more :=
  List.flatMap_append ..

theorem encodeFragment_cons {c : Char} (h : inFragmentSet c = false) (cs : List Char) :
    encodeFragment (c :: cs) = c :: encodeFragment cs := by
  unfold encodeFragment
  rw [List.flatMap_cons, if_neg (by rw [h]; exact Bool.false_ne_true)]
  rfl

theorem encodeFragment_eq_self : ∀ {cs : List Char}, (∀ c ∈ cs, inFragmentSet c = false) → encodeFragment cs = cs
  | [], _ => rfl
  | c :: cs, h => by
    rw [encodeFragment_cons (h c List.mem_cons_self), encodeFragment_eq_self fun d hd => h d (List.mem_cons_of_mem _ hd)]

theorem mem_encodeFragment {c : Char} (h : inFragmentSet c = false) {cs : List Char} (hc : c ∈ cs) :
    c ∈ encodeFragment cs := by
  refine List.mem_flatMap.mpr ⟨c, hc, ?_⟩
  rw [if_neg (by rw [h]; exact Bool.false_ne_true)]
  exact List.mem_singleton.mpr rfl

theorem hexDigit_ne : ∀ n < 16, hexDigit n ≠ '&' := by decide

theorem amp_not_mem_percentEncode (b : UInt8) : '&' ∉ percentEncode b := by
  have hb := b.toNat_lt
  intro h
  rcases List.mem_cons.mp h with h | h
  · cases h
  rcases List.mem_cons.mp h with h | h
  · exact hexDigit_ne _ (by omega) h.symm
  · exact hexDigit_ne _ (by omega) (List.mem_singleton.mp h).symm

theorem amp_not_mem_encodeFragment {cs : List Char} (h : '&' ∉ cs) : '&' ∉ encodeFragment cs := by
  intro hmem
  obtain ⟨c, hc, hmem⟩ := List.mem_flatMap.mp hmem
  split at hmem
  · obtain ⟨b, -, hmem⟩ := List.mem_flatMap.mp hmem
    exact amp_not_mem_percentEncode b hmem
  · rw [List.mem_singleton.mp hmem] at h
    exact h hc

/-! ## Splits -/

theorem not_mem_takeWhile (c : Char) : ∀ cs : List Char, c ∉ cs.takeWhile (· ≠ c)
  | [] => nofun
  | d :: cs => by
    by_cases hd : d = c
    · rw [List.takeWhile_cons_of_neg (by simpa using hd)]
      nofun
    · rw [List.takeWhile_cons_of_pos (by simpa using hd), List.mem_cons]
      rintro (rfl | h)
      · exact hd rfl
      · exact not_mem_takeWhile c cs h

/-- What stands on both sides of the first `c`. -/
theorem split_first {c : Char} : ∀ {cs : List Char}, c ∈ cs →
    cs = cs.takeWhile (· ≠ c) ++ c :: (cs.dropWhile (· ≠ c)).tail
  | d :: cs, h => by
    by_cases hd : d = c
    · subst hd
      rw [List.takeWhile_cons_of_neg (by simp), List.dropWhile_cons_of_neg (by simp)]
      rfl
    · have hrest := split_first ((List.mem_cons.mp h).resolve_left fun heq => hd heq.symm)
      rw [List.takeWhile_cons_of_pos (by simpa using hd), List.dropWhile_cons_of_pos (by simpa using hd), List.cons_append,
        ← hrest]

/-- What stands in front of the last `c`. -/
def beforeLast (c : Char) (cs : List Char) : List Char := ((cs.reverse.dropWhile (· ≠ c)).tail).reverse

theorem beforeLast_of_not_mem {c : Char} {cs : List Char} (h : c ∉ cs) : beforeLast c cs = [] := by
  have hall : ∀ d ∈ cs.reverse, decide (d ≠ c) = true :=
    fun d hd => decide_eq_true fun heq => h (heq ▸ List.mem_reverse.mp hd)
  have hdrop := @List.dropWhile_append_of_pos _ (fun d => decide (d ≠ c)) _ [] hall
  rw [List.append_nil, List.dropWhile_nil] at hdrop
  unfold beforeLast
  rw [hdrop]
  rfl

theorem split_last {c : Char} {cs : List Char} (h : c ∈ cs) : ∃ behind, c ∉ behind ∧ cs = beforeLast c cs ++ c :: behind := by
  have hsplit := split_first (List.mem_reverse.mpr h)
  refine ⟨(cs.reverse.takeWhile (· ≠ c)).reverse, fun hmem => not_mem_takeWhile c _ (List.mem_reverse.mp hmem), ?_⟩
  calc
    cs = cs.reverse.reverse := (List.reverse_reverse cs).symm
    _ = (cs.reverse.takeWhile (· ≠ c) ++ c :: (cs.reverse.dropWhile (· ≠ c)).tail).reverse := by rw [← hsplit]
    _ = beforeLast c cs ++ c :: (cs.reverse.takeWhile (· ≠ c)).reverse := by
      rw [List.reverse_append, List.reverse_cons, List.append_assoc]
      rfl

/-! ## Texts with a fragment -/

theorem dropWhile_of_head {p : Char → Bool} {cs : List Char} (h : ∀ c ∈ cs.head?, p c = false) : cs.dropWhile p = cs := by
  cases cs with
  | nil => rfl
  | cons c cs =>
    apply List.dropWhile_cons_of_neg
    rw [h c rfl]
    exact Bool.false_ne_true

/-- Nothing is to be cut off. -/
theorem clean_eq {input : List Char} (hfirst : ∀ c ∈ input.head?, isEdge c = false)
    (hlast : ∀ c ∈ input.getLast?, isEdge c = false) : clean input = input.filter fun c => !isTabOrNewline c := by
  unfold clean
  rw [dropWhile_of_head hfirst, dropWhile_of_head (by rwa [List.head?_reverse]), List.reverse_reverse]

theorem parse_of_clean {accepts : List Char → Bool} {input base fragment : List Char}
    (h : clean input = base ++ '#' :: fragment) (hbase : '#' ∉ base) (hne : fragment ≠ []) :
    parse accepts input = if accepts base then some { hash := '#' :: encodeFragment fragment } else none := by
  obtain ⟨htake, hdrop⟩ := @takeWhile_append_cons (· ≠ '#') base fragment '#'
    (fun c hc => decide_eq_true fun heq => hbase (heq ▸ hc)) (by decide)
  unfold parse front
  rw [h, htake, hdrop]
  cases fragment with
  | nil => exact absurd rfl hne
  | cons c fragment => rfl

end Url
