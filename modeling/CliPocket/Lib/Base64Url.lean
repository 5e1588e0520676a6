import CliPocket.Lib.Base64

/-!
# Base64 in links

- `encodeUrl`: the URL-safe alphabet, without padding;
- `forgivingDecode`: the decoder of the web, for the standard alphabet with padding or without;
- `forgivingDecode_pad`: what has been written is read, once the alphabet and the padding are back
  (`forgivingDecode_eq_none`: and what has a character of neither alphabet is not).
-/

namespace Base64

def toUrlSafe (c : Char) : Char := if c = '+' then '-' else if c = '/' then '_' else c

def ofUrlSafe (c : Char) : Char := if c = '-' then '+' else if c = '_' then '/' else c

/-- What is written, without padding. -/
def body (bytes : List UInt8) : List Char := (encode bytes).filter (· ≠ '=')

/-- `URL_SAFE_NO_PAD.encode`. -/
def encodeUrl (bytes : List UInt8) : List Char := (body bytes).map toUrlSafe

/-- Padding up to a whole group. -/
def pad (cs : List Char) : List Char :=
  if cs.length % 4 = 0 then cs else cs ++ List.replicate (4 - cs.length % 4) '='

/-- One or two characters of padding at the end. -/
def dropPadding (cs : List Char) : List Char :=
  if cs.getLast? = some '=' then
    if cs.dropLast.getLast? = some '=' then cs.dropLast.dropLast else cs.dropLast
  else cs

/-- The bytes of groups of six bits; those that the last group leaves over are dropped. -/
def bytesOf : List Nat → Option (List UInt8)
  | [] => some []
  | [_] => none
  | [w, x] => some [UInt8.ofNat (w * 4 + x / 16)]
  | [w, x, y] => some [UInt8.ofNat (w * 4 + x / 16), UInt8.ofNat (x % 16 * 16 + y / 4)]
  | w :: x :: y :: z :: rest => (bytesOf rest).map fun bytes =>
    UInt8.ofNat (w * 4 + x / 16) :: UInt8.ofNat (x % 16 * 16 + y / 4) :: UInt8.ofNat (y % 4 * 64 + z) :: bytes

def blanks : List Char := ['\t', '\n', '\x0c', '\r', ' ']

/-- `atob`, as bytes. -/
def forgivingDecode (cs : List Char) : Option (List UInt8) :=
  let cs := cs.filter (· ∉ blanks)
  let cs := if cs.length % 4 = 0 then dropPadding cs else cs
  (cs.mapM value).bind bytesOf

/-! ## What has been written -/

/-- Six bits at a time. -/
def sixes : List UInt8 → List Nat
  | [] => []
  | [a] => [a.toNat / 4, a.toNat % 4 * 16]
  | [a, b] => [a.toNat / 4, a.toNat % 4 * 16 + b.toNat / 16, b.toNat % 16 * 4]
  | a :: b :: c :: bytes =>
    a.toNat / 4 :: (a.toNat % 4 * 16 + b.toNat / 16) :: (b.toNat % 16 * 4 + c.toNat / 64) :: c.toNat % 64 :: sixes bytes

theorem sixes_lt : ∀ {bytes : List UInt8}, ∀ n ∈ sixes bytes, n < 64
  | [], _, hn => by cases hn
  | [a], n, hn => by
    have ha := a.toNat_lt
    simp only [sixes, List.mem_cons, List.not_mem_nil, or_false] at hn
    omega
  | [a, b], n, hn => by
    have ha := a.toNat_lt
    have hb := b.toNat_lt
    simp only [sixes, List.mem_cons, List.not_mem_nil, or_false] at hn
    omega
  | a :: b :: c :: bytes, n, hn => by
    have ha := a.toNat_lt
    have hb := b.toNat_lt
    have hc := c.toNat_lt
    simp only [sixes, List.mem_cons] at hn
    rcases hn with hn | hn | hn | hn | hn
    · omega
    · omega
    · omega
    · omega
    · exact sixes_lt n hn

/-- The symbols, and then the padding of the last group. -/
theorem encode_eq : ∀ bytes : List UInt8, ∃ k ≤ 2, encode bytes = (sixes bytes).map symbol ++ List.replicate k '=' ∧
    ((sixes bytes).length + k) % 4 = 0
  | [] => ⟨0, by decide, rfl, rfl⟩
  | [_] => ⟨2, by decide, rfl, by simp [sixes]⟩
  | [_, _] => ⟨1, by decide, rfl, by simp [sixes]⟩
  | a :: b :: c :: bytes => by
    obtain ⟨k, hk, hencode, hlength⟩ := encode_eq bytes
    refine ⟨k, hk, ?_, ?_⟩
    · unfold encode sixes
      rw [hencode]
      rfl
    · unfold sixes
      simp only [List.length_cons]
      omega

theorem body_eq (bytes : List UInt8) : body bytes = (sixes bytes).map symbol := by
  obtain ⟨k, -, hencode, -⟩ := encode_eq bytes
  have hsymbols : ∀ c ∈ (sixes bytes).map symbol, decide (c ≠ '=') = true := by
    intro c hc
    obtain ⟨n, hn, rfl⟩ := List.mem_map.mp hc
    exact decide_eq_true (symbol_ne_pad (sixes_lt n hn))
  unfold body
  rw [hencode, List.filter_append, List.filter_eq_self.mpr hsymbols, List.filter_replicate_of_neg (by decide),
    List.append_nil]

/-- Padding gives back what has been written. -/
theorem pad_body (bytes : List UInt8) : pad (body bytes) = encode bytes := by
  obtain ⟨k, hk, hencode, hlength⟩ := encode_eq bytes
  unfold pad
  rw [hencode, body_eq, List.length_map]
  by_cases hwhole : (sixes bytes).length % 4 = 0
  · obtain rfl : k = 0 := by omega
    rw [if_pos hwhole, List.replicate_zero, List.append_nil]
  · obtain rfl : 4 - (sixes bytes).length % 4 = k := by omega
    rw [if_neg hwhole]

theorem ofUrlSafe_symbol : ∀ n < 64, ofUrlSafe (toUrlSafe (symbol n)) = symbol n := by decide +kernel

theorem map_ofUrlSafe_encodeUrl (bytes : List UInt8) : (encodeUrl bytes).map ofUrlSafe = body bytes := by
  unfold encodeUrl
  rw [body_eq, List.map_map, List.map_map]
  exact List.map_congr_left fun n hn => ofUrlSafe_symbol n (sixes_lt n hn)

theorem dropPadding_append {cs : List Char} (h : '=' ∉ cs) : ∀ {k : Nat}, k ≤ 2 →
    dropPadding (cs ++ List.replicate k '=') = cs := by
  have hlast : cs.getLast? ≠ some '=' := fun heq => h (List.mem_of_getLast? heq)
  intro k hk
  unfold dropPadding
  match k, hk with
  | 0, _ =>
    rw [List.replicate_zero, List.append_nil, if_neg hlast]
  | 1, _ =>
    have hone : List.replicate 1 '=' = ['='] := rfl
    rw [hone, List.getLast?_concat, if_pos rfl, List.dropLast_concat, if_neg hlast]
  | 2, _ =>
    have htwo : cs ++ List.replicate 2 '=' = (cs ++ ['=']) ++ ['='] := by
      rw [List.append_assoc]
      rfl
    rw [htwo, List.getLast?_concat, if_pos rfl, List.dropLast_concat, List.getLast?_concat, if_pos rfl,
      List.dropLast_concat]

theorem mapM_value : ∀ {ns : List Nat}, (∀ n ∈ ns, n < 64) → (ns.map symbol).mapM value = some ns
  | [], _ => rfl
  | n :: ns, h => by
    rw [List.map_cons, List.mapM_cons, value_symbol (h n List.mem_cons_self),
      mapM_value fun m hm => h m (List.mem_cons_of_mem _ hm)]
    rfl

theorem bytesOf_sixes : ∀ bytes : List UInt8, bytesOf (sixes bytes) = some bytes
  | [] => rfl
  | [a] => by
    have ha := a.toNat_lt
    show some [UInt8.ofNat (a.toNat / 4 * 4 + a.toNat % 4 * 16 / 16)] = some [a]
    rw [ofNat_eq (show _ = a.toNat by omega)]
  | [a, b] => by
    have ha := a.toNat_lt
    have hb := b.toNat_lt
    show some [UInt8.ofNat (a.toNat / 4 * 4 + (a.toNat % 4 * 16 + b.toNat / 16) / 16),
      UInt8.ofNat ((a.toNat % 4 * 16 + b.toNat / 16) % 16 * 16 + b.toNat % 16 * 4 / 4)] = some [a, b]
    rw [ofNat_eq (show _ = a.toNat by omega), ofNat_eq (show _ = b.toNat by omega)]
  | a :: b :: c :: bytes => by
    have ha := a.toNat_lt
    have hb := b.toNat_lt
    have hc := c.toNat_lt
    unfold sixes bytesOf
    rw [bytesOf_sixes bytes, ofNat_eq (show _ = a.toNat by omega), ofNat_eq (show _ = b.toNat by omega),
      ofNat_eq (show _ = c.toNat by omega)]
    rfl

theorem symbol_not_blank : ∀ n < 64, symbol n ∉ blanks := by decide +kernel

theorem forgivingDecode_encode (bytes : List UInt8) : forgivingDecode (encode bytes) = some bytes := by
  obtain ⟨k, hk, hencode, hlength⟩ := encode_eq bytes
  have hblanks : ∀ c ∈ encode bytes, decide (c ∉ blanks) = true := by
    intro c hc
    rw [hencode] at hc
    rcases List.mem_append.mp hc with hc | hc
    · obtain ⟨n, hn, rfl⟩ := List.mem_map.mp hc
      exact decide_eq_true (symbol_not_blank n (sixes_lt n hn))
    · rw [List.eq_of_mem_replicate hc]
      decide
  have hpad : '=' ∉ (sixes bytes).map symbol := by
    intro hmem
    obtain ⟨n, hn, heq⟩ := List.mem_map.mp hmem
    exact symbol_ne_pad (sixes_lt n hn) heq
  unfold forgivingDecode
  dsimp only
  rw [List.filter_eq_self.mpr hblanks, hencode, List.length_append, List.length_map, List.length_replicate,
    if_pos hlength, dropPadding_append hpad hk, mapM_value sixes_lt]
  exact bytesOf_sixes bytes

/-- **A link's payload is read back.** -/
theorem forgivingDecode_pad (bytes : List UInt8) :
    forgivingDecode (pad ((encodeUrl bytes).map ofUrlSafe)) = some bytes := by
  rw [map_ofUrlSafe_encodeUrl, pad_body, forgivingDecode_encode]

/-- The URL-safe characters. -/
def urlAlphabet : List Char := alphabet.map toUrlSafe

theorem toUrlSafe_mem : ∀ n < 64, toUrlSafe (symbol n) ∈ urlAlphabet := by decide +kernel

theorem mem_encodeUrl {bytes : List UInt8} {c : Char} (h : c ∈ encodeUrl bytes) : c ∈ urlAlphabet := by
  unfold encodeUrl at h
  rw [body_eq, List.map_map] at h
  obtain ⟨n, hn, rfl⟩ := List.mem_map.mp h
  exact toUrlSafe_mem n (sixes_lt n hn)

/-! ## What has not -/

theorem mapM_value_eq_none {c : Char} (hvalue : value c = none) : ∀ {cs : List Char}, c ∈ cs → cs.mapM value = none
  | d :: cs, h => by
    rw [List.mapM_cons]
    rcases List.mem_cons.mp h with rfl | h
    · rw [hvalue]
      rfl
    · rw [mapM_value_eq_none hvalue h]
      cases value d <;> rfl

theorem mem_dropLast_of_ne {c : Char} : ∀ {cs : List Char}, cs.getLast? = some '=' → c ∈ cs → c ≠ '=' → c ∈ cs.dropLast := by
  intro cs hlast hc hne
  obtain ⟨front, rfl⟩ := List.getLast?_eq_some_iff.mp hlast
  rw [List.dropLast_concat]
  rcases List.mem_append.mp hc with hc | hc
  · exact hc
  · exact absurd (List.mem_singleton.mp hc) hne

theorem mem_dropPadding {c : Char} {cs : List Char} (hc : c ∈ cs) (hne : c ≠ '=') : c ∈ dropPadding cs := by
  unfold dropPadding
  split
  · next hlast =>
    have hc' := mem_dropLast_of_ne hlast hc hne
    split
    · next hlast' => exact mem_dropLast_of_ne hlast' hc' hne
    · exact hc'
  · exact hc

/-- A character that is neither a symbol nor a blank nor padding. -/
theorem forgivingDecode_eq_none {cs : List Char} {c : Char} (hc : c ∈ cs) (hvalue : value c = none) (hblank : c ∉ blanks)
    (hne : c ≠ '=') : forgivingDecode cs = none := by
  have hkept : c ∈ cs.filter (· ∉ blanks) := List.mem_filter.mpr ⟨hc, decide_eq_true hblank⟩
  unfold forgivingDecode
  dsimp only
  rw [mapM_value_eq_none hvalue]
  · rfl
  · split
    · exact mem_dropPadding hkept hne
    · exact hkept

end Base64
