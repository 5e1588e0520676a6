import CliPocket.Lib.Json
import CliPocket.Proto.Terminal

/-!
# UUIDs as text

- `Uuid.toList_display`: where the digits and the dashes of the hyphenated form stand;
- `Uuid.parseHyphenated`: that form, read again, with digits of either case;
- `Uuid.parseHyphenated_display`: **what has been written is read as what it was.**
-/

namespace CliPocket

/-! ## Hexadecimal digits -/

/-- Bytes as digits. -/
def hexChars (bytes : List UInt8) : List Char :=
  bytes.flatMap fun b => [Nat.digitChar (b.toNat / 16), Nat.digitChar (b.toNat % 16)]

/-- The bytes of an even number of digits. -/
def hexBytes : List Char → Option (List UInt8)
  | [] => some []
  | [_] => none
  | hi :: lo :: rest => do
    let hi ← Json.hexValue hi
    let lo ← Json.hexValue lo
    let bytes ← hexBytes rest
    some (UInt8.ofNat (16 * hi + lo) :: bytes)

theorem hexChars_cons (b : UInt8) (bytes : List UInt8) :
    hexChars (b :: bytes) = Nat.digitChar (b.toNat / 16) :: Nat.digitChar (b.toNat % 16) :: hexChars bytes := rfl

theorem hexChars_append (bytes bytes' : List UInt8) : hexChars (bytes ++ bytes') = hexChars bytes ++ hexChars bytes' :=
  List.flatMap_append

theorem length_hexChars (bytes : List UInt8) : (hexChars bytes).length = 2 * bytes.length := by
  induction bytes with
  | nil => rfl
  | cons b bytes ih =>
    rw [hexChars_cons, List.length_cons, List.length_cons, ih, List.length_cons]
    omega

theorem digitChar_ne_dash : ∀ n < 16, Nat.digitChar n ≠ '-' := by decide

theorem dash_not_mem_hexChars (bytes : List UInt8) : '-' ∉ hexChars bytes := by
  intro h
  obtain ⟨b, -, hc⟩ := List.mem_flatMap.mp h
  have hb := b.toNat_lt
  rcases List.mem_pair.mp hc with hc | hc
  · exact digitChar_ne_dash _ (by omega) hc.symm
  · exact digitChar_ne_dash _ (by omega) hc.symm

theorem hexBytes_hexChars : ∀ bytes, hexBytes (hexChars bytes) = some bytes
  | [] => rfl
  | b :: bytes => by
    have hb := b.toNat_lt
    have hbyte : UInt8.ofNat (16 * (b.toNat / 16) + b.toNat % 16) = b := by
      rw [Nat.div_add_mod, UInt8.ofNat_toNat]
    rw [hexChars_cons, hexBytes, Json.hexValue_digitChar _ (by omega), Json.hexValue_digitChar _ (by omega),
      hexBytes_hexChars bytes]
    show some (UInt8.ofNat (16 * (b.toNat / 16) + b.toNat % 16) :: bytes) = _
    rw [hbyte]

theorem toList_join_hexByte (bytes : List UInt8) : (String.join (bytes.map Uuid.hexByte)).toList = hexChars bytes := by
  induction bytes with
  | nil => rfl
  | cons b bytes ih =>
    rw [List.map_cons, String.join_cons, String.toList_append, ih]
    unfold Uuid.hexByte
    rw [String.toList_ofList]
    rfl

namespace Uuid

/-! ## The hyphenated form -/

/-- Eight, four, four, four and twelve digits. -/
def parseHyphenated (text : List Char) : Option Uuid :=
  if (text.splitOn '-').map List.length = [8, 4, 4, 4, 12] then (hexBytes (text.filter (· ≠ '-'))).bind fromSlice
  else none

theorem toList_display (u : Uuid) : u.display.toList =
    hexChars ((u.bytes.take 4).drop 0) ++ '-' :: (hexChars ((u.bytes.take 6).drop 4) ++ '-' ::
      (hexChars ((u.bytes.take 8).drop 6) ++ '-' :: (hexChars ((u.bytes.take 10).drop 8) ++ '-' ::
        hexChars ((u.bytes.take 16).drop 10)))) := by
  unfold display
  simp only [String.toList_append, toList_join_hexByte, List.append_assoc]
  rfl

theorem splitOn_display (u : Uuid) : (u.display.toList.splitOn '-').map List.length = [8, 4, 4, 4, 12] := by
  have hpart : ∀ lo hi, hi ≤ 16 → (hexChars ((u.bytes.take hi).drop lo)).length = 2 * (hi - lo) := by
    intro lo hi hle
    rw [length_hexChars, List.length_drop, List.length_take, u.length_eq, Nat.min_eq_left hle]
  have hdash := dash_not_mem_hexChars
  rw [toList_display, List.splitOn_append_cons_self_of_not_mem (hdash _),
    List.splitOn_append_cons_self_of_not_mem (hdash _), List.splitOn_append_cons_self_of_not_mem (hdash _),
    List.splitOn_append_cons_self_of_not_mem (hdash _), List.splitOn_eq_singleton (hdash _)]
  simp only [List.map_cons, List.map_nil, hpart _ _ (show 4 ≤ 16 by omega), hpart _ _ (show 6 ≤ 16 by omega),
    hpart _ _ (show 8 ≤ 16 by omega), hpart _ _ (show 10 ≤ 16 by omega), hpart _ _ (Nat.le_refl 16)]

theorem filter_hexChars (bytes : List UInt8) : (hexChars bytes).filter (· ≠ '-') = hexChars bytes := by
  refine List.filter_eq_self.mpr fun c hc => decide_eq_true ?_
  rintro rfl
  exact dash_not_mem_hexChars bytes hc

/-- The digits of the hyphenated form are those of the bytes. -/
theorem filter_display (u : Uuid) : u.display.toList.filter (· ≠ '-') = hexChars u.bytes := by
  have hparts : u.bytes = (u.bytes.take 4).drop 0 ++ ((u.bytes.take 6).drop 4 ++ ((u.bytes.take 8).drop 6 ++
      ((u.bytes.take 10).drop 8 ++ (u.bytes.take 16).drop 10))) := by
    obtain ⟨bytes, hlength⟩ := u
    match bytes, hlength with
    | [_, _, _, _, _, _, _, _, _, _, _, _, _, _, _, _], _ => rfl
  conv_rhs => rw [hparts]
  rw [toList_display]
  simp only [hexChars_append, List.filter_append, List.filter_cons_of_neg, filter_hexChars, ne_eq, not_true_eq_false,
    decide_false, Bool.false_eq_true, not_false_eq_true]

/-- **What has been written is read as what it was.** -/
theorem parseHyphenated_display (u : Uuid) : parseHyphenated u.display.toList = some u := by
  unfold parseHyphenated
  rw [if_pos u.splitOn_display, filter_display, hexBytes_hexChars]
  exact fromSlice_eq_some.mpr rfl

end Uuid

end CliPocket
