import CliPocket.Lib.Utf8Pieces
import CliPocket.Lib.VteSequences
import CliPocket.Proto.Snapshot

/-!
# The text of the render prefix

- `isText_renderPrefix`: the render prefix is written in UTF-8, which a decoder behind it does not notice;
- `textDecoder_renderPrefix`: what stands behind it.
-/

namespace CliPocket

open Utf8 (IsText)
open Saturating (u16Max)

/-- Stated with `all`: a bounded quantifier is not always decided by going through the list. -/
theorem isText_ascii {cs : List Char} (h : cs.all (fun c => c.toUInt8.toNat ≤ 0x7f) = true) : IsText (ascii cs) := by
  apply Utf8.isText_of_ascii
  intro b hb
  obtain ⟨c, hc, rfl⟩ := List.mem_map.mp hb
  exact of_decide_eq_true (List.all_eq_true.mp h c hc)

theorem isText_decimal (n : Nat) : IsText (decimal n) := by
  apply Utf8.isText_of_ascii
  intro b hb
  have hdigit := Vte.within_of_mem_digitBytes (n := n) hb
  omega

theorem isText_intersperse {sep : List UInt8} (hsep : IsText sep) : ∀ {pieces : List (List UInt8)},
    (∀ piece ∈ pieces, IsText piece) → ∀ piece ∈ pieces.intersperse sep, IsText piece
  | [], _, _, hp => by cases hp
  | [p], h, piece, hp => h piece hp
  | p :: q :: rest, h, piece, hp => by
    rw [List.intersperse_cons_cons] at hp
    rcases List.mem_cons.mp hp with rfl | hp
    · exact h _ List.mem_cons_self
    · rcases List.mem_cons.mp hp with rfl | hp
      · exact hsep
      · exact isText_intersperse hsep (fun r hr => h r (List.mem_cons_of_mem _ hr)) piece hp

theorem isText_joinParams (params : List Nat) : IsText (joinParams params) := by
  apply IsText.flatten
  apply isText_intersperse (isText_ascii (by decide))
  intro piece hpiece
  obtain ⟨n, -, rfl⟩ := List.mem_map.mp hpiece
  exact isText_decimal n

theorem isText_applySgr (sgr : SgrAttrs) : IsText (applySgr sgr) := by
  unfold applySgr
  dsimp only
  split
  · exact Utf8.isText_nil
  · exact ((isText_ascii (by decide)).append (isText_joinParams _)).append (isText_ascii (by decide))

theorem isText_setPrivateMode (mode : Nat) (enabled : Bool) : IsText (setPrivateMode mode enabled) := by
  refine ((isText_ascii (by decide)).append (isText_decimal mode)).append (isText_ascii ?_)
  cases enabled <;> decide

theorem isText_applyModes (modes : TerminalModes) : IsText (applyModes modes) := by
  unfold applyModes
  iterate 9 refine IsText.append ?_ (isText_setPrivateMode _ _)
  exact isText_setPrivateMode _ _

theorem latin1_spec : ∀ n < 256, latin1 (UInt8.ofNat n) = String.utf8EncodeChar (Char.ofNat n) := by
  decide +kernel

theorem isText_latin1 (set : UInt8) : IsText (latin1 set) := by
  refine ⟨[Char.ofNat set.toNat], ?_⟩
  have hspec := latin1_spec set.toNat set.toNat_lt
  rw [UInt8.ofNat_toNat] at hspec
  rw [hspec, List.flatMap_cons, List.flatMap_nil, List.append_nil]

theorem isText_designate {selector : Char} (h : ['\x1b', selector].all (fun c => c.toUInt8.toNat ≤ 0x7f) = true)
    (set : UInt8) : IsText (designate selector set) := (isText_ascii h).append (isText_latin1 set)

theorem isText_applyCharset (charset : CharsetState) : IsText (applyCharset charset) := by
  unfold applyCharset
  refine ((((isText_designate (by decide) _).append (isText_designate (by decide) _)).append
    (isText_designate (by decide) _)).append (isText_designate (by decide) _)).append ?_
  split
  · refine (isText_ascii (by decide)).append ?_
    split
    · exact isText_ascii (by decide)
    · exact Utf8.isText_nil
  · exact Utf8.isText_nil

/-- **The render prefix is text.** -/
theorem isText_renderPrefix (anchor : AnchorState) : IsText (renderPrefixFromAnchor anchor) := by
  unfold renderPrefixFromAnchor
  exact ((((((((isText_ascii (by decide)).append (isText_ascii (by decide))).append (isText_applySgr _)).append
    (isText_applyModes _)).append (isText_applyCharset _)).append (isText_ascii (by decide))).append
    (isText_decimal _)).append (isText_ascii (by decide))).append (isText_decimal _) |>.append (isText_ascii (by decide))

/-- What the prefix looks like on screen. -/
def renderText (anchor : AnchorState) : List Char := Utf8.lossy (renderPrefixFromAnchor anchor)

theorem head_renderText (anchor : AnchorState) : (renderText anchor).head? = some '\x1b' := by
  have hprefix : ∃ rest, renderPrefixFromAnchor anchor = 0x1b :: rest := by
    unfold renderPrefixFromAnchor
    exact ⟨_, rfl⟩
  obtain ⟨rest, hrest⟩ := hprefix
  unfold renderText Utf8.lossy
  rw [hrest, Utf8.decode_char (b := 0x1b) (c := '\x1b') rfl]
  rfl

/-- What stands behind the prefix is read as it is, byte order marks and all. -/
theorem textDecoder_renderPrefix (anchor : AnchorState) (bytes : List UInt8) :
    Utf8.textDecoder (renderPrefixFromAnchor anchor ++ bytes) =
      String.ofList (renderText anchor) ++ String.ofList (Utf8.lossy bytes) := by
  have hhead : (renderText anchor ++ Utf8.lossy bytes).head? ≠ some '\ufeff' := by
    rw [List.head?_append, head_renderText, Option.some_or]
    decide
  rw [Utf8.textDecoder_eq, (isText_renderPrefix anchor).lossy_append]
  unfold Utf8.dropMark
  rw [show Utf8.lossy (renderPrefixFromAnchor anchor) = renderText anchor from rfl, if_neg hhead]
  exact String.ofList_append

end CliPocket
