import CliPocket.Lib.VteSequences
import CliPocket.Pty.Parser
import Mathlib.Tactic.IntervalCases

/-!
# The render prefix read back

What a fresh tracker makes of `renderPrefixFromAnchor`.

- `AnchorStateMut.Bounded`: the range of a state that the parser's callbacks have built (`advance_bounded`);
- `performs_renderPrefix`: the prefix is a list of complete sequences, so the callbacks are `prefixEvents`;
- `performAll_prefixEvents`: attributes and charsets come back, the cursor saturates, and of the mouse modes only
  the last sequence counts.
-/

namespace CliPocket

open Saturating (u16Max)
open Vte (Event Performs)

/-! ## The range of a tracked state -/

/-- The sixteen palette colours are the only ones a tracker stores as such. -/
def Color.Bounded : Color → Prop
  | .palette index => index.toNat < 16
  | .indexed _ => True
  | .rgb _ _ _ => True

structure SgrAttrs.Bounded (sgr : SgrAttrs) : Prop where
  fg : ∀ color ∈ sgr.fg, color.Bounded
  bg : ∀ color ∈ sgr.bg, color.Bounded

structure CharsetState.Bounded (charset : CharsetState) : Prop where
  g : ∀ i : Fin 4, 0x30 ≤ (charset.g.get i).toNat ∧ (charset.g.get i).toNat ≤ 0x7e
  gl : charset.gl = 0
  gr : charset.gr = 0

structure AnchorStateMut.Bounded (s : AnchorStateMut) : Prop where
  cursorRow : s.cursorRow ≤ u16Max
  cursorCol : s.cursorCol ≤ u16Max
  sgr : s.sgr.Bounded
  charset : s.charset.Bounded

theorem SgrAttrs.bounded_default : SgrAttrs.Bounded {} := ⟨by simp, by simp⟩

theorem AnchorStateMut.bounded_default : AnchorStateMut.Bounded {} where
  cursorRow := Nat.zero_le _
  cursorCol := Nat.zero_le _
  sgr := SgrAttrs.bounded_default
  charset := ⟨by decide, rfl, rfl⟩

theorem paletteColor_bounded {value : Nat} (h : value < 16) : ∀ color ∈ paletteColor value, color.Bounded := by
  intro color hc
  unfold paletteColor toU8? at hc
  rw [if_pos (by omega), Option.map_some, Option.mem_some_iff] at hc
  subst hc
  simp only [Color.Bounded, Nat.toUInt8_eq, UInt8.toNat_ofNat']
  omega

/-- An extended colour is never a palette entry. -/
theorem parseExtendedColor_bounded {current : List Nat} {rest : List (List Nat)} {color : Color} {consumed : Nat}
    (h : parseExtendedColor current rest = some (color, consumed)) : color.Bounded := by
  unfold parseExtendedColor at h
  split at h
  · obtain ⟨value, _, h⟩ := Option.bind_eq_some_iff.mp h
    cases h
    trivial
  · obtain ⟨r, _, h⟩ := Option.bind_eq_some_iff.mp h
    obtain ⟨g, _, h⟩ := Option.bind_eq_some_iff.mp h
    obtain ⟨b, _, h⟩ := Option.bind_eq_some_iff.mp h
    cases h
    trivial
  · split at h
    · obtain ⟨value, _, h⟩ := Option.bind_eq_some_iff.mp h
      cases h
      trivial
    · obtain ⟨r, _, h⟩ := Option.bind_eq_some_iff.mp h
      obtain ⟨g, _, h⟩ := Option.bind_eq_some_iff.mp h
      obtain ⟨b, _, h⟩ := Option.bind_eq_some_iff.mp h
      cases h
      trivial
    · cases h
  · cases h

theorem sgrCode_bounded {sgr : SgrAttrs} (h : sgr.Bounded) (code : Nat) : (sgrCode code sgr).Bounded := by
  unfold sgrCode
  split
  · exact SgrAttrs.bounded_default
  all_goals try exact ⟨h.fg, h.bg⟩
  · exact ⟨by simp, h.bg⟩
  · exact ⟨h.fg, by simp⟩
  · split_ifs
    · exact ⟨paletteColor_bounded (by omega), h.bg⟩
    · exact ⟨h.fg, paletteColor_bounded (by omega)⟩
    · exact ⟨paletteColor_bounded (by omega), h.bg⟩
    · exact ⟨h.fg, paletteColor_bounded (by omega)⟩
    · exact h

theorem sgrLoop_bounded : ∀ (items : List (List Nat)) (skip : Nat) {sgr : SgrAttrs}, sgr.Bounded →
    (sgrLoop items skip sgr).Bounded
  | [], _, _, h => by
    unfold sgrLoop
    exact h
  | _ :: rest, skip + 1, _, h => by
    unfold sgrLoop
    exact sgrLoop_bounded rest skip h
  | item :: rest, 0, sgr, h => by
    unfold sgrLoop
    dsimp only
    split
    · split
      · next color consumed hc =>
        have hcolor := parseExtendedColor_bounded hc
        refine sgrLoop_bounded rest _ ?_
        split
        · exact ⟨by simpa using hcolor, h.bg⟩
        · exact ⟨h.fg, by simpa using hcolor⟩
      · exact sgrLoop_bounded rest 0 h
    · exact sgrLoop_bounded rest 0 (sgrCode_bounded h _)

theorem CharsetState.Bounded.set {charset : CharsetState} (h : charset.Bounded) (idx : Fin 4) {byte : UInt8}
    (hb : 0x30 ≤ byte.toNat ∧ byte.toNat ≤ 0x7e) :
    CharsetState.Bounded { charset with g := charset.g.set idx byte } where
  g := fun i => by
    show 0x30 ≤ (charset.g.set idx byte)[(i : Nat)].toNat ∧ (charset.g.set idx byte)[(i : Nat)].toNat ≤ 0x7e
    rw [Vector.getElem_set]
    split
    · exact hb
    · exact h.g i
  gl := h.gl
  gr := h.gr

theorem paramAt_le {params : List (List Nat)} (h : ∀ g ∈ params, ∀ p ∈ g, p ≤ u16Max) (index : Nat) {default : Nat}
    (hd : default ≤ u16Max) : paramAt params index default ≤ u16Max := by
  unfold paramAt
  split
  · next value hv =>
    obtain ⟨g, hg, hv⟩ := Option.bind_eq_some_iff.mp hv
    split
    · exact h g (List.mem_of_getElem? hg) value (List.mem_of_mem_head? hv)
    · exact hd
  · exact hd

theorem AnchorStateMut.Bounded.execute {s : AnchorStateMut} (h : s.Bounded) (byte : UInt8) : (s.execute byte).Bounded := by
  have hrow := h.cursorRow
  have hcol := h.cursorCol
  unfold AnchorStateMut.execute
  split
  · exact ⟨Saturating.add_le _ _ _, Nat.zero_le _, h.sgr, h.charset⟩
  · exact ⟨hrow, Nat.zero_le _, h.sgr, h.charset⟩
  · exact ⟨hrow, by dsimp only; omega, h.sgr, h.charset⟩
  · exact ⟨hrow, Saturating.mul_le _ _ _, h.sgr, h.charset⟩
  · exact h

theorem AnchorStateMut.Bounded.csiDispatch {s : AnchorStateMut} (h : s.Bounded) {params : List (List Nat)}
    (hp : ∀ g ∈ params, ∀ p ∈ g, p ≤ u16Max) (intermediates : List UInt8) (action : UInt8) :
    (s.csiDispatch params intermediates action).Bounded := by
  have hrow := h.cursorRow
  have hcol := h.cursorCol
  have hfirst : firstParam params 1 ≤ u16Max := paramAt_le hp 0 (by decide)
  have hsecond : secondParam params 1 ≤ u16Max := paramAt_le hp 1 (by decide)
  have hmode : ∀ on, (s.modeSet params intermediates on).Bounded := by
    intro on
    unfold AnchorStateMut.modeSet
    split
    · exact h
    · exact ⟨hrow, hcol, h.sgr, h.charset⟩
  unfold AnchorStateMut.csiDispatch
  split
  · refine ⟨hrow, hcol, ?_, h.charset⟩
    unfold AnchorStateMut.applySgr
    dsimp only
    split
    · exact SgrAttrs.bounded_default
    · exact sgrLoop_bounded params 0 h.sgr
  · exact ⟨by dsimp only [cursorPosition]; omega, by dsimp only [cursorPosition]; omega, h.sgr, h.charset⟩
  · exact ⟨by dsimp only [cursorPosition]; omega, by dsimp only [cursorPosition]; omega, h.sgr, h.charset⟩
  · exact ⟨by dsimp only; omega, hcol, h.sgr, h.charset⟩
  · exact ⟨Saturating.add_le _ _ _, hcol, h.sgr, h.charset⟩
  · exact ⟨hrow, Saturating.add_le _ _ _, h.sgr, h.charset⟩
  · exact ⟨hrow, by dsimp only; omega, h.sgr, h.charset⟩
  · exact ⟨Saturating.add_le _ _ _, Nat.zero_le _, h.sgr, h.charset⟩
  · exact ⟨by dsimp only; omega, Nat.zero_le _, h.sgr, h.charset⟩
  · exact ⟨hrow, by dsimp only; omega, h.sgr, h.charset⟩
  · exact ⟨by dsimp only; omega, hcol, h.sgr, h.charset⟩
  · exact hmode true
  · exact hmode false
  · exact h

/-- A callback with bounded values keeps a state in range. -/
theorem AnchorStateMut.Bounded.perform {s : AnchorStateMut} (h : s.Bounded) {e : Event} (he : e.Bounded) :
    (s.perform e).Bounded := by
  cases e with
  | print c => exact ⟨h.cursorRow, Saturating.add_le _ _ _, h.sgr, h.charset⟩
  | execute byte => exact h.execute byte
  | hook params intermediates ignore action => exact h
  | put byte => exact h
  | unhook => exact h
  | oscDispatch params bellTerminated =>
    unfold AnchorStateMut.perform
    dsimp only
    split
    · exact ⟨h.cursorRow, h.cursorCol, h.sgr, h.charset⟩
    · exact h
  | csiDispatch params intermediates ignore action => exact h.csiDispatch he intermediates action
  | escDispatch intermediates ignore byte =>
    unfold AnchorStateMut.perform AnchorStateMut.escDispatch
    dsimp only
    split
    · split
      · exact ⟨h.cursorRow, h.cursorCol, h.sgr, h.charset.set _ he⟩
      · exact h
    · exact h

theorem AnchorStateMut.Bounded.performAll : ∀ {events : List Event} {s : AnchorStateMut}, s.Bounded →
    (∀ e ∈ events, e.Bounded) → (s.performAll events).Bounded
  | [], _, h, _ => h
  | e :: _, _, h, he =>
    (h.perform (he e List.mem_cons_self)).performAll fun f hf => he f (List.mem_cons_of_mem e hf)

/-- **The range of a tracked state**, whatever the bytes. -/
theorem AnchorTracker.advance_bounded (bs : List UInt8) : (AnchorTracker.new.advance bs).state.Bounded := by
  rw [AnchorTracker.state_advance]
  exact AnchorStateMut.bounded_default.performAll (Vte.feed_bounded bs (s := .ground) trivial)

/-! ## The prefix as sequences -/

/-- The selectors of the four sets. -/
def charsetSelectors : Vector Char 4 := #v['(', ')', '*', '+']

/-- The designations of `applyCharset`. -/
def charsetEvents (charset : CharsetState) : List Event :=
  List.ofFn (fun i => .escDispatch [(charsetSelectors.get i).toUInt8] false (charset.g.get i)) ++ [.execute 0x0f]

/-- The private modes of `applyModes`, in order. -/
def modeSettings (modes : TerminalModes) : List (Nat × Bool) :=
  [(1, modes.deccmmCursorKeys), (6, modes.originMode), (7, modes.autowrap), (1000, modes.mouseReporting != .off),
    (1002, modes.mouseReporting == .buttonEvent), (1003, modes.mouseReporting == .anyEvent), (1005, false),
    (1006, modes.mouseReporting != .off), (1049, modes.altScreen), (2004, modes.bracketedPaste)]

def modeEvent (setting : Nat × Bool) : Event :=
  .csiDispatch [[setting.1]] ['?'.toUInt8] false (if setting.2 then 'h' else 'l').toUInt8

def sgrEvents (sgr : SgrAttrs) : List Event :=
  if (sgrParams sgr).isEmpty then [] else [.csiDispatch ((sgrParams sgr).map ([·])) [] false 'm'.toUInt8]

/-- The callbacks the prefix performs. -/
def prefixEvents (a : AnchorState) : List Event :=
  [.csiDispatch [[0]] [] false 'm'.toUInt8, modeEvent (25, true)] ++ sgrEvents a.sgr ++
    (modeSettings a.modes).map modeEvent ++ charsetEvents a.charset ++
    [.csiDispatch [[Saturating.add u16Max a.cursor.2 1], [Saturating.add u16Max a.cursor.1 1]] [] false 'H'.toUInt8]

theorem performs_setPrivateMode {setting : Nat × Bool} (h : setting.1 ≤ u16Max) :
    Performs (setPrivateMode setting.1 setting.2) [modeEvent setting] := by
  have hf : 0x40 ≤ (if setting.2 then 'h' else 'l').toUInt8.toNat ∧ (if setting.2 then 'h' else 'l').toUInt8.toNat ≤ 0x7e := by
    cases setting.2 <;> decide
  have hs := Vte.feed_csi true [setting.1] (List.cons_ne_nil _ _) (by simpa using h) (by simp [Vte.Params.maxParams]) hf
  rwa [Vte.csi, Vte.paramBytes_singleton] at hs

theorem applyModes_eq (modes : TerminalModes) :
    applyModes modes = (modeSettings modes).flatMap fun setting => setPrivateMode setting.1 setting.2 := by
  simp [applyModes, modeSettings]

theorem performs_settings : ∀ settings : List (Nat × Bool), (∀ setting ∈ settings, setting.1 ≤ u16Max) →
    Performs (settings.flatMap fun setting => setPrivateMode setting.1 setting.2) (settings.map modeEvent)
  | [], _ => rfl
  | setting :: settings, h =>
    (performs_setPrivateMode (h setting List.mem_cons_self)).append
      (performs_settings settings fun t ht => h t (List.mem_cons_of_mem _ ht))

theorem performs_applyModes (modes : TerminalModes) : Performs (applyModes modes) ((modeSettings modes).map modeEvent) := by
  rw [applyModes_eq]
  exact performs_settings _ (by simp [modeSettings, u16Max])

theorem performs_designate {selector : Char} {set : UInt8}
    (hs : 0x20 ≤ selector.toUInt8.toNat ∧ selector.toUInt8.toNat ≤ 0x2f) (h : 0x30 ≤ set.toNat ∧ set.toNat ≤ 0x7e) :
    Performs (designate selector set) [.escDispatch [selector.toUInt8] false set] := by
  have hset : latin1 set = [set] := by
    unfold latin1
    rw [if_pos (UInt8.lt_iff_toNat_lt.mpr (Nat.lt_of_le_of_lt h.2 (by decide)))]
  rw [designate, hset]
  exact Vte.feed_designate hs h

theorem performs_applyCharset {charset : CharsetState} (h : charset.Bounded) :
    Performs (applyCharset charset) (charsetEvents charset) := by
  have hsi : Performs (ascii ['\x0f']) [.execute 0x0f] := rfl
  have hevents : charsetEvents charset = [.escDispatch ['('.toUInt8] false charset.g[0],
      .escDispatch [')'.toUInt8] false charset.g[1], .escDispatch ['*'.toUInt8] false charset.g[2],
      .escDispatch ['+'.toUInt8] false charset.g[3], .execute 0x0f] := rfl
  unfold applyCharset
  rw [h.gl, hevents]
  exact ((((performs_designate (by decide) (h.g 0)).append (performs_designate (by decide) (h.g 1))).append
    (performs_designate (by decide) (h.g 2))).append (performs_designate (by decide) (h.g 3))).append hsi

theorem colorParams_le (color : Color) (foreground : Bool) : ∀ p ∈ colorParams color foreground, p ≤ u16Max := by
  intro p hp
  cases color with
  | palette index =>
    simp only [colorParams, List.mem_singleton] at hp
    subst hp
    unfold u16Max
    split_ifs <;> omega
  | indexed index =>
    have := index.toNat_lt
    simp only [colorParams, List.mem_cons, List.not_mem_nil, or_false] at hp
    unfold u16Max
    split_ifs at hp <;> omega
  | rgb r g b =>
    have := r.toNat_lt
    have := g.toNat_lt
    have := b.toNat_lt
    simp only [colorParams, List.mem_cons, List.not_mem_nil, or_false] at hp
    unfold u16Max
    split_ifs at hp <;> omega

theorem someColorParams_le (color : Option Color) (foreground : Bool) :
    ∀ p ∈ someColorParams color foreground, p ≤ u16Max := by
  intro p hp
  cases color with
  | none => cases hp
  | some c => exact colorParams_le c foreground p hp

/-- The parameters of one flag. -/
theorem mem_flag {b : Bool} {code p : Nat} (h : p ∈ if b then [code] else []) : p = code := by
  cases b <;> simp_all

theorem sgrParams_le (sgr : SgrAttrs) : ∀ p ∈ sgrParams sgr, p ≤ u16Max := by
  have hflag : ∀ {b : Bool} {code p : Nat}, code ≤ u16Max → (p ∈ if b then [code] else []) → p ≤ u16Max := by
    intro b code p hc h
    rw [mem_flag h]
    exact hc
  intro p hp
  simp only [sgrParams, List.mem_append] at hp
  rcases hp with (((((((hp | hp) | hp) | hp) | hp) | hp) | hp) | hp) | hp
  any_goals exact hflag (by decide) hp
  · exact someColorParams_le _ true p hp
  · exact someColorParams_le _ false p hp

theorem length_someColorParams_le (color : Option Color) (foreground : Bool) :
    (someColorParams color foreground).length ≤ 5 := by
  cases color with
  | none => exact Nat.zero_le _
  | some c => cases c <;> simp [someColorParams, colorParams]

theorem length_sgrParams_le (sgr : SgrAttrs) : (sgrParams sgr).length ≤ Vte.Params.maxParams := by
  have hflag : ∀ (b : Bool) (code : Nat), (if b then [code] else []).length ≤ 1 := by
    intro b code
    cases b <;> simp
  have h₁ := hflag sgr.bold 1
  have h₂ := hflag sgr.faint 2
  have h₃ := hflag sgr.italic 3
  have h₄ := hflag sgr.underline 4
  have h₅ := hflag sgr.blink 5
  have h₆ := hflag sgr.reverse 7
  have h₇ := hflag sgr.strikethrough 9
  have h₈ := length_someColorParams_le sgr.fg true
  have h₉ := length_someColorParams_le sgr.bg false
  simp only [sgrParams, List.length_append, Vte.Params.maxParams]
  omega

theorem performs_applySgr (sgr : SgrAttrs) : Performs (applySgr sgr) (sgrEvents sgr) := by
  unfold applySgr sgrEvents
  dsimp only
  split
  · rfl
  · next h =>
    have hne : sgrParams sgr ≠ [] := by simpa using h
    have hf : 0x40 ≤ 'm'.toUInt8.toNat ∧ 'm'.toUInt8.toNat ≤ 0x7e := by decide
    exact Vte.feed_csi false _ hne (sgrParams_le sgr) (length_sgrParams_le sgr) hf

/-- **The prefix performs `prefixEvents`** and leaves the parser in the ground state. -/
theorem performs_renderPrefix {a : AnchorState} (h : a.charset.Bounded) :
    Performs (renderPrefixFromAnchor a) (prefixEvents a) := by
  have hreset : Performs (ascii ['\x1b', '[', '0', 'm']) [.csiDispatch [[0]] [] false 'm'.toUInt8] := rfl
  have hshow : Performs (ascii ['\x1b', '[', '?', '2', '5', 'h']) [modeEvent (25, true)] := rfl
  have hf : 0x40 ≤ 'H'.toUInt8.toNat ∧ 'H'.toUInt8.toNat ≤ 0x7e := by decide
  have hcursor := Vte.feed_csi false [Saturating.add u16Max a.cursor.2 1, Saturating.add u16Max a.cursor.1 1]
    (List.cons_ne_nil _ _) (by simp [Saturating.add_le]) (by simp [Vte.Params.maxParams]) hf
  have hall := ((((hreset.append hshow).append (performs_applySgr a.sgr)).append (performs_applyModes a.modes)).append
    (performs_applyCharset h)).append hcursor
  have hbytes : renderPrefixFromAnchor a = ascii ['\x1b', '[', '0', 'm'] ++ ascii ['\x1b', '[', '?', '2', '5', 'h'] ++
      applySgr a.sgr ++ applyModes a.modes ++ applyCharset a.charset ++
      Vte.csi false [Saturating.add u16Max a.cursor.2 1, Saturating.add u16Max a.cursor.1 1] 'H'.toUInt8 := by
    rw [Vte.csi, Vte.paramBytes_cons_cons, Vte.paramBytes_singleton]
    simp only [renderPrefixFromAnchor, List.append_assoc]
    rfl
  rw [hbytes]
  exact hall

/-! ## What the sequences do -/

/-- A flag that is set sends its code; `set` is the attribute record as a function of the flag. -/
theorem sgrLoop_flag {code : Nat} (set : Bool → SgrAttrs) (hc : code ≠ 38 ∧ code ≠ 48)
    (h : sgrCode code (set false) = set true) (b : Bool) (rest : List Nat) :
    sgrLoop (((if b then [code] else []) ++ rest).map ([·])) 0 (set false) = sgrLoop (rest.map ([·])) 0 (set b) := by
  cases b with
  | false => rfl
  | true =>
    show sgrLoop ([code] :: rest.map ([·])) 0 (set false) = _
    unfold sgrLoop
    simp only [List.headD_cons, hc.1, hc.2, or_self, if_false, h]
    cases rest <;> rfl

theorem toU8?_toNat (b : UInt8) : toU8? b.toNat = some b := by
  unfold toU8?
  rw [if_pos b.toNat_lt, Nat.toUInt8_eq, UInt8.ofNat_toNat]

/-- The attribute an extended or palette colour goes to. -/
def setColor (foreground : Bool) (color : Color) (sgr : SgrAttrs) : SgrAttrs :=
  if foreground then { sgr with fg := some color } else { sgr with bg := some color }

theorem sgrLoop_extended (foreground : Bool) {rest : List (List Nat)} {color : Color} {consumed : Nat}
    (h : ∀ code, parseExtendedColor [code] rest = some (color, consumed)) (sgr : SgrAttrs) :
    sgrLoop ([if foreground then 38 else 48] :: rest) 0 sgr =
      sgrLoop rest (consumed - 1) (setColor foreground color sgr) := by
  cases foreground <;> simp [sgrLoop, h, setColor]

theorem sgrLoop_code {code : Nat} (hc : code ≠ 38 ∧ code ≠ 48) (rest : List (List Nat)) (sgr : SgrAttrs) :
    sgrLoop ([code] :: rest) 0 sgr = sgrLoop rest 0 (sgrCode code sgr) := by
  simp [sgrLoop, hc]

/-- The code of a palette colour sets it. -/
theorem sgrCode_palette (foreground : Bool) {index : UInt8} (h : index.toNat < 16) (sgr : SgrAttrs) :
    ∃ code, colorParams (.palette index) foreground = [code] ∧ (code ≠ 38 ∧ code ≠ 48) ∧
      sgrCode code sgr = setColor foreground (.palette index) sgr := by
  obtain ⟨n, hn, rfl⟩ : ∃ n, n < 16 ∧ index = UInt8.ofNat n := ⟨index.toNat, h, by simp⟩
  interval_cases n <;> cases foreground <;> exact ⟨_, rfl, by decide, rfl⟩

/-- **A colour reads back.** -/
theorem sgrLoop_color {color : Color} (h : color.Bounded) (foreground : Bool) (rest : List Nat) (sgr : SgrAttrs) :
    sgrLoop ((colorParams color foreground ++ rest).map ([·])) 0 sgr =
      sgrLoop (rest.map ([·])) 0 (setColor foreground color sgr) := by
  cases color with
  | palette index =>
    obtain ⟨code, hp, hc, hs⟩ := sgrCode_palette foreground h sgr
    rw [hp, ← hs]
    exact sgrLoop_code hc _ sgr
  | indexed index =>
    have he : ∀ code, parseExtendedColor [code] ([5] :: [index.toNat] :: rest.map ([·])) = some (.indexed index, 3) := by
      intro code
      simp [parseExtendedColor, itemByte, toU8?_toNat]
    exact sgrLoop_extended foreground he sgr
  | rgb r g b =>
    have he : ∀ code, parseExtendedColor [code] ([2] :: [r.toNat] :: [g.toNat] :: [b.toNat] :: rest.map ([·])) =
        some (.rgb r g b, 5) := by
      intro code
      simp [parseExtendedColor, itemByte, toU8?_toNat]
    exact sgrLoop_extended foreground he sgr

theorem sgrLoop_fg {fg : Option Color} (h : ∀ color ∈ fg, color.Bounded) (rest : List Nat) (sgr : SgrAttrs) :
    sgrLoop ((someColorParams fg true ++ rest).map ([·])) 0 { sgr with fg := none } =
      sgrLoop (rest.map ([·])) 0 { sgr with fg := fg } := by
  cases fg with
  | none => rfl
  | some color => exact sgrLoop_color (h color rfl) true rest _

theorem sgrLoop_bg {bg : Option Color} (h : ∀ color ∈ bg, color.Bounded) (sgr : SgrAttrs) :
    sgrLoop ((someColorParams bg false).map ([·])) 0 { sgr with bg := none } = { sgr with bg := bg } := by
  cases bg with
  | none => rfl
  | some color =>
    have hc := sgrLoop_color (h color rfl) false [] { sgr with bg := none }
    rwa [List.append_nil] at hc

/-- **The attributes read back** from the default ones. -/
theorem sgrLoop_sgrParams {sgr : SgrAttrs} (h : sgr.Bounded) : sgrLoop ((sgrParams sgr).map ([·])) 0 {} = sgr := by
  simp only [sgrParams, List.append_assoc]
  rw [sgrLoop_flag (fun b => { bold := b }) (by decide) rfl,
    sgrLoop_flag (fun b => { bold := sgr.bold, faint := b }) (by decide) rfl,
    sgrLoop_flag (fun b => { bold := sgr.bold, faint := sgr.faint, italic := b }) (by decide) rfl,
    sgrLoop_flag (fun b => { bold := sgr.bold, faint := sgr.faint, italic := sgr.italic, underline := b })
      (by decide) rfl,
    sgrLoop_flag (fun b => { sgr with fg := none, bg := none, blink := b, reverse := false, strikethrough := false })
      (by decide) rfl,
    sgrLoop_flag (fun b => { sgr with fg := none, bg := none, reverse := b, strikethrough := false }) (by decide) rfl,
    sgrLoop_flag (fun b => { sgr with fg := none, bg := none, strikethrough := b }) (by decide) rfl,
    sgrLoop_fg h.fg _ { sgr with bg := none }]
  exact sgrLoop_bg h.bg sgr

/-- The modes after the private mode sequences, from the default ones. -/
def restoredModes (modes : TerminalModes) : TerminalModes :=
  { modes with mouseReporting := if modes.mouseReporting = .anyEvent then .anyEvent else .off }

theorem foldl_modeSettings (modes : TerminalModes) :
    (modeSettings modes).foldl (fun m setting => setMode setting.2 m setting.1) {} = restoredModes modes := by
  obtain ⟨deccm, autowrap, alt, paste, mouse, origin⟩ := modes
  cases mouse <;> rfl

theorem perform_modeEvent (s : AnchorStateMut) (setting : Nat × Bool) :
    s.perform (modeEvent setting) = { s with modes := setMode setting.2 s.modes setting.1 } := by
  obtain ⟨mode, on⟩ := setting
  cases on <;> rfl

theorem performAll_modeEvents : ∀ (settings : List (Nat × Bool)) (s : AnchorStateMut),
    s.performAll (settings.map modeEvent) =
      { s with modes := settings.foldl (fun m setting => setMode setting.2 m setting.1) s.modes }
  | [], _ => rfl
  | setting :: settings, s => by
    show (s.perform (modeEvent setting)).performAll (settings.map modeEvent) = _
    rw [perform_modeEvent, performAll_modeEvents settings]
    rfl

theorem performAll_charsetEvents (charset : CharsetState) (s : AnchorStateMut) :
    s.performAll (charsetEvents charset) = { s with charset := { s.charset with g := charset.g } } := by
  have hg : (((s.charset.g.set 0 charset.g[0]).set 1 charset.g[1]).set 2 charset.g[2]).set 3 charset.g[3] = charset.g := by
    ext i hi
    obtain rfl | rfl | rfl | rfl : i = 0 ∨ i = 1 ∨ i = 2 ∨ i = 3 := by omega
    all_goals simp
  have hperform : s.performAll (charsetEvents charset) = { s with charset := { s.charset with
      g := (((s.charset.g.set 0 charset.g[0]).set 1 charset.g[1]).set 2 charset.g[2]).set 3 charset.g[3] } } := rfl
  rw [hperform, hg]

theorem performAll_append (s : AnchorStateMut) (es fs : List Event) :
    s.performAll (es ++ fs) = (s.performAll es).performAll fs := List.foldl_append

theorem performAll_sgrEvents {sgr : SgrAttrs} (h : sgr.Bounded) {s : AnchorStateMut} (hs : s.sgr = {}) :
    s.performAll (sgrEvents sgr) = { s with sgr := sgr } := by
  have hloop := sgrLoop_sgrParams h
  unfold sgrEvents
  split
  · next he =>
    rw [List.isEmpty_iff.mp he] at hloop
    rw [← hloop, ← hs]
    rfl
  · next he =>
    show { s with sgr := if ((sgrParams sgr).map ([·])).isEmpty then {} else sgrLoop ((sgrParams sgr).map ([·])) 0 s.sgr } = _
    rw [List.isEmpty_map, if_neg he, hs, hloop]

theorem CharsetState.Bounded.eq_mk {charset : CharsetState} (h : charset.Bounded) : charset = { g := charset.g } := by
  obtain ⟨g, gl, gr⟩ := charset
  cases h.gl
  cases h.gr
  rfl

theorem add_one_ne_zero (n : Nat) : Saturating.add u16Max n 1 ≠ 0 := by
  unfold Saturating.add u16Max
  omega

/-- Positions other than zero are taken as they are. -/
theorem cursorPosition_eq (s : AnchorStateMut) {row col : Nat} (hr : row ≠ 0) (hc : col ≠ 0) :
    s.cursorPosition [[row], [col]] = { s with cursorRow := row - 1, cursorCol := col - 1 } := by
  simp [AnchorStateMut.cursorPosition, firstParam, secondParam, paramAt, hr, hc]

/-- The parameter of a cursor position, read back. -/
def restoredPosition (n : Nat) : Nat := Saturating.add u16Max n 1 - 1

/-- **What the prefix does to a fresh tracker.** -/
theorem performAll_prefixEvents {a : AnchorState} (hs : a.sgr.Bounded) (hc : a.charset.Bounded) :
    AnchorStateMut.performAll {} (prefixEvents a) =
      { cursorRow := restoredPosition a.cursor.2, cursorCol := restoredPosition a.cursor.1, sgr := a.sgr,
        modes := restoredModes a.modes, charset := a.charset, title := none } := by
  have hstart : AnchorStateMut.performAll {} [.csiDispatch [[0]] [] false 'm'.toUInt8, modeEvent (25, true)] = {} := rfl
  have hposition : ∀ s : AnchorStateMut, s.performAll [.csiDispatch [[Saturating.add u16Max a.cursor.2 1],
      [Saturating.add u16Max a.cursor.1 1]] [] false 'H'.toUInt8] =
      { s with cursorRow := restoredPosition a.cursor.2, cursorCol := restoredPosition a.cursor.1 } :=
    fun s => cursorPosition_eq s (add_one_ne_zero _) (add_one_ne_zero _)
  unfold prefixEvents
  rw [performAll_append, performAll_append, performAll_append, performAll_append, hstart, performAll_sgrEvents hs rfl,
    performAll_modeEvents, performAll_charsetEvents, hposition, foldl_modeSettings, hc.eq_mk]

/-- The tracker after the prefix of an anchor state in range. -/
theorem advance_renderPrefix {a : AnchorState} (hs : a.sgr.Bounded) (hc : a.charset.Bounded) :
    (AnchorTracker.new.advance (renderPrefixFromAnchor a)).state =
      { cursorRow := restoredPosition a.cursor.2, cursorCol := restoredPosition a.cursor.1, sgr := a.sgr,
        modes := restoredModes a.modes, charset := a.charset, title := none } := by
  have hp : Vte.feed .ground (renderPrefixFromAnchor a) = (.ground, prefixEvents a) := performs_renderPrefix hc
  rw [AnchorTracker.state_advance]
  show AnchorStateMut.performAll {} (Vte.feed .ground (renderPrefixFromAnchor a)).2 = _
  rw [hp, performAll_prefixEvents hs hc]

/-! ## Restoring the anchor -/

/-- Equal in cursor, attributes, modes and charset designations. -/
structure AnchorState.Restored (a b : AnchorState) : Prop where
  cursor : b.cursor = a.cursor
  sgr : b.sgr = a.sgr
  modes : b.modes = a.modes
  charset : b.charset = a.charset

theorem restoredModes_eq_iff {modes : TerminalModes} :
    restoredModes modes = modes ↔ modes.mouseReporting = .off ∨ modes.mouseReporting = .anyEvent := by
  obtain ⟨deccm, autowrap, alt, paste, mouse, origin⟩ := modes
  cases mouse <;> simp [restoredModes]

theorem restoredPosition_eq_iff {n : Nat} (h : n ≤ u16Max) : restoredPosition n = n ↔ n < u16Max := by
  unfold restoredPosition
  rw [Saturating.add_one_sub_one h]
  unfold u16Max
  omega

/-- **When the prefix restores the anchor.** A state that a tracker reached on any byte stream comes back from its
render prefix exactly when mouse reporting is off or reports every event and the cursor is short of the last
position. -/
theorem renderPrefix_restores_iff (bs : List UInt8) :
    (AnchorTracker.new.advance bs).snapshotState.Restored
        (AnchorTracker.new.advance
          (renderPrefixFromAnchor (AnchorTracker.new.advance bs).snapshotState)).snapshotState ↔
      ((AnchorTracker.new.advance bs).snapshotState.modes.mouseReporting = .off ∨
        (AnchorTracker.new.advance bs).snapshotState.modes.mouseReporting = .anyEvent) ∧
      (AnchorTracker.new.advance bs).snapshotState.cursor.1 < u16Max ∧
      (AnchorTracker.new.advance bs).snapshotState.cursor.2 < u16Max := by
  have hb := AnchorTracker.advance_bounded bs
  generalize hs : (AnchorTracker.new.advance bs).snapshotState = a
  have hstate : a.toMut = (AnchorTracker.new.advance bs).state := by rw [← hs]; rfl
  rw [← hstate] at hb
  have hsgr : a.sgr.Bounded := hb.sgr
  have hcharset : a.charset.Bounded := hb.charset
  have hrow := restoredPosition_eq_iff hb.cursorRow
  have hcol := restoredPosition_eq_iff hb.cursorCol
  have hmodes := @restoredModes_eq_iff a.modes
  have hafter := advance_renderPrefix hsgr hcharset
  unfold AnchorTracker.snapshotState
  rw [hafter]
  constructor
  · intro h
    obtain ⟨h₁, h₂⟩ := Prod.ext_iff.mp h.cursor
    exact ⟨hmodes.mp h.modes, hcol.mp h₁, hrow.mp h₂⟩
  · rintro ⟨h₁, h₂, h₃⟩
    exact ⟨Prod.ext (hcol.mpr h₂) (hrow.mpr h₃), rfl, hmodes.mpr h₁, rfl⟩

/-- `ESC [ ? 1000 h` leaves a mode that the prefix switches off again. -/
theorem renderPrefix_loses_mouse_mode :
    ¬ ∀ bs : List UInt8, (AnchorTracker.new.advance bs).snapshotState.Restored
        (AnchorTracker.new.advance
          (renderPrefixFromAnchor (AnchorTracker.new.advance bs).snapshotState)).snapshotState := by
  intro h
  have hm := (h (ascii ['\x1b', '[', '?', '1', '0', '0', '0', 'h'])).modes
  revert hm
  decide +kernel

end CliPocket
