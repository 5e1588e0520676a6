import CliPocket.Lib.Vte
import Mathlib.Tactic.NormNum

/-!
# Control sequences as the parser reads them

From the ground state, a written-out sequence performs one callback and comes back to the ground state:

- `feed_csi`: `ESC [ p ; … ; p final`, with or without the private marker `?`, at most 32 parameters;
- `feed_designate`: `ESC ( final` and its siblings;
- `Performs`, closed under concatenation (`Performs.append`), says that a byte string does so.

A number written in decimal is read back as itself when it fits in a `u16` (`foldl_addDigit`). Whatever the input, the
values in a callback are bounded (`advance_bounded`).
-/

namespace Vte

open Saturating (u16Max)

/-! ## Digits -/

/-- The decimal digits of a number, as bytes. -/
def digitBytes (n : Nat) : List UInt8 := (Nat.toDigits 10 n).map Char.toUInt8

theorem digitBytes_lt {n : Nat} (h : n < 10) : digitBytes n = [UInt8.ofNat (0x30 + n)] := by
  unfold digitBytes
  rw [Nat.toDigits_of_lt_base h]
  match n, h with
  | 0, _ | 1, _ | 2, _ | 3, _ | 4, _ | 5, _ | 6, _ | 7, _ | 8, _ | 9, _ => rfl

theorem digitBytes_ge {n : Nat} (h : 10 ≤ n) : digitBytes n = digitBytes (n / 10) ++ digitBytes (n % 10) := by
  unfold digitBytes
  rw [Nat.toDigits_of_base_le (by decide) h, Nat.toDigits_of_lt_base (Nat.mod_lt n (by decide)), List.map_append]

theorem digitBytes_ne_nil (n : Nat) : digitBytes n ≠ [] := by
  unfold digitBytes
  simp

/-- The bytes of a decimal number are digits. -/
theorem within_of_mem_digitBytes {n : Nat} {b : UInt8} (h : b ∈ digitBytes n) : 0x30 ≤ b.toNat ∧ b.toNat ≤ 0x39 := by
  induction n using Nat.strongRecOn with
  | ind n ih =>
    by_cases hn : n < 10
    · rw [digitBytes_lt hn, List.mem_singleton] at h
      subst h
      rw [UInt8.toNat_ofNat']
      omega
    · rw [digitBytes_ge (by omega), List.mem_append] at h
      rcases h with h | h
      · exact ih (n / 10) (by omega) h
      · exact ih (n % 10) (by omega) h

/-- **Reading back.** The digits of a `u16` accumulate to it without saturating. -/
theorem foldl_addDigit {n : Nat} (h : n ≤ u16Max) : (digitBytes n).foldl addDigit 0 = n := by
  unfold u16Max at h
  induction n using Nat.strongRecOn with
  | ind n ih =>
    by_cases hn : n < 10
    · rw [digitBytes_lt hn]
      simp only [List.foldl_cons, List.foldl_nil, addDigit, Saturating.add, Saturating.mul, u16Max, UInt8.toNat_ofNat']
      omega
    · rw [digitBytes_ge (by omega), List.foldl_append, ih (n / 10) (by omega) (by omega),
        digitBytes_lt (Nat.mod_lt n (by decide))]
      simp only [List.foldl_cons, List.foldl_nil, addDigit, Saturating.add, Saturating.mul, u16Max, UInt8.toNat_ofNat']
      omega

/-- Different numbers have different digits. -/
theorem digitBytes_injective : Function.Injective digitBytes := by
  have hread : ∀ n, (digitBytes n).foldl (fun acc b => acc * 10 + (b.toNat - 0x30)) 0 = n := by
    intro n
    induction n using Nat.strongRecOn with
    | ind n ih =>
      by_cases hn : n < 10
      · rw [digitBytes_lt hn]
        simp only [List.foldl_cons, List.foldl_nil, UInt8.toNat_ofNat']
        omega
      · rw [digitBytes_ge (by omega), List.foldl_append, ih (n / 10) (by omega), digitBytes_lt (Nat.mod_lt n (by decide))]
        simp only [List.foldl_cons, List.foldl_nil, UInt8.toNat_ofNat']
        omega
  exact Function.LeftInverse.injective hread

/-! ## Parameters -/

theorem isC0_eq_false {b : UInt8} (h : 0x20 ≤ b.toNat) : isC0 b = false := by
  have h19 : (b == 0x19) = false := by
    rw [beq_eq_false_iff_ne]
    rintro rfl
    revert h
    decide
  simp only [isC0, within, h19, Bool.or_false, Bool.or_eq_false_iff, Bool.and_eq_false_iff, decide_eq_false_iff_not]
  omega

theorem within_eq_true {lo hi : Nat} {b : UInt8} : within lo hi b = true ↔ lo ≤ b.toNat ∧ b.toNat ≤ hi := by
  simp [within]

theorem within_eq_false {lo hi : Nat} {b : UInt8} : within lo hi b = false ↔ b.toNat < lo ∨ hi < b.toNat := by
  simp only [within, Bool.and_eq_false_iff, decide_eq_false_iff_not]
  omega

/-- A byte from the space up acts only through the row of its state. -/
theorem advance_eq_row (s : State) {b : UInt8} (h : 0x20 ≤ b.toNat) : advance s b = s.row b := by
  have hne : ∀ c : UInt8, c.toNat < 0x20 → (b == c) = false := by
    intro c hc
    rw [beq_eq_false_iff_ne]
    rintro rfl
    omega
  unfold advance
  rw [hne 0x18 (by decide), hne 0x1a (by decide), hne 0x1b (by decide)]
  cases s.inUtf8 <;> rfl

/-- A digit adds to the open parameter. -/
theorem advance_digit {r : Regs} (hr : r.params.isFull = false) {b : UInt8} (h : 0x30 ≤ b.toNat ∧ b.toNat ≤ 0x39) :
    advance (.csiParam r) b = (.csiParam { r with param := addDigit r.param b }, []) := by
  have hne : ∀ c : UInt8, 0x39 < c.toNat → (b == c) = false := by
    intro c hc
    rw [beq_eq_false_iff_ne]
    rintro rfl
    omega
  rw [advance_eq_row _ (by omega)]
  simp only [State.row, advanceCsiParam, isC0_eq_false (show 0x20 ≤ b.toNat by omega)]
  rw [within_eq_true.mpr (show 0x30 ≤ b.toNat ∧ b.toNat ≤ 0x3b by omega)]
  simp [Regs.paramByte, hr, hne 0x3b (by decide), hne 0x3a (by decide)]

/-- Digits perform nothing. -/
theorem feed_digits : ∀ {ds : List UInt8}, (∀ b ∈ ds, 0x30 ≤ b.toNat ∧ b.toNat ≤ 0x39) → ∀ {r : Regs},
    r.params.isFull = false → feed (.csiParam r) ds = (.csiParam { r with param := ds.foldl addDigit r.param }, [])
  | [], _, _, _ => rfl
  | b :: ds, hd, r, hr => by
    have hb := advance_digit hr (hd b List.mem_cons_self)
    have ih := feed_digits (fun c hc => hd c (List.mem_cons_of_mem _ hc)) (r := { r with param := addDigit r.param b }) hr
    rw [feed_cons, hb]
    simp only [ih]
    rfl

/-- A decimal parameter. -/
theorem feed_digitBytes {r : Regs} (hr : r.params.isFull = false) (hp : r.param = 0) {n : Nat} (hn : n ≤ u16Max) :
    feed (.csiParam r) (digitBytes n) = (.csiParam { r with param := n }, []) := by
  rw [feed_digits (fun _ => within_of_mem_digitBytes) hr, hp, foldl_addDigit hn]

theorem advance_semicolon {r : Regs} (hr : r.params.isFull = false) :
    advance (.csiParam r) 0x3b = (.csiParam { r with params := r.params.push r.param, param := 0 }, []) := by
  show (State.csiParam (r.paramByte 0x3b), []) = _
  simp [Regs.paramByte, hr]

theorem advance_final {r : Regs} {final : UInt8} (h : 0x40 ≤ final.toNat ∧ final.toNat ≤ 0x7e) :
    advance (.csiParam r) final = (.ground, [r.csi final]) := by
  rw [advance_eq_row _ (by omega)]
  simp only [State.row, advanceCsiParam, isC0_eq_false (show 0x20 ≤ final.toNat by omega),
    within_eq_false.mpr (show final.toNat < 0x30 ∨ 0x3b < final.toNat by omega),
    within_eq_false.mpr (show final.toNat < 0x3c ∨ 0x3f < final.toNat by omega),
    within_eq_false.mpr (show final.toNat < 0x20 ∨ 0x2f < final.toNat by omega), within_eq_true.mpr h]
  rfl

/-- The bytes of a parameter list. -/
def paramBytes (ps : List Nat) : List UInt8 := List.intercalate [0x3b] (ps.map digitBytes)

theorem paramBytes_singleton (p : Nat) : paramBytes [p] = digitBytes p := by
  simp [paramBytes, List.intercalate]

theorem paramBytes_cons_cons (p q : Nat) (ps : List Nat) :
    paramBytes (p :: q :: ps) = digitBytes p ++ 0x3b :: paramBytes (q :: ps) := by
  simp [paramBytes, List.intercalate]

theorem Params.isFull_eq_false {ps : Params} (h : ps.len < maxParams) : ps.isFull = false := by
  simp only [isFull, beq_eq_false_iff_ne]
  omega

/-- Parameters after those already closed, up to the final byte. -/
theorem feed_paramBytes {final : UInt8} (hf : 0x40 ≤ final.toNat ∧ final.toNat ≤ 0x7e) :
    ∀ (ps : List Nat), ps ≠ [] → (∀ p ∈ ps, p ≤ u16Max) → ∀ (r : Regs), r.param = 0 → r.params.current = [] →
      r.params.len + ps.length ≤ Params.maxParams →
      feed (.csiParam r) (paramBytes ps ++ [final]) =
        (.ground, [.csiDispatch (r.params.groups ++ ps.map ([·])) r.intermediates r.ignoring final])
  | [], hne, _, _, _, _, _ => absurd rfl hne
  | [p], _, hp, r, h0, hc, hl => by
    have hfull : r.params.isFull = false :=
      Params.isFull_eq_false (by simp only [List.length_singleton] at hl; omega)
    rw [paramBytes_singleton, feed_append, feed_digitBytes hfull h0 (hp p List.mem_cons_self), feed_cons,
      advance_final hf]
    simp [Regs.csi, Regs.finish, hfull, Params.push, Params.toList, hc]
  | p :: q :: ps, _, hp, r, h0, hc, hl => by
    have hfull : r.params.isFull = false := Params.isFull_eq_false (by simp only [List.length_cons] at hl; omega)
    have hlen : (r.params.push p).len = r.params.len + 1 := by
      simp [Params.push, Params.len, hc]
    rw [paramBytes_cons_cons, List.append_assoc, feed_append, feed_digitBytes hfull h0 (hp p List.mem_cons_self),
      List.cons_append, feed_cons, advance_semicolon (by exact hfull)]
    have ih := feed_paramBytes hf (q :: ps) (List.cons_ne_nil _ _) (fun x hx => hp x (List.mem_cons_of_mem _ hx))
      { r with params := r.params.push p, param := 0 } rfl rfl
      (by rw [hlen]; simp only [List.length_cons] at hl ⊢; omega)
    rw [ih]
    simp [Params.push, hc]

/-- The first parameter byte after `ESC [` starts a parameter list. -/
theorem feed_csiEntry {b : UInt8} (h : 0x30 ≤ b.toNat ∧ b.toNat ≤ 0x39) (bs : List UInt8) :
    feed .csiEntry (b :: bs) = feed (.csiParam {}) (b :: bs) := by
  have hrow : advance .csiEntry b = advance (.csiParam {}) b := by
    rw [advance_eq_row _ (by omega), advance_eq_row _ (by omega)]
    simp only [State.row, advanceCsiEntry, advanceCsiParam, isC0_eq_false (show 0x20 ≤ b.toNat by omega),
      within_eq_false.mpr (show b.toNat < 0x20 ∨ 0x2f < b.toNat by omega),
      within_eq_true.mpr (show 0x30 ≤ b.toNat ∧ b.toNat ≤ 0x3b by omega)]
    rfl
  rw [feed_cons, feed_cons, hrow]

theorem exists_cons_paramBytes {ps : List Nat} (h : ps ≠ []) :
    ∃ b bs, paramBytes ps = b :: bs ∧ 0x30 ≤ b.toNat ∧ b.toNat ≤ 0x39 := by
  match ps, h with
  | [p], _ =>
    obtain ⟨b, bs, hb⟩ := List.exists_cons_of_ne_nil (digitBytes_ne_nil p)
    exact ⟨b, bs, by rw [paramBytes_singleton, hb], within_of_mem_digitBytes (by rw [hb]; exact List.mem_cons_self)⟩
  | p :: q :: ps, _ =>
    obtain ⟨b, bs, hb⟩ := List.exists_cons_of_ne_nil (digitBytes_ne_nil p)
    exact ⟨b, bs ++ 0x3b :: paramBytes (q :: ps), by rw [paramBytes_cons_cons, hb]; rfl,
      within_of_mem_digitBytes (by rw [hb]; exact List.mem_cons_self)⟩

/-! ## Sequences from the ground state -/

/-- From the ground state, the bytes perform the callbacks and lead back to the ground state. -/
def Performs (bs : List UInt8) (es : List Event) : Prop := feed .ground bs = (.ground, es)

theorem Performs.append {xs ys : List UInt8} {es fs : List Event} (hx : Performs xs es) (hy : Performs ys fs) :
    Performs (xs ++ ys) (es ++ fs) := by
  unfold Performs at *
  rw [feed_append, hx, hy]

/-- `ESC [ p ; … ; p final`, with the private marker `?` when `priv`. -/
def csi (priv : Bool) (ps : List Nat) (final : UInt8) : List UInt8 :=
  [0x1b, 0x5b] ++ (if priv then [0x3f] else []) ++ paramBytes ps ++ [final]

/-- **A control sequence performs its dispatch and nothing else.** -/
theorem feed_csi (priv : Bool) (ps : List Nat) {final : UInt8} (hne : ps ≠ []) (hp : ∀ p ∈ ps, p ≤ u16Max)
    (hl : ps.length ≤ Params.maxParams) (hf : 0x40 ≤ final.toNat ∧ final.toNat ≤ 0x7e) :
    Performs (csi priv ps final) [.csiDispatch (ps.map ([·])) (if priv then [0x3f] else []) false final] := by
  unfold Performs
  cases priv with
  | true =>
    show feed (.csiParam { intermediates := [0x3f] }) (paramBytes ps ++ [final]) = _
    rw [feed_paramBytes hf ps hne hp _ rfl rfl (by simpa [Params.len] using hl)]
    rfl
  | false =>
    obtain ⟨b, bs, hb, hd⟩ := exists_cons_paramBytes hne
    show feed .csiEntry (paramBytes ps ++ [final]) = _
    have h := feed_paramBytes hf ps hne hp {} rfl rfl (by simpa [Params.len] using hl)
    rw [hb, List.cons_append] at h ⊢
    rw [feed_csiEntry hd, h]
    rfl

/-- **A character set designation performs its dispatch and nothing else.** -/
theorem feed_designate {marker final : UInt8} (hm : 0x20 ≤ marker.toNat ∧ marker.toNat ≤ 0x2f)
    (hf : 0x30 ≤ final.toNat ∧ final.toNat ≤ 0x7e) :
    Performs [0x1b, marker, final] [.escDispatch [marker] false final] := by
  have h₁ : advance .escape marker = (.escapeIntermediate (Regs.collect {} marker), []) := by
    rw [advance_eq_row _ (by omega)]
    simp only [State.row, advanceEscape, isC0_eq_false hm.1, within_eq_true.mpr hm]
    rfl
  have h₂ : advance (.escapeIntermediate (Regs.collect {} marker)) final =
      (.ground, [.escDispatch [marker] false final]) := by
    rw [advance_eq_row _ (by omega)]
    simp only [State.row, advanceEscapeIntermediate, isC0_eq_false (show 0x20 ≤ final.toNat by omega),
      within_eq_false.mpr (show final.toNat < 0x20 ∨ 0x2f < final.toNat by omega), within_eq_true.mpr hf]
    rfl
  show feed .escape [marker, final] = _
  rw [feed_cons, h₁, feed_cons, h₂]
  rfl

/-! ## Bounds -/

/-- All values fit in a `u16`. -/
def Regs.Bounded (r : Regs) : Prop :=
  r.param ≤ u16Max ∧ (∀ g ∈ r.params.groups, ∀ p ∈ g, p ≤ u16Max) ∧ ∀ p ∈ r.params.current, p ≤ u16Max

def State.Bounded : State → Prop
  | .escapeIntermediate r | .csiParam r | .csiIntermediate r | .dcsParam r | .dcsIntermediate r => r.Bounded
  | _ => True

/-- Parameters fit in a `u16`, and an escape sequence ends in a final byte. -/
def Event.Bounded : Event → Prop
  | .csiDispatch ps _ _ _ => ∀ g ∈ ps, ∀ p ∈ g, p ≤ u16Max
  | .escDispatch _ _ byte => 0x30 ≤ byte.toNat ∧ byte.toNat ≤ 0x7e
  | _ => True

theorem Regs.bounded_empty : Regs.Bounded {} := ⟨Nat.zero_le _, by simp, by simp⟩

theorem Regs.Bounded.collect {r : Regs} (h : r.Bounded) (byte : UInt8) : (r.collect byte).Bounded := by
  unfold Regs.collect
  split <;> exact h

theorem Regs.Bounded.push {r : Regs} (h : r.Bounded) : ∀ g ∈ (r.params.push r.param).groups, ∀ p ∈ g, p ≤ u16Max := by
  obtain ⟨h₁, h₂, h₃⟩ := h
  intro g hg p hp
  simp only [Params.push, List.mem_append, List.mem_singleton] at hg
  rcases hg with hg | rfl
  · exact h₂ g hg p hp
  · rcases List.mem_append.mp hp with hp | hp
    · exact h₃ p hp
    · rw [List.mem_singleton.mp hp]
      exact h₁

theorem Regs.Bounded.paramByte {r : Regs} (h : r.Bounded) (byte : UInt8) : (r.paramByte byte).Bounded := by
  unfold Regs.paramByte
  split
  · exact h
  split
  · exact ⟨Nat.zero_le _, h.push, by simp [Params.push]⟩
  split
  · refine ⟨Nat.zero_le _, h.2.1, fun p hp => ?_⟩
    rcases List.mem_append.mp hp with hp | hp
    · exact h.2.2 p hp
    · rw [List.mem_singleton.mp hp]
      exact h.1
  · exact ⟨Saturating.add_le _ _ _, h.2⟩

/-- The parameters of a dispatch are bounded. -/
theorem Regs.Bounded.csi {r : Regs} (h : r.Bounded) (action : UInt8) : (r.csi action).Bounded := by
  intro g hg p hp
  unfold Regs.finish at hg
  split at hg
  · unfold Params.toList at hg
    split at hg
    · exact h.2.1 g hg p hp
    · rcases List.mem_append.mp hg with hg | hg
      · exact h.2.1 g hg p hp
      · rw [List.mem_singleton.mp hg] at hp
        exact h.2.2 p hp
  · exact h.push g hg p hp

theorem State.leave_bounded (s : State) : ∀ e ∈ s.leave, e.Bounded := by
  intro e he
  cases s with
  | dcsPassthrough =>
    rw [List.mem_singleton.mp he]
    trivial
  | oscString o =>
    rw [List.mem_singleton.mp he]
    trivial
  | _ => cases he

/-- The state and the callbacks of one byte. -/
def RowBounded (p : State × List Event) : Prop := p.1.Bounded ∧ ∀ e ∈ p.2, e.Bounded

theorem RowBounded.nil {s : State} (h : s.Bounded) : RowBounded (s, []) := ⟨h, fun _ he => by cases he⟩

theorem RowBounded.one {s : State} {e : Event} (h : s.Bounded) (he : e.Bounded) : RowBounded (s, [e]) :=
  ⟨h, fun _ hmem => List.mem_singleton.mp hmem ▸ he⟩

theorem RowBounded.ite {c : Prop} [Decidable c] {p q : State × List Event} (hp : c → RowBounded p)
    (hq : ¬c → RowBounded q) : RowBounded (if c then p else q) := by
  split
  · next h => exact hp h
  · next h => exact hq h

/-- The row of a state keeps the bounds: its branches in turn. -/
theorem State.row_bounded {s : State} (h : s.Bounded) (byte : UInt8) : RowBounded (s.row byte) := by
  have hcollect := Regs.bounded_empty.collect byte
  have hparam := Regs.bounded_empty.paramByte byte
  have hcsi := Regs.bounded_empty.csi byte
  cases s with
  | ground =>
    have hutf8 : (beginUtf8 byte).Bounded := by
      unfold beginUtf8
      dsimp only
      split_ifs <;> trivial
    exact .ite (fun _ => .one trivial trivial) fun _ => .ite (fun _ => .one trivial trivial) fun _ =>
      .ite (fun _ => .one trivial trivial) fun _ => .ite (fun _ => .nil hutf8) fun _ => .nil trivial
  | utf8 u point =>
    show RowBounded (advanceUtf8 u point byte)
    unfold advanceUtf8
    split
    all_goals first | exact .one trivial trivial | exact .nil trivial
  | escape =>
    exact .ite (fun _ => .one trivial trivial) fun _ => .ite (fun _ => .nil hcollect) fun _ =>
      .ite (fun _ => .nil trivial) fun _ => .ite (fun _ => .nil trivial) fun _ => .ite (fun _ => .nil trivial) fun _ =>
      .ite (fun _ => .nil trivial) fun _ => .ite (fun hfinal => .one trivial (within_eq_true.mp hfinal)) fun _ =>
      .nil trivial
  | escapeIntermediate r =>
    exact .ite (fun _ => .one h trivial) fun _ => .ite (fun _ => .nil (h.collect byte)) fun _ =>
      .ite (fun hfinal => .one trivial (within_eq_true.mp hfinal)) fun _ => .nil h
  | csiEntry =>
    exact .ite (fun _ => .one trivial trivial) fun _ => .ite (fun _ => .nil hcollect) fun _ =>
      .ite (fun _ => .nil hparam) fun _ => .ite (fun _ => .nil hcollect) fun _ =>
      .ite (fun _ => .one trivial hcsi) fun _ => .nil trivial
  | csiParam r =>
    exact .ite (fun _ => .one h trivial) fun _ => .ite (fun _ => .nil (h.paramByte byte)) fun _ =>
      .ite (fun _ => .nil trivial) fun _ => .ite (fun _ => .nil (h.collect byte)) fun _ =>
      .ite (fun _ => .one trivial (h.csi byte)) fun _ => .nil h
  | csiIntermediate r =>
    exact .ite (fun _ => .one h trivial) fun _ => .ite (fun _ => .nil (h.collect byte)) fun _ =>
      .ite (fun _ => .nil trivial) fun _ => .ite (fun _ => .one trivial (h.csi byte)) fun _ => .nil h
  | csiIgnore =>
    exact .ite (fun _ => .one trivial trivial) fun _ => .ite (fun _ => .nil trivial) fun _ => .nil trivial
  | dcsEntry =>
    exact .ite (fun _ => .nil hcollect) fun _ => .ite (fun _ => .nil hparam) fun _ =>
      .ite (fun _ => .nil hcollect) fun _ => .ite (fun _ => .one trivial trivial) fun _ => .nil trivial
  | dcsParam r =>
    exact .ite (fun _ => .nil (h.paramByte byte)) fun _ => .ite (fun _ => .nil trivial) fun _ =>
      .ite (fun _ => .nil (h.collect byte)) fun _ => .ite (fun _ => .one trivial trivial) fun _ => .nil h
  | dcsIntermediate r =>
    exact .ite (fun _ => .nil (h.collect byte)) fun _ => .ite (fun _ => .nil trivial) fun _ =>
      .ite (fun _ => .one trivial trivial) fun _ => .nil h
  | dcsPassthrough =>
    exact .ite (fun _ => .one trivial trivial) fun _ => .ite (fun _ => .one trivial trivial) fun _ => .nil trivial
  | dcsIgnore => exact .nil (by split <;> trivial)
  | oscString o =>
    exact .ite (fun _ => .one trivial trivial) fun _ => .ite (fun _ => .nil trivial) fun _ => .nil trivial
  | sosPmApcString => exact .nil (by split <;> trivial)

theorem advance_bounded {s : State} (h : s.Bounded) (byte : UInt8) :
    (advance s byte).1.Bounded ∧ ∀ e ∈ (advance s byte).2, e.Bounded := by
  unfold advance
  split
  · exact State.row_bounded h byte
  split
  · refine ⟨trivial, fun e he => ?_⟩
    rcases List.mem_append.mp he with he | he
    · exact s.leave_bounded e he
    · rw [List.mem_singleton.mp he]
      trivial
  split
  · exact ⟨trivial, s.leave_bounded⟩
  · exact State.row_bounded h byte

/-- **Every callback is bounded**, whatever the bytes. -/
theorem feed_bounded : ∀ (bs : List UInt8) {s : State}, s.Bounded → ∀ e ∈ (feed s bs).2, e.Bounded
  | [], _, _, _, he => by cases he
  | b :: bs, s, h, e, he => by
    obtain ⟨h₁, h₂⟩ := advance_bounded h b
    rw [feed_cons] at he
    rcases List.mem_append.mp he with he | he
    · exact h₂ e he
    · exact feed_bounded bs h₁ e he

end Vte
