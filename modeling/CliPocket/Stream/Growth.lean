import CliPocket.Stream.Follow
import CliPocket.Stream.Talk

/-!
# The terminals of a daemon go on

- `Daemon.Recorded`: every terminal belongs to one stream of output;
- `Daemon.Grown`: the terminals have gone on, and none has been lost;
- `grown_terminal`, `grown_create`, `grown_receiveFrame`: one lemma for each thing that happens to them.
-/

namespace CliPocket

open Saturating (u64Max)

namespace Daemon

variable {d e f : Daemon} {torn : Prop}

/-- Every terminal belongs to one stream of output, whose end is a sequence number. -/
def Recorded (d : Daemon) : Prop :=
  ∀ id t, d.terminals.lookup id = some t → t.Sound ∧ t.output.length ≤ u64Max

/-- The terminals have gone on. -/
structure Grown (torn : Prop) (d e : Daemon) : Prop where
  recorded : e.Recorded
  grows : ∀ id t, d.terminals.lookup id = some t → ∃ u, e.terminals.lookup id = some u ∧ Terminal.Grows torn t u

theorem Recorded.grown_of_terminals (h : d.Recorded) (hterminals : e.terminals = d.terminals) : Grown torn d e where
  recorded id t ht := h id t (hterminals ▸ ht)
  grows id t ht := by
    obtain ⟨hsound, hroom⟩ := h id t ht
    exact ⟨t, by rw [hterminals, ht], Terminal.grows_of_same hsound hroom rfl rfl⟩

/-- One terminal has gone on. -/
theorem Recorded.grown_setTerminal (h : d.Recorded) {id : TerminalId} {t u : Terminal} (ht : d.terminals.lookup id = some t)
    (hu : Terminal.Grows torn t u) : Grown torn d (d.setTerminal id u) where
  recorded id' t' ht' := by
    by_cases hid : id' = id
    · subst hid
      cases (AList.lookup_insert _).symm.trans ht'
      exact ⟨hu.sound, hu.room⟩
    · exact h id' t' ((AList.lookup_insert_ne hid).symm.trans ht')
  grows id' t' ht' := by
    by_cases hid : id' = id
    · subst hid
      cases ht.symm.trans ht'
      exact ⟨u, AList.lookup_insert _, hu⟩
    · obtain ⟨hsound, hroom⟩ := h id' t' ht'
      exact ⟨t', (AList.lookup_insert_ne hid).trans ht', Terminal.grows_of_same hsound hroom rfl rfl⟩

/-- **A terminal moves**, before its head saturates. -/
theorem Recorded.grown_terminal (h : d.Recorded) {id : TerminalId} {t u : Terminal} {move : TerminalMove}
    (ht : d.terminals.lookup id = some t) (hmove : ∀ bytes, move = .push bytes → t.ring.headSeq + bytes.length ≤ u64Max)
    (hs : moveTerminal t move = some u) : Grown torn d (d.setTerminal id u) := by
  obtain ⟨hsound, hroom⟩ := h id t ht
  exact h.grown_setTerminal ht (hsound.grows hroom hmove hs)

/-- **A new terminal.** -/
theorem Recorded.grown_create (h : d.Recorded) {params : TerminalCreateParams} {env : Env} {info : TerminalInfo}
    (hfresh : Talk.freshSpawn d env = true) (hs : d.create params env = .ok (e, info)) : Grown torn d e := by
  unfold create at hs
  split at hs
  · cases hs
  · split at hs
    · cases hs
    · next id hid =>
      split at hs
      · cases hs
      · next ring hring =>
        cases hs
        unfold Talk.freshSpawn at hfresh
        rw [hid] at hfresh
        have hnone : d.terminals.lookup id = none := Option.isNone_iff_eq_none.mp hfresh
        refine ⟨?_, ?_⟩
        · intro id' t' ht'
          by_cases hne : id' = id
          · subst hne
            cases (AList.lookup_insert _).symm.trans ht'
            exact ⟨Terminal.sound_new (ScrollbackRing.new_window hring) _ _, Nat.zero_le _⟩
          · exact h id' t' ((AList.lookup_insert_ne hne).symm.trans ht')
        · intro id' t' ht'
          have hne : id' ≠ id := by
            rintro rfl
            cases hnone.symm.trans ht'
          obtain ⟨hsound, hroom⟩ := h id' t' ht'
          exact ⟨t', (AList.lookup_insert_ne hne).trans ht', Terminal.grows_of_same hsound hroom rfl rfl⟩

/-- **A request.** -/
theorem Recorded.grown_handleRequest (h : d.Recorded) (request : RequestFrame) {env : Env}
    (hfresh : Talk.freshSpawn d env = true) : Grown torn d (d.handleRequest request env).1 := by
  have hsame : Grown torn d d := h.grown_of_terminals rfl
  unfold handleRequest
  dsimp only
  split
  · exact hsame
  · split
    · next hcreate => exact h.grown_create hfresh hcreate
    · exact hsame
  · exact hsame
  · split <;> exact hsame
  · split
    · exact hsame
    · split
      · exact hsame
      · split <;> exact hsame
  · split <;> exact hsame
  · split
    · exact h.grown_of_terminals rfl
    · exact hsame
  · split <;> exact hsame
  · split
    · split
      · next terminal hterminal =>
        split
        · exact hsame
        · refine h.grown_terminal hterminal ?_ (show moveTerminal terminal (.resize _ _) = some _ from rfl)
          nofun
      · exact hsame
    · exact hsame

/-- **A frame of the client's.** -/
theorem Recorded.grown_receiveFrame (h : d.Recorded) {frame : FrameBody} {env : Env} {reply : Option FrameBody}
    (hfresh : Talk.freshSpawn d env = true) (hs : d.receiveFrame frame env = some (e, reply)) : Grown torn d e := by
  unfold receiveFrame at hs
  split at hs
  · split at hs
    · next id terminalId =>
      cases hs
      split
      · exact h.grown_of_terminals rfl
      · exact h.grown_of_terminals rfl
    · cases hs
      exact h.grown_handleRequest _ hfresh
    · cases hs
      exact h.grown_of_terminals rfl
    · cases hs
      exact h.grown_of_terminals rfl
    · cases hs
      exact h.grown_of_terminals rfl
  · cases hs

/-- An open changes no terminal. -/
theorem openStep_terminals {reply : Option ResponseFrame} (h : d.openStep = some (e, reply)) : e.terminals = d.terminals := by
  obtain ⟨_, _, _, _, _, _, rfl, _⟩ | ⟨_, _, _, _, _, _, _, rfl, _⟩ |
    ⟨_, _, _, _, _, _, ⟨rfl, _⟩ | ⟨_, _, rfl, _⟩⟩ | ⟨_, _, _, _, _, _, _, _, _, rfl, _⟩ := openStep_cases h
  all_goals rfl

end Daemon

end CliPocket
