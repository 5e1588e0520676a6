import CliPocket.Stream.Growth

/-!
# Paging back

A client that has opened a terminal asks for the output before what it has, as long as the last answer said that there is
more. Two places say so: the answer to the open, which asks the ring for one byte more, and the pages.

- `Pager.step`: one move of the client, the daemon or a terminal;
- `Complete`: what the client has received is the output before the snapshot, and it stops at what is retained;
- `complete_turn`, `complete_ack`: a page keeps it, an answer to the open begins it, unless one byte is retained before
  the snapshot;
- `paging_is_complete`: **paging back reaches everything retained**.
-/

namespace CliPocket

open Saturating (u64Max)
open Steps (run Meets)

/-! ## The client -/

/-- An answer to `ReadHistory`: what it was asked before, and the tail that was retained then. -/
structure Answer where
  asked : StreamSeq
  page : HistoryPage
  tail : StreamSeq

/-- What a client has loaded. `before` is the smallest `start_seq` it has received, `more` is what the last answer said;
`tail` was the tail then. -/
structure Loaded where
  ack : OpenTerminalAck
  answers : List Answer := []
  before : StreamSeq
  more : Bool
  tail : StreamSeq

/-- The answer to the open. -/
def Loaded.ofAck (ack : OpenTerminalAck) (tail : StreamSeq) : Loaded where
  ack := ack
  before := ack.startSeq
  more := ack.hasMoreHistory
  tail := tail

/-- An answer to `ReadHistory`. -/
def Loaded.turn (l : Loaded) (page : HistoryPage) (tail : StreamSeq) : Loaded :=
  { l with
    answers := l.answers ++ [{ asked := l.before, page, tail }]
    before := min l.before page.startSeq
    more := page.hasMore
    tail }

/-- A client that pages back in one terminal. -/
structure Pager where
  daemon : Daemon
  terminalId : TerminalId
  loaded : Option Loaded := none

namespace Pager

inductive Move
  | openTerminal (id : RequestId)
  | openStep
  | readHistory (id : RequestId) (maxBytes : Nat) (env : Env)
  | terminal (id : TerminalId) (move : Daemon.TerminalMove)
  | create (params : TerminalCreateParams) (env : Env)
  | configure (scrollbackBytes : Nat)

/-- The tail that is retained. -/
def tail (p : Pager) : StreamSeq := (p.daemon.terminals.lookup p.terminalId).elim 0 fun terminal => terminal.ring.tailSeq

/-- What the client has, behind a step of the open. -/
def opened (p : Pager) : Option ResponseFrame → Option Loaded
  | some ⟨_, .ok (.openTerminal ack)⟩ => some (.ofAck ack p.tail)
  | _ => p.loaded

def step (p : Pager) : Move → Option Pager
  | .openTerminal id =>
    match p.daemon.task with
    | .select => some { p with daemon := (p.daemon.openStart id p.terminalId).1, loaded := none }
    | _ => none
  | .openStep => p.daemon.openStep.map fun (daemon, reply) => { p with daemon, loaded := p.opened reply }
  | .readHistory id maxBytes env =>
    match p.daemon.task, p.loaded with
    | .select, some l =>
      if l.more && 1 ≤ maxBytes then
        match p.daemon.handleRequest ⟨id, .readHistory p.terminalId (some l.before) maxBytes⟩ env with
        | (daemon, ⟨_, .ok (.readHistory page)⟩) => some { p with daemon, loaded := some (l.turn page p.tail) }
        | _ => none
      else none
    | _, _ => none
  | .terminal id move =>
    match p.daemon.terminals.lookup id with
    | none => none
    | some t => (Daemon.moveTerminal t move).map fun t => { p with daemon := p.daemon.setTerminal id t }
  | .create params env =>
    if Talk.freshSpawn p.daemon env then
      match p.daemon.create params env with
      | .ok (daemon, _) => some { p with daemon }
      | .error _ => none
    else none
  | .configure scrollbackBytes => some { p with daemon := { p.daemon with scrollbackBytes } }

/-- A daemon without terminals. -/
def new (terminalId : TerminalId) (maxTerminals scrollbackBytes : Nat) : Pager where
  daemon := { maxTerminals, scrollbackBytes }
  terminalId := terminalId

end Pager

/-! ## What is received -/

/-- The pages, oldest output first, are the output from `before` to the snapshot; a page is empty only when all before it
is gone; and the client stops when it has what was retained at the last answer. -/
structure Complete (L : List UInt8) (l : Loaded) : Prop where
  before_le : l.before ≤ l.ack.startSeq
  start_le : l.ack.startSeq ≤ L.length
  pages : (l.answers.reverse.flatMap fun answer => answer.page.bytes) = (L.take l.ack.startSeq).drop l.before
  empty : ∀ answer ∈ l.answers, answer.page.bytes = [] → answer.asked ≤ answer.tail
  more : l.more = false ↔ l.before ≤ l.tail

section Pages

variable {L : List UInt8} {l : Loaded} {r : ScrollbackRing}

theorem Complete.mono (h : Complete L l) (M : List UInt8) : Complete (L ++ M) l where
  before_le := h.before_le
  start_le := by
    rw [List.length_append]
    exact Nat.le_add_right_of_le h.start_le
  pages := by
    rw [List.take_append_of_le_length h.start_le]
    exact h.pages
  empty := h.empty
  more := h.more

/-- A page, when all before it is gone, and when it is not. -/
theorem page_cases (hw : Window r L) {before : Nat} (hbefore : before ≤ L.length) (maxBytes : Nat) : ∃ start : Nat,
    (r.historyPage (some before) maxBytes).startSeq = start ∧
    ((before < r.tailOffset ∧ start = r.tailOffset ∧ (r.historyPage (some before) maxBytes).bytes = [] ∧
        (r.historyPage (some before) maxBytes).hasMore = false) ∨
      (r.tailOffset ≤ before ∧ start ≤ before ∧ before - start = min maxBytes (before - r.tailOffset) ∧
        (r.historyPage (some before) maxBytes).bytes = (L.take before).drop start ∧
        ((r.historyPage (some before) maxBytes).hasMore = true ↔ r.tailOffset < start))) := by
  obtain ⟨hend, hle, hlength, hpage, hhas⟩ := hw.historyPage_eq (some before) maxBytes
  rw [Option.getD_some, hw.head] at hend
  unfold ScrollbackRing.clamp at hend
  refine ⟨_, rfl, ?_⟩
  by_cases hgone : before < r.tailOffset
  · rw [if_pos (show before < r.tailSeq from hgone)] at hend
    have hsame : (r.historyPage (some before) maxBytes).startSeq = r.tailOffset := by
      rw [hend, Nat.sub_self, Nat.min_zero] at hlength
      rw [hend] at hle
      exact Nat.le_antisymm hle (Nat.le_of_sub_eq_zero hlength)
    refine .inl ⟨hgone, hsame, ?_, ?_⟩
    · rw [hpage, hsame, hend]
      exact List.drop_of_length_le (List.length_take_le _ _)
    · rw [← Bool.not_eq_true, hhas, hsame]
      exact Nat.lt_irrefl _
  · rw [if_neg (show ¬before < r.tailSeq from hgone), if_neg (Nat.not_lt.mpr hbefore)] at hend
    rw [hend] at hle hlength hpage
    exact .inr ⟨Nat.not_lt.mp hgone, hle, hlength, hpage, hhas⟩

/-- **A page.** -/
theorem complete_turn (h : Complete L l) (hw : Window r L) {maxBytes : Nat} (hmax : 1 ≤ maxBytes) {page : HistoryPage}
    (hstart : page.startSeq = (r.historyPage (some l.before) maxBytes).startSeq)
    (hbytes : page.bytes = (r.historyPage (some l.before) maxBytes).bytes)
    (hmore : page.hasMore = (r.historyPage (some l.before) maxBytes).hasMore) : Complete L (l.turn page r.tailSeq) := by
  have hpages : ((l.turn page r.tailSeq).answers.reverse.flatMap fun answer => answer.page.bytes) =
      page.bytes ++ (L.take l.ack.startSeq).drop l.before := by
    unfold Loaded.turn
    dsimp only
    rw [List.reverse_append, List.reverse_singleton, List.singleton_append, List.flatMap_cons, h.pages]
  obtain ⟨start, heq, hcases⟩ := page_cases hw (Nat.le_trans h.before_le h.start_le) maxBytes
  rw [heq] at hstart
  rcases hcases with ⟨hgone, hsame, hnil, hhas⟩ | ⟨hkept, hle, hlength, hpage, hhas⟩
  · have hmin : min l.before page.startSeq = l.before := by
      rw [hstart, hsame]
      exact Nat.min_eq_left (Nat.le_of_lt hgone)
    have hempty : page.bytes = [] := hbytes.trans hnil
    refine ⟨?_, h.start_le, ?_, ?_, ?_⟩
    · show min l.before page.startSeq ≤ _
      rw [hmin]
      exact h.before_le
    · refine hpages.trans ?_
      show _ = (L.take l.ack.startSeq).drop (min l.before page.startSeq)
      rw [hmin, hempty, List.nil_append]
    · intro answer ha _
      rcases List.mem_append.mp ha with ha | ha
      · exact h.empty answer ha ‹_›
      · cases List.mem_singleton.mp ha
        exact Nat.le_of_lt hgone
    · show page.hasMore = false ↔ min l.before page.startSeq ≤ r.tailSeq
      rw [hmin, hmore, hhas]
      exact iff_of_true rfl (Nat.le_of_lt hgone)
  · have hmin : min l.before page.startSeq = start := by
      rw [hstart]
      exact Nat.min_eq_right hle
    refine ⟨?_, h.start_le, ?_, ?_, ?_⟩
    · show min l.before page.startSeq ≤ _
      rw [hmin]
      exact Nat.le_trans hle h.before_le
    · refine hpages.trans ?_
      show _ = (L.take l.ack.startSeq).drop (min l.before page.startSeq)
      rw [hmin, hbytes, hpage]
      exact drop_take_append hle h.before_le
    · intro answer ha hnil
      rcases List.mem_append.mp ha with ha | ha
      · exact h.empty answer ha hnil
      · cases List.mem_singleton.mp ha
        have hnil : page.bytes = [] := hnil
        have hzero : ((L.take l.before).drop start).length = 0 := by
          rw [← hpage, ← hbytes, hnil]
          rfl
        have hlong : l.before ≤ L.length := Nat.le_trans h.before_le h.start_le
        rw [List.length_drop, List.length_take, Nat.min_eq_left hlong, hlength] at hzero
        rcases Nat.min_eq_zero_iff.mp hzero with hzero | hzero
        · omega
        · exact Nat.le_of_sub_eq_zero hzero
    · show page.hasMore = false ↔ min l.before page.startSeq ≤ r.tailSeq
      rw [hmin, hmore, ← Bool.not_eq_true, hhas]
      exact Nat.not_lt

/-- **The answer to the open** says whether more than one byte is retained before the snapshot. -/
theorem hasMore_probe (hw : Window r L) {start : Nat} (hstart : start ≤ L.length) :
    (r.historyPage (some start) 1).hasMore = true ↔ r.tailOffset + 1 < start := by
  obtain ⟨first, _, ⟨hgone, _, _, hhas⟩ | ⟨hkept, hle, hlength, _, hhas⟩⟩ := page_cases hw hstart 1
  · rw [hhas]
    exact iff_of_false nofun (by omega)
  · rw [hhas]
    omega

/-- It begins what is received, unless one byte is. -/
theorem complete_ack (hw : Window r L) {ack : OpenTerminalAck} (hstart : ack.startSeq ≤ L.length)
    (hmore : ack.hasMoreHistory = (r.historyPage (some ack.startSeq) 1).hasMore) (hone : r.tailOffset + 1 ≠ ack.startSeq) :
    Complete L (.ofAck ack r.tailSeq) where
  before_le := Nat.le_refl _
  start_le := hstart
  pages := (List.drop_of_length_le (List.length_take_le _ _)).symm
  empty := nofun
  more := by
    show ack.hasMoreHistory = false ↔ ack.startSeq ≤ r.tailSeq
    rw [hmore, ← Bool.not_eq_true, hasMore_probe hw hstart, Nat.not_lt]
    exact ⟨fun h => Nat.lt_succ_iff.mp (Nat.lt_of_le_of_ne h (Ne.symm hone)), Nat.le_succ_of_le⟩

end Pages

/-! ## The daemon -/

/-- The terminal that is being opened, and the snapshot of it. -/
def ConnTask.opening : ConnTask → Option (TerminalId × Option Snapshot)
  | .cleared _ terminalId _ | .subscribed _ terminalId _ _ => some (terminalId, none)
  | .snapshotted _ terminalId _ _ snapshot | .found _ terminalId _ _ snapshot _ => some (terminalId, some snapshot)
  | .select | .closed => none

namespace Pager

variable {p q : Pager}

/-- The sequence numbers do not run out, and when an open is answered it is not one byte that is retained before the
snapshot. -/
def probed (p : Pager) : Move → Bool
  | .openStep =>
    match p.daemon.task with
    | .found _ _ _ _ snapshot _ => p.tail + 1 ≠ startSeq snapshot
    | _ => true
  | .terminal id (.push bytes) => (p.daemon.terminals.lookup id).all fun t => t.ring.headSeq + bytes.length ≤ u64Max
  | _ => true

/-- The open is of the terminal that is paged, and its snapshot is in the output; so is what is loaded. -/
structure Paged (p : Pager) : Prop where
  recorded : p.daemon.Recorded
  opening : ∀ id snapshot, p.daemon.task.opening = some (id, snapshot) → id = p.terminalId ∧
    ∀ s, snapshot = some s → ∃ t, p.daemon.terminals.lookup p.terminalId = some t ∧ startSeq s ≤ t.output.length
  loaded : ∀ l, p.loaded = some l → ∃ t, p.daemon.terminals.lookup p.terminalId = some t ∧ Complete t.output l

theorem paged_new (terminalId : TerminalId) (maxTerminals scrollbackBytes : Nat) :
    Paged (new terminalId maxTerminals scrollbackBytes) where
  recorded id t ht := by
    cases ht
  opening id snapshot h := by
    cases h
  loaded l h := by
    cases h

/-- The terminals have gone on. -/
theorem Paged.grown (h : Paged p) {daemon : Daemon} (hgrown : Daemon.Grown True p.daemon daemon)
    (htask : daemon.task.opening = p.daemon.task.opening) : Paged { p with daemon } where
  recorded := hgrown.recorded
  opening id snapshot hopening := by
    obtain ⟨hid, hsnapshot⟩ := h.opening id snapshot (htask ▸ hopening)
    refine ⟨hid, fun s hs => ?_⟩
    obtain ⟨t, ht, hle⟩ := hsnapshot s hs
    obtain ⟨u, hu, hgrows⟩ := hgrown.grows _ t ht
    obtain ⟨more, houtput⟩ := hgrows.output
    refine ⟨u, hu, ?_⟩
    rw [houtput, List.length_append]
    exact Nat.le_add_right_of_le hle
  loaded l hl := by
    obtain ⟨t, ht, hcomplete⟩ := h.loaded l hl
    obtain ⟨u, hu, hgrows⟩ := hgrown.grows _ t ht
    obtain ⟨more, houtput⟩ := hgrows.output
    refine ⟨u, hu, ?_⟩
    rw [houtput]
    exact hcomplete.mono more

theorem tail_eq {t : Terminal} (ht : p.daemon.terminals.lookup p.terminalId = some t) : p.tail = t.ring.tailOffset := by
  unfold tail
  rw [ht]
  rfl

theorem paged_openStep (h : Paged p) (hmove : p.probed .openStep = true) (hs : p.step .openStep = some q) : Paged q := by
  obtain ⟨⟨daemon, reply⟩, hstep, rfl⟩ := Option.map_eq_some_iff.mp hs
  have hgrown : Daemon.Grown True p.daemon daemon := h.recorded.grown_of_terminals (Daemon.openStep_terminals hstep)
  obtain ⟨id, terminalId, stream, t, htask, ht, rfl, rfl⟩ | ⟨id, terminalId, stream, sub, t, htask, ht, rfl, rfl⟩ |
    ⟨id, terminalId, stream, sub, snapshot, htask, ⟨rfl, rfl⟩ | ⟨info, _, rfl, rfl⟩⟩ |
    ⟨id, terminalId, stream, sub, snapshot, info, t, htask, ht, rfl, rfl⟩ := Daemon.openStep_cases hstep
  · exact h.grown hgrown (by rw [htask]; rfl)
  · obtain ⟨hid, _⟩ := h.opening terminalId none (by rw [htask]; rfl)
    refine ⟨hgrown.recorded, ?_, h.loaded⟩
    intro id' snapshot hopening
    cases hopening
    refine ⟨hid, ?_⟩
    intro s hs
    cases hs
    refine ⟨t, hid ▸ ht, ?_⟩
    have hhead := ((h.recorded _ t ht).1.window.snapshotWithMaxBytes_cases openTerminalMaxBytes).1
    unfold startSeq
    rw [hhead]
    exact Nat.sub_le _ _
  · refine ⟨hgrown.recorded, ?_, h.loaded⟩
    intro id' snapshot' hopening
    cases hopening
  · exact h.grown hgrown (by rw [htask]; rfl)
  · obtain ⟨hid, hsnapshot⟩ := h.opening terminalId (some snapshot) (by rw [htask]; rfl)
    obtain ⟨t', ht', hle⟩ := hsnapshot snapshot rfl
    cases (hid ▸ ht').symm.trans ht
    refine ⟨hgrown.recorded, fun _ _ hopening => (by cases hopening), ?_⟩
    intro l hl
    cases hl
    refine ⟨t, ht', ?_⟩
    rw [tail_eq ht']
    refine complete_ack (h.recorded _ t ht).1.window hle rfl ?_
    unfold probed at hmove
    dsimp only at hmove
    rw [htask] at hmove
    have hne := of_decide_eq_true hmove
    rw [tail_eq ht'] at hne
    exact hne

theorem paged_readHistory (h : Paged p) {id : RequestId} {maxBytes : Nat} {env : Env}
    (hs : p.step (.readHistory id maxBytes env) = some q) : Paged q := by
  unfold step at hs
  dsimp only at hs
  split at hs
  · next l htask hl =>
    split at hs
    · next hasked =>
      obtain ⟨_, hmax⟩ := (Bool.and_eq_true _ _).mp hasked
      obtain ⟨t, ht, hcomplete⟩ := h.loaded l hl
      split at hs
      · next daemon _ page hreply =>
        cases hs
        unfold Daemon.handleRequest at hreply
        dsimp only at hreply
        split at hreply
        · cases hreply
        · next t' hattach =>
          cases hreply
          have ht' : p.daemon.terminals.lookup p.terminalId = some t' := (Option.filter_eq_some_iff.mp hattach).1
          cases ht.symm.trans ht'
          refine ⟨h.recorded, h.opening, ?_⟩
          intro l' hl'
          cases hl'
          refine ⟨t, ht, ?_⟩
          rw [tail_eq ht]
          exact complete_turn hcomplete (h.recorded _ t ht).1.window (of_decide_eq_true hmax) rfl rfl rfl
      · cases hs
    · cases hs
  · cases hs

theorem paged_step {move : Move} (h : Paged p) (hmove : p.probed move = true) (hs : p.step move = some q) : Paged q := by
  cases move with
  | openTerminal id =>
    unfold step at hs
    dsimp only at hs
    split at hs
    · next htask =>
      cases hs
      unfold Daemon.openStart
      split
      · refine ⟨h.recorded, ?_, fun _ hl => by cases hl⟩
        intro id' snapshot hopening
        rw [show ConnTask.opening _ = p.daemon.task.opening from rfl, htask] at hopening
        cases hopening
      · refine ⟨h.recorded, ?_, fun _ hl => by cases hl⟩
        intro id' snapshot hopening
        cases hopening
        exact ⟨rfl, fun _ hs => by cases hs⟩
    · cases hs
  | openStep => exact paged_openStep h hmove hs
  | readHistory id maxBytes env => exact paged_readHistory h hs
  | terminal id move =>
    unfold step at hs
    dsimp only at hs
    split at hs
    · cases hs
    · next t ht =>
      obtain ⟨u, hu, rfl⟩ := Option.map_eq_some_iff.mp hs
      refine h.grown (h.recorded.grown_terminal ht ?_ hu) rfl
      rintro bytes rfl
      unfold probed at hmove
      dsimp only at hmove
      rw [ht] at hmove
      exact of_decide_eq_true hmove
  | create params env =>
    unfold step at hs
    dsimp only at hs
    split at hs
    · next hfresh =>
      split at hs
      · next hcreate =>
        cases hs
        exact h.grown (h.recorded.grown_create hfresh hcreate) (by rw [(Daemon.create_work hcreate).task])
      · cases hs
    · cases hs
  | configure scrollbackBytes =>
    cases hs
    exact h.grown (h.recorded.grown_of_terminals rfl) rfl

/-! ## Results -/

/-- **Paging back reaches everything retained.** In every run in which no open is answered while one byte is retained
before its snapshot, what a client has received makes up the output from the smallest `start_seq` to the snapshot, without
gap or overlap; a page was empty only when all before it was gone; and the client is told to stop exactly when it has all
that was retained. -/
theorem paging_is_complete {terminalId : TerminalId} {maxTerminals scrollbackBytes : Nat} {is : List Move}
    (hm : Meets step (fun p move => p.probed move = true) (new terminalId maxTerminals scrollbackBytes) is)
    (hr : run step (new terminalId maxTerminals scrollbackBytes) is = some p) {l : Loaded} (hl : p.loaded = some l) :
    ∃ t, p.daemon.terminals.lookup p.terminalId = some t ∧ Complete t.output l := by
  have hpaged : Paged p := Steps.run_invariant (fun _ _ _ h hmove hs => paged_step h hmove hs) hm hr (paged_new _ _ _)
  exact hpaged.loaded l hl

/-- A terminal is created; it has output, and is opened. -/
def opening (bytes : List UInt8) : List Move :=
  [.create { cols := 1, rows := 1, cwd := none, cmd := [], env := [] }
      { Talk.sampleEnv with spawned := .ok (Talk.sampleId 1) },
    .terminal (Talk.sampleId 1) (.push bytes), .openTerminal 0, .openStep, .openStep, .openStep, .openStep]

set_option maxRecDepth 8000 in
theorem paging_is_complete_sample : ∃ p l,
    run step (new (Talk.sampleId 1) 8 4) (opening [0x61, 0x62, 0x63, 0x64, 0x65, 0x66, 0x67, 0x68] ++
      [.readHistory 1 3 Talk.sampleEnv, .readHistory 1 3 Talk.sampleEnv]) = some p ∧ p.loaded = some l ∧
      ∃ t, p.daemon.terminals.lookup p.terminalId = some t ∧ Complete t.output l := by
  have hm : Meets step (fun p move => p.probed move = true) (new (Talk.sampleId 1) 8 4)
      (opening [0x61, 0x62, 0x63, 0x64, 0x65, 0x66, 0x67, 0x68] ++
        [.readHistory 1 3 Talk.sampleEnv, .readHistory 1 3 Talk.sampleEnv]) := by decide
  exact ⟨_, _, rfl, rfl, paging_is_complete hm rfl rfl⟩

/-- One byte is retained before the snapshot, and the client is told that there is no more. -/
theorem one_byte_is_left : ∃ p l t,
    run step (new (Talk.sampleId 1) 8 1) (opening [0x61, 0x62]) = some p ∧ p.loaded = some l ∧
      p.daemon.terminals.lookup p.terminalId = some t ∧ l.more = false ∧ l.before = 2 ∧ l.tail = 1 ∧
      t.ring.tailSeq = 1 ∧ t.ring.bytes = [0x62] :=
  ⟨_, _, _, rfl, rfl, rfl, rfl, rfl, rfl, rfl, rfl⟩

end Pager

end CliPocket
