import CliPocket.Daemon.RelayDialer
import CliPocket.Lib.Demux

/-!
# What the pairs of a dialer are given

The dialer of the relay takes the frames of all pairs from one socket. Behind bounded queues, awaited sends and
transports that go away, it is a demultiplexer.

- `RelayDialer.signalsOf`: what a message says about pairs, as a signal of the line;
- `RelayDialer.Served`: what has been given to each transport, beside the streams of the line;
- `bridges_deliver`: **each transport reads the stream of its pair**, in order and without loss.
-/

namespace CliPocket

open Demux (Signal)

namespace RelayDialer

abbrev PairSignal := Signal PairId (List UInt8)

/-- What a message says about pairs. -/
def signalsOf (msg : Incoming) : List PairSignal :=
  match msg with
  | .binary bytes =>
    match decodeRelay bytes with
    | .ok (.ctrl (.pairInbound pairId)) => [.opened pairId]
    | .ok (.data (.forward pairId payload)) => [.item pairId payload]
    | .ok (.ctrl (.pairClose pairId _)) => [.closed pairId]
    | _ => []
  | _ => []

/-- What the moves have done: the line has said something, or a connection task has received. -/
inductive DialEvent
  | heard (signal : PairSignal)
  | received (i : Nat) (bytes : List UInt8)

def emit (d : RelayDialer) : Move → List DialEvent
  | .read msg => (signalsOf msg).map .heard
  | .dial => [.heard .reset]
  | .recv i =>
    match (d.queues[i]?).bind Channel.Mpsc.recv with
    | some (bytes, _) => [.received i bytes]
    | none => []
  | _ => []

def DialEvent.signal : DialEvent → Option PairSignal
  | .heard signal => some signal
  | .received _ _ => none

def DialEvent.payloadOf (i : Nat) : DialEvent → Option (List UInt8)
  | .heard _ => none
  | .received j bytes => if j = i then some bytes else none

/-- The line, as the loop has read it. -/
def line (h : List DialEvent) : List PairSignal := h.filterMap DialEvent.signal

/-- What the connection task of a transport has received. -/
def receivedBy (i : Nat) (h : List DialEvent) : List (List UInt8) := h.filterMap (DialEvent.payloadOf i)

/-- What the loop waits to give to a transport. -/
def pendingFor (d : RelayDialer) (i : Nat) : List (List UInt8) :=
  match d.pending with
  | some (.forward _ tx bytes) => if tx = i then [bytes] else []
  | _ => []

/-! ## The line, one signal at a time -/

@[simp] theorem line_nil : line [] = [] := rfl

@[simp] theorem line_append (h h' : List DialEvent) : line (h ++ h') = line h ++ line h' := List.filterMap_append

@[simp] theorem line_heard (signals : List PairSignal) : line (signals.map .heard) = signals := by
  induction signals with
  | nil => rfl
  | cons signal rest ih =>
    simp only [List.map_cons, line, List.filterMap_cons, DialEvent.signal]
    exact congrArg _ ih

@[simp] theorem receivedBy_append (i : Nat) (h h' : List DialEvent) :
    receivedBy i (h ++ h') = receivedBy i h ++ receivedBy i h' := List.filterMap_append

@[simp] theorem receivedBy_heard (i : Nat) (signals : List PairSignal) : receivedBy i (signals.map .heard) = [] := by
  induction signals with
  | nil => rfl
  | cons signal rest ih => exact ih

/-- The table of the streams that are open on the line. -/
def table (h : List DialEvent) : Demux.State PairId (List UInt8) := Demux.State.run {} (line h)

theorem keyed_table (h : List DialEvent) : (table h).Keyed := by
  apply Demux.State.Keyed.run
  intro pairId i hi
  cases hi

theorem table_silent {h events : List DialEvent} (hevents : line events = []) : table (h ++ events) = table h := by
  unfold table
  rw [line_append, hevents, List.append_nil]

theorem table_heard {h : List DialEvent} {signal : PairSignal} {events : List DialEvent} (hevents : line events =
    [signal]) :
    table (h ++ events) = (table h).step signal := by
  unfold table
  rw [line_append, hevents, Demux.State.run_append]
  rfl

/-! ## What a transport is given -/

/-- What the task of a transport has received, what waits in its queue, and what the loop waits to queue. -/
def given (d : RelayDialer) (h : List DialEvent) (i : Nat) (queue : Channel.Mpsc (List UInt8)) : List (List UInt8) :=
  receivedBy i h ++ queue.queue ++ d.pendingFor i

/-- It is in the table, or it has been closed by neither end. -/
def Fed (d : RelayDialer) (i : Nat) (queue : Channel.Mpsc (List UInt8)) : Prop :=
  queue.closed = false ∨ ∃ pairId, d.pairs.lookup pairId = some i

/-- **The transports of a dialer are given the streams of its line.** -/
structure Served (d : RelayDialer) (h : List DialEvent) : Prop where
  wired : Wired d
  settled : d.pending = none ∨ d.result = none
  streams : (table h).streams.length = d.queues.length
  known : ∀ {pairId i}, d.pairs.lookup pairId = some i → (table h).current pairId = some i
  gone : ∀ {pairId i}, (table h).current pairId = some i → d.pairs.lookup pairId = some i ∨
    ∃ queue, d.queues[i]? = some queue ∧ queue.closed = true
  given : ∀ {i queue}, d.queues[i]? = some queue → ∃ pairId payloads, (table h).streams[i]? = some (pairId, payloads) ∧
    d.given h i queue <+: payloads ∧ (d.Fed i queue → d.given h i queue = payloads)
  unborn : ∀ {i}, d.queues.length ≤ i → receivedBy i h = []
  labelled : ∀ {transport}, transport ∈ d.accepted.queue ∨ d.pending = some (.accept transport) →
    ∃ payloads, (table h).streams[transport.toDaemonRx]? = some (transport.label, payloads)

variable {d e : RelayDialer} {h : List DialEvent}

theorem served_empty : Served {} [] where
  wired := reachable_wired ⟨[], rfl⟩
  settled := .inl rfl
  streams := rfl
  known hl := nomatch hl
  gone hi := nomatch hi
  given hq := nomatch hq
  unborn _ := rfl
  labelled ht := by
    rcases ht with ht | ht
    · cases ht
    · cases ht

theorem given_heard (d : RelayDialer) (h : List DialEvent) (i : Nat) (queue : Channel.Mpsc (List UInt8))
    (signals : List PairSignal) : d.given (h ++ signals.map .heard) i queue = d.given h i queue := by
  unfold given
  rw [receivedBy_append, receivedBy_heard, List.append_nil]

/-- Nothing that the pairs see has changed. -/
theorem Served.same (hd : Served d h) (hw : Wired e) (hpairs : e.pairs = d.pairs) (hqueues : e.queues = d.queues)
    (hpending : ∀ i, e.pendingFor i = d.pendingFor i) (hsettled : e.pending = none ∨ e.result = none)
    (hlabelled : ∀ {transport}, transport ∈ e.accepted.queue ∨ e.pending = some (.accept transport) →
      transport ∈ d.accepted.queue ∨ d.pending = some (.accept transport)) : Served e h where
  wired := hw
  settled := hsettled
  streams := by
    rw [hqueues]
    exact hd.streams
  known hl := hd.known (hpairs ▸ hl)
  gone hi := by
    rw [hpairs, hqueues]
    exact hd.gone hi
  given {i queue} hq := by
    unfold RelayDialer.given Fed
    rw [hpending, hpairs]
    exact hd.given (hqueues ▸ hq)
  unborn hi := hd.unborn (hqueues ▸ hi)
  labelled ht := hd.labelled (hlabelled ht)

/-- A dialer that has not dialed yet. -/
theorem served_start : Served { result := some (.ok ()) } [] :=
  served_empty.same (served_empty.wired.of_pairs rfl rfl (.inl rfl)) rfl rfl (fun _ => rfl) (.inl rfl) id

/-! ## The loop reads -/

/-- **What a message does to the pairs.** -/
theorem read_cases (d : RelayDialer) (msg : Incoming) :
    (signalsOf msg = [] ∧ (d.read msg = d ∨ ∃ r, d.read msg = { d with result := some r })) ∨
      (∃ pairId, signalsOf msg = [.opened pairId] ∧ d.read msg = { d with
        pairs := d.pairs.insert pairId d.queues.length
        queues := d.queues ++ [{ capacity := pairQueueCapacity }]
        pending := some (.accept { label := pairId, toDaemonRx := d.queues.length }) }) ∨
      (∃ pairId payload, signalsOf msg = [.item pairId payload] ∧
        ((∃ tx, d.pairs.lookup pairId = some tx ∧
          d.read msg = { d with pending := some (.forward pairId tx payload) }) ∨
          (d.pairs.lookup pairId = none ∧ d.read msg = d))) ∨
      ∃ pairId, signalsOf msg = [.closed pairId] ∧ d.read msg = { d with pairs := d.pairs.erase pairId } := by
  unfold signalsOf read
  cases msg with
  | error what => exact .inl ⟨rfl, .inr ⟨_, rfl⟩⟩
  | ended | close | textOrFrame => exact .inl ⟨rfl, .inr ⟨_, rfl⟩⟩
  | pingPong => exact .inl ⟨rfl, .inl rfl⟩
  | binary bytes =>
    dsimp only
    cases hdecode : decodeRelay bytes with
    | error err => exact .inl ⟨rfl, .inr ⟨_, rfl⟩⟩
    | ok wire =>
      cases wire with
      | ctrl ctrl =>
        cases ctrl
        case pairInbound pairId => exact .inr (.inl ⟨pairId, rfl, rfl⟩)
        case pairClose pairId reason => exact .inr (.inr (.inr ⟨pairId, rfl, rfl⟩))
        all_goals exact .inl ⟨rfl, .inl rfl⟩
      | data data =>
        obtain ⟨pairId, payload⟩ := data
        refine .inr (.inr (.inl ⟨pairId, payload, rfl, ?_⟩))
        dsimp only
        cases hlookup : d.pairs.lookup pairId with
        | some tx => exact .inl ⟨tx, rfl, rfl⟩
        | none => exact .inr ⟨rfl, rfl⟩

/-- A pair is announced. -/
theorem Served.opened (hd : Served d h) (hpending : d.pending = none) (hresult : d.result = none) (pairId : PairId) :
    Served { d with
      pairs := d.pairs.insert pairId d.queues.length
      queues := d.queues ++ [{ capacity := pairQueueCapacity }]
      pending := some (.accept { label := pairId, toDaemonRx := d.queues.length }) }
      (h ++ [Signal.opened pairId].map .heard) := by
  have htable : table (h ++ [Signal.opened pairId].map .heard) = (table h).step (.opened pairId) :=
    table_heard (line_heard _)
  have hnew : ((table h).step (.opened pairId)).streams[d.queues.length]? = some (pairId, []) := by
    simp [Demux.State.step, ← hd.streams]
  have hold : ∀ {i : Nat} {key : PairId} {payloads : List (List UInt8)},
      (table h).streams[i]? = some (key, payloads) → ((table h).step (.opened pairId)).streams[i]? = some (key,
        payloads) := by
    intro i key payloads hs
    have hstep := Demux.State.streams_step (keyed_table h) (.opened pairId) hs
    simpa [Demux.State.adds] using hstep
  refine ⟨hd.wired.insert _ _ _, .inr hresult, ?_, ?_, ?_, ?_, ?_, ?_⟩
  · rw [htable, Demux.State.length_step]
    simp [hd.streams]
  · intro id i hl
    rw [htable]
    by_cases hid : id = pairId
    · subst hid
      rw [AList.lookup_insert] at hl
      simp [Demux.State.step, hd.streams, ← hl]
    · rw [AList.lookup_insert_ne hid] at hl
      simp [Demux.State.step, hid, hd.known hl]
  · intro id i hi
    rw [htable] at hi
    by_cases hid : id = pairId
    · subst hid
      simp only [Demux.State.step, if_true] at hi
      left
      rw [AList.lookup_insert, ← hd.streams]
      exact hi
    · simp only [Demux.State.step, if_neg hid] at hi
      rcases hd.gone hi with hl | ⟨queue, hq, hclosed⟩
      · left
        rw [AList.lookup_insert_ne hid]
        exact hl
      · right
        have hlt := (List.getElem?_eq_some_iff.mp hq).1
        exact ⟨queue, by rw [List.getElem?_append_left hlt]; exact hq, hclosed⟩
  · intro i queue hq
    rw [htable, given_heard]
    by_cases hi : i < d.queues.length
    · rw [List.getElem?_append_left hi] at hq
      obtain ⟨key, payloads, hs, hprefix, heq⟩ := hd.given hq
      refine ⟨key, payloads, hold hs, ?_, ?_⟩
      · simpa [RelayDialer.given, pendingFor, hpending] using hprefix
      · intro hfed'
        have hfed : d.Fed i queue := by
          rcases hfed' with hopen | ⟨id, hl⟩
          · exact .inl hopen
          · refine .inr ⟨id, ?_⟩
            by_cases hid : id = pairId
            · subst hid
              rw [AList.lookup_insert] at hl
              cases hl
              omega
            · rwa [AList.lookup_insert_ne hid] at hl
        simpa [RelayDialer.given, pendingFor, hpending] using heq hfed
    · rw [List.getElem?_append_right (by omega)] at hq
      have hi' : i = d.queues.length := by
        have hlt := (List.getElem?_eq_some_iff.mp hq).1
        simp at hlt
        omega
      subst hi'
      simp at hq
      subst hq
      refine ⟨pairId, [], hnew, ?_, fun _ => ?_⟩
      all_goals simp [RelayDialer.given, pendingFor, hd.unborn (Nat.le_refl _)]
  · intro i hi
    rw [receivedBy_append, receivedBy_heard, List.append_nil]
    rw [List.length_append, List.length_singleton] at hi
    exact hd.unborn (by omega)
  · intro transport ht
    rw [htable]
    rcases ht with ht | ht
    · obtain ⟨payloads, hs⟩ := hd.labelled (.inl ht)
      exact ⟨payloads, hold hs⟩
    · cases ht
      exact ⟨[], hnew⟩

/-- A payload comes for a pair that is known. -/
theorem Served.item (hd : Served d h) (hpending : d.pending = none) (hresult : d.result = none) {pairId : PairId}
    {tx : Nat}
    (hl : d.pairs.lookup pairId = some tx) (payload : List UInt8) :
    Served { d with pending := some (.forward pairId tx payload) } (h ++ [Signal.item pairId payload].map .heard) := by
  have htable : table (h ++ [Signal.item pairId payload].map .heard) = (table h).step (.item pairId payload) :=
    table_heard (line_heard _)
  have hcurrent : ((table h).step (.item pairId payload)).current = (table h).current := by
    simp only [Demux.State.step]
    split <;> rfl
  refine ⟨⟨hd.wired.there, hd.wired.own, ?_⟩, .inr hresult, ?_, ?_, ?_, ?_, ?_, ?_⟩
  · intro id tx' bytes hp
    cases hp
    exact hl
  · rw [htable, Demux.State.length_step]
    exact hd.streams
  · intro id i hl'
    rw [htable, hcurrent]
    exact hd.known hl'
  · intro id i hi
    rw [htable, hcurrent] at hi
    exact hd.gone hi
  · intro i queue hq
    obtain ⟨key, payloads, hs, hprefix, hfed⟩ := hd.given hq
    refine ⟨key, payloads ++ (table h).adds i key (.item pairId payload), ?_, ?_⟩
    · rw [htable]
      exact Demux.State.streams_step (keyed_table h) _ hs
    · rw [given_heard]
      by_cases hi : tx = i
      · subst hi
        obtain ⟨items, hs'⟩ := keyed_table h (hd.known hl)
        rw [hs'] at hs
        cases hs
        have heq := hfed (.inr ⟨pairId, hl⟩)
        have hgiven : ({ d with pending := some (.forward pairId tx payload) } : RelayDialer).given h tx queue =
            payloads ++ [payload] := by
          rw [← heq]
          simp [RelayDialer.given, pendingFor, hpending]
        simp [Demux.State.adds, hd.known hl, hgiven]
      · have hadds : (table h).adds i key (.item pairId payload) = [] := by
          simp only [Demux.State.adds]
          rw [if_neg]
          rintro ⟨rfl, hcur⟩
          exact hi (Option.some.inj ((hd.known hl).symm.trans hcur))
        rw [hadds, List.append_nil]
        constructor
        · simpa [RelayDialer.given, pendingFor, hpending, hi] using hprefix
        · intro hf
          simpa [RelayDialer.given, pendingFor, hpending, hi] using hfed hf
  · intro i hi
    rw [receivedBy_append, receivedBy_heard, List.append_nil]
    exact hd.unborn hi
  · intro transport ht
    rw [htable]
    rcases ht with ht | ht
    · obtain ⟨payloads, hs⟩ := hd.labelled (.inl ht)
      exact ⟨_, Demux.State.streams_step (keyed_table h) _ hs⟩
    · cases ht

/-- A payload comes for a pair that is not in the table. -/
theorem Served.ignored (hd : Served d h) {pairId : PairId} (hl : d.pairs.lookup pairId = none) (payload : List UInt8) :
    Served d (h ++ [Signal.item pairId payload].map .heard) := by
  have htable : table (h ++ [Signal.item pairId payload].map .heard) = (table h).step (.item pairId payload) :=
    table_heard (line_heard _)
  have hcurrent : ((table h).step (.item pairId payload)).current = (table h).current := by
    simp only [Demux.State.step]
    split <;> rfl
  refine ⟨hd.wired, hd.settled, ?_, ?_, ?_, ?_, ?_, ?_⟩
  · rw [htable, Demux.State.length_step]
    exact hd.streams
  · intro id i hl'
    rw [htable, hcurrent]
    exact hd.known hl'
  · intro id i hi
    rw [htable, hcurrent] at hi
    exact hd.gone hi
  · intro i queue hq
    obtain ⟨key, payloads, hs, hprefix, hfed⟩ := hd.given hq
    refine ⟨key, payloads ++ (table h).adds i key (.item pairId payload), ?_, ?_, ?_⟩
    · rw [htable]
      exact Demux.State.streams_step (keyed_table h) _ hs
    · rw [given_heard]
      exact hprefix.trans (List.prefix_append _ _)
    · intro hf
      have hadds : (table h).adds i key (.item pairId payload) = [] := by
        simp only [Demux.State.adds]
        rw [if_neg]
        rintro ⟨rfl, hcur⟩
        -- the stream is open on the line and its pair is gone from the table: the transport has been closed
        rcases hd.gone hcur with hl' | ⟨queue', hq', hclosed⟩
        · cases hl.symm.trans hl'
        · rw [hq] at hq'
          cases hq'
          rcases hf with hopen | ⟨id, hl'⟩
          · cases hopen.symm.trans hclosed
          · have hid := Demux.State.Keyed.own (keyed_table h) (hd.known hl') hcur
            subst hid
            cases hl.symm.trans hl'
      rw [given_heard, hadds, List.append_nil]
      exact hfed hf
  · intro i hi
    rw [receivedBy_append, receivedBy_heard, List.append_nil]
    exact hd.unborn hi
  · intro transport ht
    rw [htable]
    obtain ⟨payloads, hs⟩ := hd.labelled ht
    exact ⟨_, Demux.State.streams_step (keyed_table h) _ hs⟩

/-- A pair is closed. -/
theorem Served.closed (hd : Served d h) (hpending : d.pending = none) (pairId : PairId) :
    Served { d with pairs := d.pairs.erase pairId } (h ++ [Signal.closed pairId].map .heard) := by
  have htable : table (h ++ [Signal.closed pairId].map .heard) = (table h).step (.closed pairId) :=
    table_heard (line_heard _)
  refine ⟨?_, hd.settled, ?_, ?_, ?_, ?_, ?_, ?_⟩
  · have hw := hd.wired.erase pairId
    rwa [← hpending] at hw
  · rw [htable]
    exact hd.streams
  · intro id i hl
    obtain ⟨hid, hl'⟩ := lookup_erase_some hl
    rw [htable]
    simp [Demux.State.step, hid, hd.known hl']
  · intro id i hi
    rw [htable] at hi
    by_cases hid : id = pairId
    · simp [Demux.State.step, hid] at hi
    · simp only [Demux.State.step, if_neg hid] at hi
      rw [AList.lookup_erase_ne hid]
      exact hd.gone hi
  · intro i queue hq
    rw [htable, given_heard]
    obtain ⟨key, payloads, hs, hprefix, hfed⟩ := hd.given hq
    refine ⟨key, payloads, hs, hprefix, fun hf => hfed ?_⟩
    rcases hf with hopen | ⟨id, hl⟩
    · exact .inl hopen
    · exact .inr ⟨id, (lookup_erase_some hl).2⟩
  · intro i hi
    rw [receivedBy_append, receivedBy_heard, List.append_nil]
    exact hd.unborn hi
  · intro transport ht
    rw [htable]
    exact hd.labelled ht

theorem Served.read (hd : Served d h) (hpending : d.pending = none) (hresult : d.result = none) (msg : Incoming) :
    Served (d.read msg) (h ++ (signalsOf msg).map .heard) := by
  rcases read_cases d msg with ⟨hs, heq⟩ | ⟨pairId, hs, heq⟩ | ⟨pairId, payload, hs, ⟨tx, hl, heq⟩ | ⟨hl, heq⟩⟩ |
    ⟨pairId, hs, heq⟩
  · rw [hs, List.map_nil, List.append_nil]
    have hw := hd.wired.read hpending msg
    rcases heq with heq | ⟨r, heq⟩
    · rw [heq]
      exact hd
    · rw [heq] at hw ⊢
      exact hd.same hw rfl rfl (fun _ => rfl) (.inl hpending) id
  · rw [hs, heq]
    exact hd.opened hpending hresult pairId
  · rw [hs, heq]
    exact hd.item hpending hresult hl payload
  · rw [hs, heq]
    exact hd.ignored hl payload
  · rw [hs, heq]
    exact hd.closed hpending pairId

/-! ## The loop sends -/

/-- The payload that the loop has waited with is queued. -/
theorem Served.queued (hd : Served d h) {pairId : PairId} {tx : Nat} {bytes : List UInt8}
    (hpending : d.pending = some (.forward pairId tx bytes)) {queue queue' : Channel.Mpsc (List UInt8)}
    (hqueue : d.queues[tx]? = some queue) (hsent : queue.send bytes = .sent queue')
    (hw : Wired { d with queues := d.queues.set tx queue', pending := none }) :
    Served { d with queues := d.queues.set tx queue', pending := none } h := by
  obtain ⟨hopen, _, rfl⟩ := Channel.Mpsc.send_eq_sent.mp hsent
  have hlt := (List.getElem?_eq_some_iff.mp hqueue).1
  refine ⟨hw, .inl rfl, ?_, hd.known, ?_, ?_, ?_, ?_⟩
  · rw [List.length_set]
    exact hd.streams
  · intro id i hi
    rcases hd.gone hi with hl | ⟨queue', hq', hclosed⟩
    · exact .inl hl
    · have hne : tx ≠ i := by
        rintro rfl
        rw [hqueue] at hq'
        cases hq'
        cases hopen.symm.trans hclosed
      exact .inr ⟨queue', by rw [List.getElem?_set_ne hne]; exact hq', hclosed⟩
  · intro i queue' hq'
    by_cases hi : tx = i
    · subst hi
      rw [List.getElem?_set_self hlt] at hq'
      cases hq'
      obtain ⟨key, payloads, hs, _, hfed⟩ := hd.given hqueue
      have heq := hfed (.inl hopen)
      have hgiven : ({ d with
          queues := d.queues.set tx { queue with queue := queue.queue ++ [bytes] }, pending := none } :
            RelayDialer).given h
          tx { queue with queue := queue.queue ++ [bytes] } = payloads := by
        rw [← heq]
        simp [RelayDialer.given, pendingFor, hpending]
      exact ⟨key, payloads, hs, hgiven ▸ List.prefix_rfl, fun _ => hgiven⟩
    · rw [List.getElem?_set_ne hi] at hq'
      have hsame := hd.given hq'
      simpa [RelayDialer.given, pendingFor, hpending, hi, Fed] using hsame
  · intro i hi
    rw [List.length_set] at hi
    exact hd.unborn hi
  · intro transport ht
    rcases ht with ht | ht
    · exact hd.labelled (.inl ht)
    · cases ht

/-- Its transport has been closed. -/
theorem Served.refused (hd : Served d h) {pairId : PairId} {tx : Nat} {bytes : List UInt8}
    (hpending : d.pending = some (.forward pairId tx bytes)) {queue : Channel.Mpsc (List UInt8)}
    (hqueue : d.queues[tx]? = some queue) (hclosed : queue.closed = true) :
    Served { d with pairs := d.pairs.erase pairId, pending := none } h := by
  have hl := hd.wired.pending hpending
  refine ⟨hd.wired.erase pairId, .inl rfl, hd.streams, ?_, ?_, ?_, hd.unborn, ?_⟩
  · intro id i hl'
    exact hd.known (lookup_erase_some hl').2
  · intro id i hi
    rcases hd.gone hi with hl' | hr
    · by_cases hid : id = pairId
      · subst hid
        cases hl.symm.trans hl'
        exact .inr ⟨queue, hqueue, hclosed⟩
      · exact .inl (by rw [AList.lookup_erase_ne hid]; exact hl')
    · exact .inr hr
  · intro i queue' hq'
    obtain ⟨key, payloads, hs, hprefix, hfed⟩ := hd.given hq'
    refine ⟨key, payloads, hs, ?_, ?_⟩
    · refine List.IsPrefix.trans ?_ hprefix
      simp only [RelayDialer.given, pendingFor, List.append_nil]
      exact List.prefix_append _ _
    · rintro (hopen | ⟨id, hl'⟩)
      · have hne : tx ≠ i := by
          rintro rfl
          rw [hqueue] at hq'
          cases hq'
          cases hopen.symm.trans hclosed
        simpa [RelayDialer.given, pendingFor, hpending, hne] using hfed (.inl hopen)
      · obtain ⟨hid, hl'⟩ := lookup_erase_some hl'
        have hne : tx ≠ i := by
          rintro rfl
          exact hid (hd.wired.own hl' hl)
        simpa [RelayDialer.given, pendingFor, hpending, hne] using hfed (.inr ⟨id, hl'⟩)
  · intro transport ht
    rcases ht with ht | ht
    · exact hd.labelled (.inl ht)
    · cases ht

theorem Served.perform (hd : Served d h) {pending : AwaitedSend}
    (hpending : d.pending = some pending) (hs : d.perform pending = some e) : Served e h := by
  have hw := hd.wired.perform hs
  cases pending with
  | accept transport =>
    have hnone : ∀ i, d.pendingFor i = [] := fun i => by simp [pendingFor, hpending]
    simp only [RelayDialer.perform] at hs
    split at hs
    · next accepted hsent =>
      obtain ⟨_, _, rfl⟩ := Channel.Mpsc.send_eq_sent.mp hsent
      cases hs
      refine hd.same hw rfl rfl (fun i => (hnone i).symm) (.inl rfl) fun ht => ?_
      rcases ht with ht | ht
      · rcases List.mem_append.mp ht with ht | ht
        · exact .inl ht
        · rw [List.mem_singleton.mp ht]
          exact .inr hpending
      · cases ht
    · cases hs
    · cases hs
      refine hd.same hw rfl rfl (fun i => (hnone i).symm) (.inl rfl) fun ht => ?_
      rcases ht with ht | ht
      · exact .inl ht
      · cases ht
  | forward pairId tx bytes =>
    simp only [RelayDialer.perform] at hs
    split at hs
    · cases hs
    · next queue hqueue =>
      split at hs
      · next hsent =>
        cases hs
        exact hd.queued hpending hqueue hsent hw
      · cases hs
      · next hclosed =>
        cases hs
        exact hd.refused hpending hqueue (Channel.Mpsc.send_eq_closed.mp hclosed)

/-! ## The transports -/

/-- A connection task receives. -/
theorem Served.received (hd : Served d h) {i : Nat} {queue : Channel.Mpsc (List UInt8)} {bytes : List UInt8}
    {rest : List (List UInt8)} (hqueue : d.queues[i]? = some queue) (hfirst : queue.queue = bytes :: rest)
    (hw : Wired { d with queues := d.queues.set i { queue with queue := rest } }) :
    Served { d with queues := d.queues.set i { queue with queue := rest } } (h ++ [.received i bytes]) := by
  have hlt := (List.getElem?_eq_some_iff.mp hqueue).1
  have htable : table (h ++ [.received i bytes]) = table h := table_silent rfl
  have hother : ∀ {j}, i ≠ j → receivedBy j (h ++ [.received i bytes]) = receivedBy j h := by
    intro j hj
    simp [receivedBy, DialEvent.payloadOf, hj]
  have hself : receivedBy i (h ++ [.received i bytes]) = receivedBy i h ++ [bytes] := by
    simp [receivedBy, DialEvent.payloadOf]
  refine ⟨hw, hd.settled, ?_, ?_, ?_, ?_, ?_, ?_⟩
  · rw [htable, List.length_set]
    exact hd.streams
  · rw [htable]
    exact hd.known
  · intro id j hj
    rw [htable] at hj
    rcases hd.gone hj with hl | ⟨queue', hq', hclosed⟩
    · exact .inl hl
    · by_cases hij : i = j
      · subst hij
        rw [hqueue] at hq'
        cases hq'
        exact .inr ⟨_, List.getElem?_set_self hlt, hclosed⟩
      · exact .inr ⟨queue', by rw [List.getElem?_set_ne hij]; exact hq', hclosed⟩
  · intro j queue' hq'
    rw [htable]
    by_cases hij : i = j
    · subst hij
      rw [List.getElem?_set_self hlt] at hq'
      cases hq'
      have hsame := hd.given hqueue
      simpa [RelayDialer.given, pendingFor, hself, hfirst, Fed] using hsame
    · rw [List.getElem?_set_ne hij] at hq'
      have hsame := hd.given hq'
      simpa [RelayDialer.given, pendingFor, hother hij, Fed] using hsame
  · intro j hj
    rw [List.length_set] at hj
    rw [hother (by omega)]
    exact hd.unborn hj
  · intro transport ht
    rw [htable]
    exact hd.labelled ht

/-- A transport is closed, or dropped. -/
theorem Served.shut (hd : Served d h) (i : Nat)
    (hw : Wired { d with queues := d.queues.modify i fun queue => { queue with closed := true } }) :
    Served { d with queues := d.queues.modify i fun queue => { queue with closed := true } } h := by
  have hget : ∀ {j : Nat} {queue' : Channel.Mpsc (List UInt8)},
      (d.queues.modify i fun queue => { queue with closed := true })[j]? = some queue' →
        ∃ queue, d.queues[j]? = some queue ∧ queue'.queue = queue.queue ∧ (queue'.closed = false → queue.closed =
          false) := by
    intro j queue' hq'
    rw [List.getElem?_modify] at hq'
    obtain ⟨queue, hq, rfl⟩ := Option.map_eq_some_iff.mp hq'
    refine ⟨queue, hq, ?_⟩
    split
    · exact ⟨rfl, fun h => nomatch h⟩
    · exact ⟨rfl, id⟩
  refine ⟨hw, hd.settled, ?_, hd.known, ?_, ?_, ?_, ?_⟩
  · rw [List.length_modify]
    exact hd.streams
  · intro id j hj
    rcases hd.gone hj with hl | ⟨queue, hq, hclosed⟩
    · exact .inl hl
    · refine .inr ⟨if i = j then { queue with closed := true } else queue, ?_, ?_⟩
      · rw [List.getElem?_modify, hq]
        rfl
      · split
        · rfl
        · exact hclosed
  · intro j queue' hq'
    obtain ⟨queue, hq, hcontent, hopen⟩ := hget hq'
    obtain ⟨key, payloads, hs, hprefix, hfed⟩ := hd.given hq
    have hgiven : ({ d with queues := d.queues.modify i fun queue => { queue with closed := true } } :
      RelayDialer).given h j
        queue' = d.given h j queue := by
      simp only [RelayDialer.given, pendingFor, hcontent]
    rw [hgiven]
    exact ⟨key, payloads, hs, hprefix, fun hf => hfed (hf.imp_left hopen)⟩
  · intro j hj
    rw [List.length_modify] at hj
    exact hd.unborn hj
  · exact hd.labelled

/-- The dialer begins anew, with a table of its own. -/
theorem Served.redialed (hd : Served d h) (hpending : d.pending = none)
    (hw : Wired { d with pairs := ∅, pending := none, result := none }) :
    Served { d with pairs := ∅, pending := none, result := none } (h ++ [.heard .reset]) := by
  have htable : table (h ++ [.heard .reset]) = (table h).step .reset := table_heard rfl
  have hreceived : ∀ i, receivedBy i (h ++ [.heard .reset]) = receivedBy i h := by
    intro i
    simp [receivedBy, DialEvent.payloadOf]
  refine ⟨hw, .inl rfl, ?_, ?_, ?_, ?_, ?_, ?_⟩
  · rw [htable]
    exact hd.streams
  · intro id i hl
    cases hl
  · intro id i hi
    rw [htable] at hi
    cases hi
  · intro i queue hq
    rw [htable]
    obtain ⟨key, payloads, hs, hprefix, hfed⟩ := hd.given hq
    have hgiven : ({ d with pairs := ∅, pending := none, result := none } : RelayDialer).given (h ++
      [.heard .reset]) i queue =
        d.given h i queue := by
      simp only [RelayDialer.given, hreceived, pendingFor, hpending]
    rw [hgiven]
    refine ⟨key, payloads, hs, hprefix, fun hf => hfed ?_⟩
    rcases hf with hopen | ⟨id, hl⟩
    · exact .inl hopen
    · cases hl
  · intro i hi
    rw [hreceived]
    exact hd.unborn hi
  · intro transport ht
    rw [htable]
    rcases ht with ht | ht
    · exact hd.labelled (.inl ht)
    · cases ht

/-- **Every move keeps the transports served.** -/
theorem Served.step {move : Move} (hd : Served d h) (hs : d.step move = some e) : Served e (h ++ d.emit move) := by
  have hw := hd.wired.step hs
  cases move with
  | read msg =>
    simp only [RelayDialer.step] at hs
    split at hs
    · next hresult hpending =>
      cases hs
      exact hd.read hpending hresult msg
    · cases hs
  | advance =>
    simp only [RelayDialer.step] at hs
    split at hs
    · next hpending =>
      simp only [emit, List.append_nil]
      exact hd.perform hpending hs
    · cases hs
  | recv i =>
    simp only [RelayDialer.step] at hs
    split at hs
    · cases hs
    · next queue hqueue =>
      obtain ⟨⟨bytes, queue'⟩, hrecv, rfl⟩ := Option.map_eq_some_iff.mp hs
      obtain ⟨rest, hfirst, rfl⟩ : ∃ rest, queue.queue = bytes :: rest ∧ queue' = { queue with queue := rest } := by
        unfold Channel.Mpsc.recv at hrecv
        split at hrecv
        · cases hrecv
        · next a rest hfirst =>
          cases hrecv
          exact ⟨rest, hfirst, rfl⟩
      simp only [emit, hqueue, Option.bind_some, hrecv]
      exact hd.received hqueue hfirst hw
  | close i =>
    cases hs
    simp only [emit, List.append_nil]
    exact hd.shut i hw
  | accept =>
    obtain ⟨⟨transport, accepted⟩, hrecv, rfl⟩ := Option.map_eq_some_iff.mp hs
    simp only [emit, List.append_nil]
    refine hd.same hw rfl rfl (fun _ => rfl) hd.settled fun ht => ?_
    refine ht.imp_left fun hmem => ?_
    unfold Channel.Mpsc.recv at hrecv
    split at hrecv
    · cases hrecv
    · next a rest hfirst =>
      cases hrecv
      rw [hfirst]
      exact List.mem_cons_of_mem _ hmem
  | dropAccept =>
    cases hs
    simp only [emit, List.append_nil]
    exact hd.same hw rfl rfl (fun _ => rfl) hd.settled id
  | dial =>
    simp only [RelayDialer.step] at hs
    split at hs
    · cases hs
    · next result hresult =>
      cases hs
      refine hd.redialed ?_ hw
      rcases hd.settled with hpending | hnone
      · exact hpending
      · cases hresult.symm.trans hnone

/-- **A whole run keeps them served.** -/
theorem Served.run {moves : List Move} {h' : List DialEvent} (hd : Served d h)
    (hr : Steps.run (Steps.traced RelayDialer.step emit) (d, h) moves = some (e, h')) : Served e h' := by
  refine Steps.run_invariant (C := fun _ _ => True) (I := fun p => Served p.1 p.2) ?_ (Steps.meets_true _ _) hr hd
  rintro ⟨u, g⟩ move ⟨v, g'⟩ hu _ hst
  obtain ⟨hv, rfl⟩ := Steps.traced_eq_some.mp hst
  exact hu.step hv

theorem served_run {moves : List Move} (hr : Steps.run (Steps.traced step emit) ({}, []) moves = some (d, h)) :
    Served d h :=
  served_empty.run hr

/-- **The bridges deliver.** In every run, what the task of a transport has received, with what waits for it, is the
stream of its pair on the line of the relay, or where the transport has been closed the beginning of it; and a transport
that waits to be accepted has the label of its pair. -/
theorem bridges_deliver {moves : List Move} {d : RelayDialer} {h : List DialEvent}
    (hr : Steps.run (Steps.traced step emit) ({}, []) moves = some (d, h)) :
    (∀ i queue, d.queues[i]? = some queue → ∃ pairId payloads,
      (Demux.lineStreams (line h))[i]? = some (pairId, payloads) ∧
        receivedBy i h ++ queue.queue ++ d.pendingFor i <+: payloads ∧
        (queue.closed = false → receivedBy i h ++ queue.queue ++ d.pendingFor i = payloads)) ∧
      ∀ transport ∈ d.accepted.queue,
        ∃ payloads, (Demux.lineStreams (line h))[transport.toDaemonRx]? = some (transport.label, payloads) := by
  have hd := served_run hr
  rw [← Demux.streams_run]
  constructor
  · intro i queue hq
    obtain ⟨pairId, payloads, hs, hprefix, hfed⟩ := hd.given hq
    exact ⟨pairId, payloads, hs, hprefix, fun hopen => hfed (.inl hopen)⟩
  · intro transport ht
    exact hd.labelled (.inl ht)

/-- Two pairs are announced, and the first is given a payload for each of two turns of its task. -/
def bridgedMoves : List Move :=
  [.read (.binary (encodeRelayCtrl (.pairInbound pairA))), .advance,
    .read (.binary (encodeRelayCtrl (.pairInbound pairB))), .advance, .accept, .read (.binary frameA), .advance,
    .recv 0, .read (.binary frameB), .advance, .read (.binary frameA), .advance]

def bridgedTrace : RelayDialer × List DialEvent :=
  (Steps.run (Steps.traced step emit) ({}, []) bridgedMoves).getD ({}, [])

theorem run_bridgedMoves : Steps.run (Steps.traced step emit) ({}, []) bridgedMoves = some bridgedTrace := by
  rfl

theorem bridges_deliver_sample : receivedBy 0 bridgedTrace.2 = [[0x2a]] ∧
    ∃ pairId payloads, (Demux.lineStreams (line bridgedTrace.2))[0]? = some (pairId, payloads) ∧
      receivedBy 0 bridgedTrace.2 ++ [[0x2a]] ++ bridgedTrace.1.pendingFor 0 <+: payloads := by
  have hqueue : bridgedTrace.1.queues[0]? = some { capacity := pairQueueCapacity, queue := [[0x2a]] } := by rfl
  obtain ⟨pairId, payloads, hs, hprefix, _⟩ := (bridges_deliver run_bridgedMoves).1 0 _ hqueue
  exact ⟨by rfl, pairId, payloads, hs, hprefix⟩

end RelayDialer

end CliPocket
