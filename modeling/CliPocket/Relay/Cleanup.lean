import CliPocket.Relay.Returned

/-!
# What is left when the tasks have returned

A pair in the table is minded by the tasks at both ends: the client's still reads, or has the closing of the pair to
come; the server's does so too, or its writer goes on, whose sender the pair holds. The closing stands behind the read
loops; it is missed where a task leaves through an error before it, and where a pair comes into the table when its server
has already listed its pairs. A client's task, at last, holds its pair while it awaits its writer, which has to be told
of its end by a frame that the websocket refuses (`Relay.tidy`).

- `Relay.serverTickets`, `Relay.pairTickets`: the counters of `Caps`;
- `Relay.CleanUp`: what is to hold of tasks that have returned;
- `Minds`, `minds_effect`: who minds a pair;
- `Standing`, `Kept`, `kept_effect`: what a tidy run keeps;
- `clean_up`: **a tidy run cleans up**; `clean_up_missed`: others need not.
-/

namespace CliPocket

namespace Relay

open Function (update)

variable {v v' : View} {r r' : ConnId → Bool} {move : Move} {h es : List Event}

/-! ## Counters and clean-up -/

/-- `CapsSnapshot::servers`: the tickets that registrations hold. -/
def serverTickets (s : Relay) : Nat :=
  s.conns.countP fun conn =>
    match conn.role with
    | .server _ _ => !hasEnded conn
    | .client _ _ _ => false

/-- `CapsSnapshot::pairs`: the tickets that pair objects hold. -/
def pairTickets (s : Relay) : Nat :=
  s.conns.countP fun conn =>
    match conn.role with
    | .server _ _ => false
    | .client pairId _ _ => s.pairLives conn pairId

/-- A client that connects and has not been told of its pair yet. -/
def Connecting (s : Relay) (i : ConnId) : Prop := s.phase i = some .opening ∧ s.todo (some i) ≠ []

/-- No websocket is read any more, and there is nothing left that a task can do. -/
structure Deserted (s : Relay) : Prop where
  reads : ∀ c msg now, s.step (.read c msg now) = none
  advances : ∀ c, s.step (.advance c) = none
  finishes : ∀ c, s.step (.finish c) = none
  writes : ∀ c ok, s.step (.write c ok) = none
  sweeps : s.step .sweepAdvance = none

/-- The table is empty, and so are both counters. -/
def Vacant (s : Relay) : Prop := (∀ pairId, s.pairs.lookup pairId = none) ∧ s.serverTickets = 0 ∧ s.pairTickets = 0

/-- What is to hold of tasks that have returned, and when no websocket is left. -/
structure CleanUp (s : Relay) : Prop where
  server : ∀ {c serverId g}, s.role c = some (.server serverId g) → s.returned c = true →
    (∀ i pairId tx, s.role i = some (.client pairId serverId tx) → ¬s.Connecting i) →
    (∀ pairId pair, s.pairs.lookup pairId = some pair → pair.serverTx ≠ c) ∧
      ∀ slot, s.servers.lookup serverId = some slot → slot.tx ≠ c
  client : ∀ {i pairId serverId tx}, s.role i = some (.client pairId serverId tx) → s.returned i = true →
    s.pairs.lookup pairId = none
  empty : (∀ c who, s.role c = some who → s.returned c = true) → s.Vacant
  deserted : s.Deserted → s.Vacant

/-! ## Tidy moves -/

/-- No pair in the table belongs to the registration. -/
def hasNoPairs (s : Relay) (c : ConnId) : Bool := s.pairs.entries.all fun entry => entry.2.serverTx ≠ c

/-- A message that ends a server's task by an error. -/
def badMessage (s : Relay) (serverId : ServerId) : Incoming → Bool
  | .error _ => true
  | .textOrFrame => true
  | .binary bytes =>
    match decodeRelay bytes with
    | .error _ => true
    | .ok (.data (.forward pairId _)) => (s.pairs.lookup pairId).any fun pair => pair.serverId ≠ serverId
    | _ => false
  | _ => false

/-- The server's task has its pairs still to list. -/
def listens (s : Relay) (c : ConnId) (serverId : ServerId) : Bool :=
  match s.conns[c]? with
  | none => false
  | some conn =>
    match conn.phase with
    | .opening => true
    | .reading => true
    | .closing _ => decide (.closePairsOf serverId ∈ conn.todo)
    | .ended _ => false

/-- The server's task still reads, or has the closing of the pair to come. -/
def minds (s : Relay) (c : ConnId) (pair : Pair) : Bool :=
  match s.conns[c]? with
  | none => false
  | some conn =>
    match conn.phase with
    | .opening => true
    | .reading => true
    | .closing _ => conn.todo.any fun op =>
      match op with
      | .closePairsOf serverId => serverId = pair.serverId
      | .closePair pairId _ => pairId = pair.pairId
      | _ => false
    | .ended _ => false

/-- The writer of `c` goes on. -/
def writes (s : Relay) (c : ConnId) : Bool := (s.channel c).any fun channel => !channel.closed

/-- A message is to be sent to `c`. -/
def awaited (s : Relay) (c : ConnId) : Bool :=
  (s.sweeper ++ s.conns.flatMap Conn.todo).any fun op => op.target = some c

/-- The guillotine has something to do with the pair. -/
def sweeps (s : Relay) (pairId : PairId) : Bool := s.sweeper.any (holdsPair pairId)

/-- A send on a closed queue ends no server's task that has pairs and no writer, and no client's task that opens and has
its pair in the table; a pair is inserted while its server has its pairs still to list, or writes. -/
def opTidy (s : Relay) (c : ConnId) (conn : Conn) : Op → Bool
  | .send tx _ true =>
    (s.channel tx).all (fun channel => !channel.closed) ||
      match conn.role, conn.phase with
      | .server _ _, _ => s.writes c || s.hasNoPairs c
      | .client pairId _ _, .opening => (s.pairs.lookup pairId).isNone && !s.sweeps pairId
      | .client _ _ _, _ => true
  | .insertPair pair => s.listens pair.serverTx pair.serverId || s.writes pair.serverTx
  | _ => true

/-- The writer of a server goes on while there are pairs that the server's task does not mind; that of a client's task
which has ended does not run dry. -/
def turnTidy (s : Relay) (c : ConnId) (conn : Conn) (channel : Channel.Mpsc ServerMsg) : Bool :=
  match conn.role, conn.phase with
  | .server _ _, _ => !channel.closed || s.pairs.entries.all fun entry => entry.2.serverTx ≠ c || s.minds c entry.2
  | .client _ _ _, .ended _ => channel.closed || !channel.queue.isEmpty || s.awaited c
  | .client _ _ _, _ => true

/-- Moves that keep everything minded: errors and writers end servers' tasks only when these have no pairs left, and a
client's task ends with something for its writer to do, and returns when the guillotine is not at its pair. -/
def tidy (s : Relay) : Move → Bool
  | .read c msg _ =>
    match s.role c with
    | some (.server serverId _) => !s.badMessage serverId msg || s.writes c || s.hasNoPairs c
    | _ => true
  | .advance c => s.conns[c]?.all fun conn => conn.todo.head?.all (s.opTidy c conn)
  | .finish c => s.conns[c]?.all fun conn =>
    match conn.role, conn.phase with
    | .client _ _ _, .closing _ => conn.channel.closed || !conn.channel.queue.isEmpty || s.awaited c
    | .client pairId _ _, .ended _ => !s.sweeps pairId
    | _, _ => true
  | .write c ok => s.conns[c]?.all fun conn => (s.writerTurn c conn ok).all fun turn => s.turnTidy c conn turn.1
  | _ => true

/-- The message ends a server's task by an error. -/
def BadMessage (v : View) (serverId : ServerId) (msg : Incoming) : Prop :=
  (∃ what, msg = .error what) ∨ msg = .textOrFrame ∨ ∃ bytes, msg = .binary bytes ∧
    ((∃ err, decodeRelay bytes = .error err) ∨ ∃ pairId payload pair,
      decodeRelay bytes = .ok (.data (.forward pairId payload)) ∧ v.pairs pairId = some pair ∧ pair.serverId ≠ serverId)

def Listens (v : View) (c : ConnId) (serverId : ServerId) : Prop :=
  v.phase c = some .opening ∨ v.phase c = some .reading ∨
    (∃ result, v.phase c = some (.closing result)) ∧ .closePairsOf serverId ∈ v.todo (some c)

/-- The task at `c` still reads, or has the closing of the pair to come. -/
def Minds (v : View) (c : ConnId) (pairId : PairId) (serverId : ServerId) : Prop :=
  v.phase c = some .opening ∨ v.phase c = some .reading ∨
    (∃ result, v.phase c = some (.closing result)) ∧
      (.closePairsOf serverId ∈ v.todo (some c) ∨ ∃ reason, .closePair pairId reason ∈ v.todo (some c))

/-- A tidy move, on the state as functions. -/
structure Tidy (v : View) (move : Move) (v' : View) : Prop where
  reads : ∀ {c msg now serverId g}, move = .read c msg now → v.role c = some (.server serverId g) →
    BadMessage v serverId msg → ¬IsOpen v c → ∀ pairId pair, v.pairs pairId = some pair → pair.serverTx ≠ c
  serverSends : ∀ {c serverId g tx msg rest channel}, move = .advance c → v.role c = some (.server serverId g) →
    v.todo (some c) = .send tx msg true :: rest → v.channel tx = some channel → channel.closed = true → ¬IsOpen v c →
    ∀ pairId pair, v.pairs pairId = some pair → pair.serverTx ≠ c
  clientSends : ∀ {c pairId serverId stx tx msg rest channel}, move = .advance c →
    v.role c = some (.client pairId serverId stx) → v.todo (some c) = .send tx msg true :: rest →
    v.channel tx = some channel → channel.closed = true → v.phase c = some .opening →
    v.pairs pairId = none ∧ ∀ op ∈ v.todo none, holdsPair pairId op = false
  inserts : ∀ {c pair rest}, move = .advance c → v.todo (some c) = .insertPair pair :: rest →
    ¬IsOpen v pair.serverTx → Listens v pair.serverTx pair.serverId
  finishes : ∀ {c pairId serverId tx result}, move = .finish c → v.role c = some (.client pairId serverId tx) →
    v.phase c = some (.closing result) → Draining v c
  returns : ∀ {c pairId serverId tx result}, move = .finish c → v.role c = some (.client pairId serverId tx) →
    v.phase c = some (.ended result) → ∀ op ∈ v.todo none, holdsPair pairId op = false
  serverWrites : ∀ {c ok serverId g pairId pair}, move = .write c ok → v.role c = some (.server serverId g) →
    ¬IsOpen v' c → v.pairs pairId = some pair → pair.serverTx = c → Minds v c pairId pair.serverId
  clientWrites : ∀ {c ok pairId serverId tx result}, move = .write c ok → v.role c = some (.client pairId serverId tx) →
    v.phase c = some (.ended result) → Draining v' c

variable {s t : Relay}

theorem hasNoPairs_iff {c : ConnId} (hn : s.hasNoPairs c = true) {pairId : PairId} {pair : Pair}
    (hp : s.view.pairs pairId = some pair) : pair.serverTx ≠ c := by
  obtain ⟨stored, hl, rfl⟩ := Option.map_eq_some_iff.mp hp
  have hall := List.all_eq_true.mp hn ⟨pairId, stored⟩ (AList.mem_lookup_iff.mp hl)
  have hne : stored.serverTx ≠ c := by simpa using hall
  exact hne

theorem badMessage_of {serverId : ServerId} {msg : Incoming} (hb : BadMessage s.view serverId msg) :
    s.badMessage serverId msg = true := by
  obtain ⟨what, rfl⟩ | rfl | ⟨bytes, rfl, ⟨err, hdecode⟩ | ⟨pairId, payload, pair, hdecode, hpair, hne⟩⟩ := hb
  · rfl
  · rfl
  · simp only [badMessage, hdecode]
  · obtain ⟨stored, hl, rfl⟩ := Option.map_eq_some_iff.mp hpair
    simp only [badMessage, hdecode, hl, Option.any_some, decide_eq_true_eq]
    exact hne

theorem listens_of {c : ConnId} {serverId : ServerId} (hl : s.listens c serverId = true) : Listens s.view c serverId := by
  unfold listens at hl
  cases hc : s.conns[c]? with
  | none =>
    rw [hc] at hl
    cases hl
  | some conn =>
    rw [hc] at hl
    simp only at hl
    have hphase : s.view.phase c = some conn.phase := phase_eq hc
    have htodo : s.view.todo (some c) = conn.todo := todo_eq hc
    unfold Listens
    rw [hphase, htodo]
    cases hp : conn.phase with
    | opening => exact .inl rfl
    | reading => exact .inr (.inl rfl)
    | closing result =>
      rw [hp] at hl
      exact .inr (.inr ⟨⟨result, rfl⟩, of_decide_eq_true hl⟩)
    | ended result =>
      rw [hp] at hl
      cases hl

theorem opTidy_of {c : ConnId} {conn : Conn} {op : Op} {rest : List Op} (ht : s.tidy (.advance c) = true)
    (hc : s.conns[c]? = some conn) (htodo : conn.todo = op :: rest) : s.opTidy c conn op = true := by
  simp only [tidy, hc, Option.all_some, htodo, List.head?_cons] at ht
  exact ht

/-- The connection whose list has something at the front. -/
theorem conn_of_todo {c : ConnId} {op : Op} {rest : List Op} (htodo : s.view.todo (some c) = op :: rest) :
    ∃ conn, s.conns[c]? = some conn ∧ conn.todo = op :: rest := by
  cases hc : s.conns[c]? with
  | none => simp [view, todo, hc] at htodo
  | some conn => exact ⟨conn, rfl, (todo_eq hc).symm.trans htodo⟩

theorem writes_of {c : ConnId} (hw : s.writes c = true) : IsOpen s.view c := by
  unfold writes at hw
  cases hc : s.channel c with
  | none =>
    rw [hc] at hw
    cases hw
  | some channel => exact ⟨channel, hc, by simpa [hc] using hw⟩

theorem sweeps_of {pairId : PairId} (hs : s.sweeps pairId = false) : ∀ op ∈ s.view.todo none, holdsPair pairId op = false :=
  fun op hm => by simpa using List.any_eq_false.mp hs op hm

theorem minds_of {c : ConnId} {pair : Pair} (hm : s.minds c pair = true) : Minds s.view c pair.pairId pair.serverId := by
  unfold minds at hm
  split at hm
  · cases hm
  · next conn hc =>
    have hphase : s.view.phase c = some conn.phase := phase_eq hc
    have htodo : s.view.todo (some c) = conn.todo := todo_eq hc
    unfold Minds
    rw [hphase, htodo]
    split at hm
    · next hp => exact .inl (by rw [hp])
    · next hp => exact .inr (.inl (by rw [hp]))
    · next result hp =>
      refine .inr (.inr ⟨⟨result, by rw [hp]⟩, ?_⟩)
      obtain ⟨op, hop, hcloses⟩ := List.any_eq_true.mp hm
      split at hcloses
      · exact .inl (of_decide_eq_true hcloses ▸ hop)
      · exact .inr ⟨_, of_decide_eq_true hcloses ▸ hop⟩
      · cases hcloses
    · cases hm

theorem awaited_of {c : ConnId} (ha : s.awaited c = true) : Awaited s.view c := by
  unfold awaited at ha
  obtain ⟨op, hm, htarget⟩ := List.any_eq_true.mp ha
  have htarget := of_decide_eq_true htarget
  cases op with
  | send tx msg required =>
    obtain rfl : tx = c := Option.some.inj htarget
    rcases List.mem_append.mp hm with hm | hm
    · exact ⟨none, msg, required, hm⟩
    · obtain ⟨conn, hconn, hm⟩ := List.mem_flatMap.mp hm
      obtain ⟨i, hi⟩ := List.mem_iff_getElem?.mp hconn
      have htodo : s.view.todo (some i) = conn.todo := todo_eq hi
      exact ⟨some i, msg, required, htodo ▸ hm⟩
  | _ => cases htarget

/-- A writer that is left with a message, or will be. -/
theorem draining_of {c : ConnId} {channel : Channel.Mpsc ServerMsg} (hchannel : t.channel c = some channel)
    (htodo : t.view.todo = s.view.todo)
    (hd : (channel.closed || !channel.queue.isEmpty || s.awaited c) = true) : Draining t.view c := by
  rcases Bool.or_eq_true_iff.mp hd with hd | hd
  · refine .inl ⟨channel, hchannel, ?_⟩
    simpa using hd
  · obtain ⟨a, msg, required, hm⟩ := awaited_of hd
    exact .inr ⟨a, msg, required, htodo ▸ hm⟩

/-- A turn of a tidy writer. -/
theorem turnTidy_of {c : ConnId} {ok : Bool} {who : Role} (ht : s.tidy (.write c ok) = true)
    (hs : s.step (.write c ok) = some t) (hrole : s.view.role c = some who) :
    ∃ conn channel, conn.role = who ∧ s.phase c = some conn.phase ∧ t.channel c = some channel ∧
      t.view.todo = s.view.todo ∧ s.turnTidy c conn channel = true := by
  obtain ⟨conn, hc, hwho⟩ := Option.map_eq_some_iff.mp hrole
  simp only [step, hc] at hs
  obtain ⟨⟨channel, written⟩, hturn, rfl⟩ := Option.map_eq_some_iff.mp hs
  simp only [tidy, hc, Option.all_some, hturn] at ht
  refine ⟨conn, channel, hwho, phase_eq hc, channel_mapConn_self hc _, ?_, ht⟩
  rw [view_setWritten hc, View.setChannel_todo]

theorem tidy_of_tidy (hw : Wf s) (ht : s.tidy move = true) (hs : s.step move = some t) : Tidy s.view move t.view where
  reads := by
    rintro c msg now serverId g rfl hrole hbad hclosed pairId pair hp
    have hrole' : s.role c = some (.server serverId g) := hrole
    simp only [tidy, hrole', badMessage_of hbad, Bool.not_true, Bool.false_or, Bool.or_eq_true] at ht
    rcases ht with hw | hn
    · exact absurd (writes_of hw) hclosed
    · exact hasNoPairs_iff hn hp
  serverSends := by
    rintro c serverId g tx msg rest channel rfl hrole htodo hchannel hclosed hdeaf pairId pair hp
    obtain ⟨conn, hc, htodo⟩ := conn_of_todo htodo
    have hop := opTidy_of ht hc htodo
    have hchannel' : s.channel tx = some channel := hchannel
    have hrole' : conn.role = .server serverId g := Option.some.inj ((role_eq hc).symm.trans hrole)
    simp only [opTidy, hchannel', Option.all_some, hclosed, Bool.not_true, Bool.false_or, hrole', Bool.or_eq_true] at hop
    rcases hop with hw | hn
    · exact absurd (writes_of hw) hdeaf
    · exact hasNoPairs_iff hn hp
  clientSends := by
    rintro c pairId serverId stx tx msg rest channel rfl hrole htodo hchannel hclosed hphase
    obtain ⟨conn, hc, htodo⟩ := conn_of_todo htodo
    have hop := opTidy_of ht hc htodo
    have hchannel' : s.channel tx = some channel := hchannel
    have hrole' : conn.role = .client pairId serverId stx := Option.some.inj ((role_eq hc).symm.trans hrole)
    have hphase' : conn.phase = .opening := Option.some.inj ((phase_eq hc).symm.trans hphase)
    simp only [opTidy, hchannel', Option.all_some, hclosed, Bool.not_true, Bool.false_or, hrole', hphase',
      Bool.and_eq_true, Bool.not_eq_true', Option.isNone_iff_eq_none] at hop
    exact ⟨Option.map_eq_none_iff.mpr hop.1, sweeps_of hop.2⟩
  inserts := by
    rintro c pair rest rfl htodo hclosed
    obtain ⟨conn, hc, htodo⟩ := conn_of_todo htodo
    rcases Bool.or_eq_true_iff.mp (opTidy_of ht hc htodo) with hl | hw
    · exact listens_of hl
    · exact absurd (writes_of hw) hclosed
  finishes := by
    rintro c pairId serverId tx result rfl hrole hphase
    obtain ⟨conn, hc, hrole'⟩ := Option.map_eq_some_iff.mp hrole
    have hphase' : conn.phase = .closing result := Option.some.inj ((phase_eq hc).symm.trans hphase)
    simp only [tidy, hc, Option.all_some, hrole', hphase'] at ht
    exact draining_of (t := s) (channel_eq hc) rfl ht
  returns := by
    rintro c pairId serverId tx result rfl hrole hphase
    obtain ⟨conn, hc, hrole'⟩ := Option.map_eq_some_iff.mp hrole
    have hphase' : conn.phase = .ended result := Option.some.inj ((phase_eq hc).symm.trans hphase)
    simp only [tidy, hc, Option.all_some, hrole', hphase', Bool.not_eq_true'] at ht
    exact sweeps_of ht
  serverWrites := by
    rintro c ok serverId g pairId pair rfl hrole hclosed hp rfl
    obtain ⟨conn, channel, hrole', _, hchannel, _, hturn⟩ := turnTidy_of ht hs hrole
    obtain ⟨stored, hl, rfl⟩ := Option.map_eq_some_iff.mp hp
    have hall : channel.closed = true := by
      by_contra hopen
      exact hclosed ⟨channel, hchannel, Bool.not_eq_true _ ▸ hopen⟩
    simp only [turnTidy, hrole', hall, Bool.not_true, Bool.false_or, List.all_eq_true] at hturn
    have hminds := hturn ⟨pairId, stored⟩ (AList.mem_lookup_iff.mp hl)
    obtain rfl : stored.pairId = pairId := (hw.rooted.pairs hl).1
    exact minds_of (by simpa [timeless] using hminds)
  clientWrites := by
    rintro c ok pairId serverId tx result rfl hrole hphase
    obtain ⟨conn, channel, hrole', hphase', hchannel, htodo, hturn⟩ := turnTidy_of ht hs hrole
    have hended : conn.phase = .ended result := Option.some.inj (hphase'.symm.trans hphase)
    simp only [turnTidy, hrole', hended] at hturn
    exact draining_of hchannel htodo hturn

/-! ## Who minds a pair -/

theorem Minds.running {c : ConnId} {pairId : PairId} {serverId : ServerId} (h : Minds v c pairId serverId) : Running v c := by
  rcases h with hphase | hphase | ⟨⟨result, hphase⟩, _⟩
  · exact ⟨_, hphase, fun result => Phase.noConfusion⟩
  · exact ⟨_, hphase, fun result => Phase.noConfusion⟩
  · exact ⟨_, hphase, fun result => Phase.noConfusion⟩

theorem Listens.minds {c : ConnId} {serverId : ServerId} (h : Listens v c serverId) (pairId : PairId) :
    Minds v c pairId serverId := by
  rcases h with hphase | hphase | ⟨hphase, htodo⟩
  · exact .inl hphase
  · exact .inr (.inl hphase)
  · exact .inr (.inr ⟨hphase, .inl htodo⟩)

/-- What another task does leaves it so. -/
theorem Minds.frame {c : ConnId} {pairId : PairId} {serverId : ServerId} (h : Minds v c pairId serverId)
    (hphase : v'.phase c = v.phase c) (htodo : v'.todo (some c) = v.todo (some c)) : Minds v' c pairId serverId := by
  unfold Minds
  rw [hphase, htodo]
  exact h

/-- Another task begins something else. -/
theorem Minds.other {c d : ConnId} {pairId : PairId} {serverId : ServerId} {w : View} {phase : Phase} {ops : List Op}
    (h : Minds v c pairId serverId) (hcd : c ≠ d) (htodo : w.todo = v.todo) (hphase : w.phase = v.phase) :
    Minds ((w.setPhase d phase).setTodo (some d) ops) c pairId serverId := by
  have hne : some c ≠ some d := fun heq => hcd (Option.some.inj heq)
  refine h.frame ?_ ?_
  · rw [phase_of_ne hne, hphase]
  · rw [View.setTodo_todo, if_neg hne, View.setPhase_todo, htodo]

/-- The first thing that a task has to do is done, and does not close the pair. -/
theorem Minds.tail {c : ConnId} {a : Option ConnId} {pairId : PairId} {serverId : ServerId} {op : Op} {rest : List Op}
    (more : List Op) (h : Minds v c pairId serverId) (htodo : v.todo a = op :: rest) (hphase : v'.phase = v.phase)
    (htodo' : v'.todo = update v.todo a (more ++ rest)) (hlisting : op ≠ .closePairsOf serverId)
    (hclosing : ∀ reason, op ≠ .closePair pairId reason) : Minds v' c pairId serverId := by
  by_cases hca : some c = a
  · subst hca
    unfold Minds at h ⊢
    rw [hphase, htodo', Function.update_self]
    rw [htodo] at h
    refine h.imp id (Or.imp id (And.imp id ?_))
    rintro (hm | ⟨reason, hm⟩)
    · rcases List.mem_cons.mp hm with he | hm
      · exact absurd he.symm hlisting
      · exact .inl (List.mem_append_right _ hm)
    · rcases List.mem_cons.mp hm with he | hm
      · exact absurd he.symm (hclosing reason)
      · exact .inr ⟨reason, List.mem_append_right _ hm⟩
  · exact h.frame (by rw [hphase]) (by rw [htodo', Function.update_of_ne hca])

/-- An end of a pair: its server or its client. -/
def IsEnd (v : View) (c : ConnId) (pair : Pair) : Prop :=
  (c = pair.serverTx ∧ ∃ g, v.role c = some (.server pair.serverId g)) ∨
    v.role c = some (.client pair.pairId pair.serverId pair.serverTx)

theorem IsEnd.known {c : ConnId} {pair : Pair} (h : IsEnd v c pair) : ∃ who, v.role c = some who := by
  rcases h with ⟨_, g, h⟩ | h
  · exact ⟨_, h⟩
  · exact ⟨_, h⟩

/-- A task that a new websocket begins is at no end of an old pair. -/
theorem IsEnd.ne_new {c n : ConnId} {pair : Pair} (h : IsEnd v c pair) (hn : v.role n = none) : c ≠ n := by
  obtain ⟨who, hwho⟩ := h.known
  exact Relay.ne_new hwho hn

/-- **A tidy move leaves nobody careless**: who minds a pair does so until the pair is gone. -/
theorem minds_effect {c : ConnId} {pair : Pair} (hm : Minds v c pair.pairId pair.serverId) (hc : IsEnd v c pair)
    (hdeaf : c = pair.serverTx → IsOpen v c → ∃ ok, move = .write c ok) (htidy : Tidy v move v')
    (he : Effect v move v' es) (hp : v.pairs pair.pairId = some pair) (hp' : v'.pairs pair.pairId ≠ none) :
    Minds v' c pair.pairId pair.serverId := by
  -- The task at `d` begins something else.
  have hread : ∀ {d : ConnId} {w : View} {ops : List Op}, w.todo = v.todo → w.phase = v.phase →
      Minds ((w.setPhase d .reading).setTodo (some d) ops) c pair.pairId pair.serverId := by
    intro d w ops htodo hphase
    by_cases hcd : c = d
    · refine .inr (.inl ?_)
      rw [View.setTodo_phase, View.setPhase_phase, if_pos hcd]
    · exact hm.other hcd htodo hphase
  have hclose : ∀ {d : ConnId} {w : View} {ops : List Op} {result : RelayResult Unit}, w.todo = v.todo → w.phase = v.phase →
      (c = d → .closePairsOf pair.serverId ∈ ops ∨ ∃ reason, .closePair pair.pairId reason ∈ ops) →
      Minds ((w.setPhase d (.closing result)).setTodo (some d) ops) c pair.pairId pair.serverId := by
    intro d w ops result htodo hphase hops
    by_cases hcd : c = d
    · refine .inr (.inr ⟨⟨result, ?_⟩, ?_⟩)
      · rw [View.setTodo_phase, View.setPhase_phase, if_pos hcd]
      · rw [View.setTodo_todo, if_pos (by rw [hcd])]
        exact hops hcd
    · exact hm.other hcd htodo hphase
  have hsilent : (∀ ok, move ≠ .write c ok) → c = pair.serverTx → ¬IsOpen v c := by
    intro hne he hopen
    obtain ⟨ok, hmove⟩ := hdeaf he hopen
    exact hne ok hmove
  have hfail : ∀ {d : ConnId} {who : Role} {phase : Phase} {error : RelayError}, v.role d = some who →
      (∀ serverId g, who = .server serverId g → c = d → c ≠ pair.serverTx) →
      (∀ serverId tx, who = .client pair.pairId serverId tx → phase ≠ .opening) →
      Minds (v.fail d who phase error) c pair.pairId pair.serverId := by
    intro d who phase error hrole hserver hclient
    rw [View.fail_eq]
    by_cases hcd : c = d
    · subst hcd
      rcases hc with ⟨he, g, hc⟩ | hc
      · rw [hrole] at hc
        cases hc
        exact absurd he (hserver _ _ rfl rfl)
      · rw [hrole] at hc
        cases hc
        have hfailing : View.failing (.client pair.pairId pair.serverId pair.serverTx) phase error =
            (.closing (.error error), [.closePair pair.pairId .clientGone]) := by
          cases phase with
          | opening => exact absurd rfl (hclient _ _ rfl)
          | _ => rfl
        rw [hfailing]
        exact hclose (View.leave_todo _ _) (View.leave_phase _ _) fun _ => .inr ⟨_, List.mem_singleton.mpr rfl⟩
    · exact hm.other hcd (View.leave_todo _ _) (View.leave_phase _ _)
  cases he with
  | refused | returned | wrote | writerEnded => exact hm
  | registered hn =>
    have hcn := hc.ne_new hn
    exact hm.frame (Function.update_of_ne hcn _ _) (Function.update_of_ne (by simpa using hcn) _ _)
  | connected pair hn =>
    have hcn := hc.ne_new hn
    exact hm.frame (Function.update_of_ne hcn _ _) (Function.update_of_ne (by simpa using hcn) _ _)
  | pinged | ignored | answered | toClient | toServer | closedByServer => exact hread rfl rfl
  | @closedByClient d pairId serverId tx _ bytes closing reason hidle =>
    refine hclose rfl rfl ?_
    rintro rfl
    rcases hc with ⟨_, g, hc⟩ | hc
    · rw [hidle.role] at hc
      cases hc
    · rw [hidle.role] at hc
      cases hc
      exact .inr ⟨.clientGone, List.mem_append_right _ (List.mem_singleton.mpr rfl)⟩
  | @stopped d who _ _ hidle =>
    refine hclose rfl rfl ?_
    rintro rfl
    rcases hc with ⟨_, g, hc⟩ | hc
    · rw [hidle.role] at hc
      cases hc
      exact .inl (by simp [Role.farewell])
    · rw [hidle.role] at hc
      cases hc
      exact .inr ⟨.clientGone, List.mem_singleton.mpr rfl⟩
  | @readFailed d who error msg now hidle hbad =>
    refine hfail hidle.role ?_ fun _ _ _ => Phase.noConfusion
    rintro serverId g rfl rfl he
    have hbad' : BadMessage v serverId msg := by
      rcases hbad with h | h
      · exact .inl h
      · exact .inr (.inl h)
    exact htidy.reads rfl hidle.role hbad' (hsilent (fun _ => Move.noConfusion) he) _ _ hp he.symm
  | @rejected d serverId g now bytes error hidle hforeign hbad =>
    refine hfail hidle.role ?_ fun _ _ _ => Phase.noConfusion
    rintro _ _ hrole rfl he
    have hbad' : BadMessage v serverId (.binary bytes) := by
      refine .inr (.inr ⟨bytes, rfl, ?_⟩)
      rcases hbad with h | ⟨pairId, payload, hdecode⟩
      · exact .inl h
      · obtain ⟨foreign, hpair, hne⟩ := hforeign pairId payload hdecode
        exact .inr ⟨pairId, payload, foreign, hdecode, hpair, hne⟩
    exact htidy.reads rfl hidle.role hbad' (hsilent (fun _ => Move.noConfusion) he) _ _ hp he.symm
  | @sendFailed d who phase tx msg rest channel hrole hphase htodo hchannel hclosed =>
    refine hfail hrole ?_ ?_
    · rintro serverId g rfl rfl he
      exact htidy.serverSends rfl hrole htodo hchannel hclosed (hsilent (fun _ => Move.noConfusion) he) _ _ hp he.symm
    · rintro serverId stx rfl rfl
      have hnone := (htidy.clientSends rfl hrole htodo hchannel hclosed hphase).1
      rw [hp] at hnone
      cases hnone
  | pushed htodo | skipped htodo => exact hm.tail [] htodo rfl rfl Op.noConfusion fun _ => Op.noConfusion
  | inserted htodo => exact hm.tail [] htodo rfl rfl Op.noConfusion fun _ => Op.noConfusion
  | @closed a pairId reason rest htodo =>
    refine hm.tail _ htodo rfl rfl Op.noConfusion ?_
    rintro reason' hop
    cases hop
    rw [View.setTodo_pairs, View.erase_pairs, if_pos rfl] at hp'
    exact absurd rfl hp'
  | @listed a serverId ids rest htodo hids =>
    by_cases hserver : serverId = pair.serverId
    · subst hserver
      have hid : pair.pairId ∈ ids := (hids _).mpr ⟨pair, hp, rfl⟩
      by_cases hca : some c = a
      · subst hca
        unfold Minds at hm ⊢
        refine hm.imp id (Or.imp id (And.imp id fun _ => .inr ⟨.serverGone, ?_⟩))
        rw [View.setTodo_todo, if_pos rfl]
        exact List.mem_append_left _ (List.mem_map.mpr ⟨_, hid, rfl⟩)
      · exact hm.frame rfl (by rw [View.setTodo_todo, if_neg hca])
    · exact hm.tail _ htodo rfl rfl (by simpa using hserver) fun _ => Op.noConfusion
  | removed htodo => exact hm.tail [] htodo rfl rfl Op.noConfusion fun _ => Op.noConfusion
  | @finished d who result hrole hphase htodo =>
    have hcd : c ≠ d := by
      rintro rfl
      unfold Minds at hm
      rw [hphase, htodo] at hm
      simp at hm
    exact hm.frame (by rw [View.setPhase_phase, if_neg hcd, View.leave_phase]) (by simp)
  | swept => exact hm.frame rfl (by rw [View.setTodo_todo, if_neg (by simp)])

/-! ## What a tidy run keeps -/

/-- The registry leads to servers whose tasks have not ended. -/
def Standing (v : View) : Prop := ∀ serverId slot, v.servers serverId = some slot → Running v slot.tx

/-- Where a pair in the table comes from. -/
theorem pair_effect (he : Effect v move v' es) {pairId : PairId} {pair : Pair} (hp : v'.pairs pairId = some pair) :
    v.pairs pairId = some pair ∨ ∃ a new rest, move = advanceOf a ∧ v.todo a = .insertPair new :: rest ∧
      pair = timeless new ∧ v'.phase = v.phase ∧ v'.todo = update v.todo a rest := by
  have herase : ∀ q, (v.erase q).pairs pairId = some pair → v.pairs pairId = some pair := by
    intro q h
    rw [View.erase_pairs] at h
    split at h
    · cases h
    · exact h
  cases he with
  | @inserted a new rest htodo =>
    rw [View.setTodo_pairs, View.insert_pairs] at hp
    split at hp
    · exact .inr ⟨a, new, rest, rfl, htodo, (Option.some.inj hp).symm, rfl, rfl⟩
    · exact .inl hp
  | closedByServer | closedByClient | closed | removed => exact .inl (herase _ hp)
  | readFailed | rejected | sendFailed =>
    rw [View.fail_eq] at hp
    exact .inl (by simpa using hp)
  | finished => exact .inl (by simpa using hp)
  | _ => exact .inl hp

theorem standing_effect (hv : Standing v) (hw : Sound v) (hlive : Live v) (hended : Ended v) (he : Effect v move v' es) :
    Standing v' := by
  -- A task goes on.
  have hphase : ∀ {c : ConnId} {phase : Phase}, (∀ result, phase ≠ .ended result) → Standing (v.setPhase c phase) := by
    intro c phase hne serverId slot hslot
    obtain ⟨old, hold, hrunning⟩ := hv serverId slot hslot
    unfold Running
    rw [View.setPhase_phase]
    split
    · exact ⟨phase, rfl, hne⟩
    · exact ⟨old, hold, hrunning⟩
  -- A task ends.
  have hleave : ∀ {c : ConnId} (who : Role) {result : RelayResult Unit}, v.role c = some who → Running v c →
      Standing ((v.leave who).setPhase c (.ended result)) := by
    intro c who result hrole hc serverId slot hslot
    rw [View.setPhase_servers] at hslot
    have hold : v.servers serverId = some slot ∧ slot.tx ≠ c := by
      cases who with
      | client p id tx =>
        refine ⟨hslot, ?_⟩
        rintro rfl
        obtain ⟨g, hg⟩ := hw.registry hslot
        rw [hrole] at hg
        cases hg
      | server id g =>
        obtain ⟨phase, hphase, hne⟩ := hc
        have hself := hlive c id g phase hrole hphase hne
        rw [View.leave, View.unregister, hself] at hslot
        simp only [if_true, Function.update_apply] at hslot
        split at hslot
        · cases hslot
        · next hid =>
          refine ⟨hslot, ?_⟩
          rintro rfl
          obtain ⟨g', hg'⟩ := hw.registry hslot
          rw [hrole] at hg'
          cases hg'
          exact hid rfl
    obtain ⟨old, hphase, hrunning⟩ := hv serverId slot hold.1
    refine ⟨old, ?_, hrunning⟩
    rw [View.setPhase_phase, if_neg hold.2, View.leave_phase]
    exact hphase
  have hfail : ∀ {c : ConnId} {who : Role} {phase : Phase} {error : RelayError}, v.role c = some who → Running v c →
      Standing (v.fail c who phase error) := by
    intro c who phase error hrole hc
    rw [View.fail_eq]
    cases who with
    | server id g => exact hleave (.server id g) hrole hc
    | client p id tx =>
      cases phase with
      | opening => exact hleave (.client p id tx) hrole hc
      | _ => exact hphase fun result => Phase.noConfusion
  have hnew : ∀ {n : ConnId} {slot : StoredServerSlot} {serverId : ServerId} {ph : Option Phase}, v.role n = none →
      v.servers serverId = some slot → ∃ old, update v.phase n ph slot.tx = some old ∧ ∀ result, old ≠ .ended result := by
    intro n slot serverId ph hn hslot
    obtain ⟨old, hold, hrunning⟩ := hv serverId slot hslot
    obtain ⟨g, hg⟩ := hw.registry hslot
    exact ⟨old, (Function.update_of_ne (ne_new hg hn) _ _).trans hold, hrunning⟩
  cases he with
  | @registered n id first admitted hn hfree =>
    intro serverId slot hslot
    simp only [Function.update_apply] at hslot
    split at hslot
    · cases hslot
      exact ⟨.opening, Function.update_self _ _ _, fun result => Phase.noConfusion⟩
    · exact hnew hn hslot
  | connected pair hn => exact fun serverId slot hslot => hnew hn hslot
  | pinged | ignored | answered | toClient | toServer | closedByServer | closedByClient | stopped =>
    exact hphase fun result => Phase.noConfusion
  | readFailed hidle | rejected hidle => exact hfail hidle.role hidle.running
  | sendFailed hrole hphase htodo => exact hfail hrole (running_of_todo hended hphase (by simp [htodo]))
  | finished who hrole hphase htodo => exact hleave who hrole ⟨_, hphase, fun result => Phase.noConfusion⟩
  | refused | pushed | skipped | inserted | closed | listed | removed | returned | wrote | writerEnded | swept => exact hv

/-- Pairs in the table are minded at both ends, the guillotine is not at the pair of a client whose task has returned, and
a client's task that has ended, and has not returned, has something for its writer to do. -/
structure Kept (v : View) (r : ConnId → Bool) : Prop where
  standing : Standing v
  server : ∀ {pairId pair}, v.pairs pairId = some pair →
    Minds v pair.serverTx pairId pair.serverId ∨ IsOpen v pair.serverTx
  client : ∀ {pairId pair}, v.pairs pairId = some pair → Minds v pair.clientTx pairId pair.serverId
  swept : ∀ {i pairId serverId tx}, v.role i = some (.client pairId serverId tx) → r i = true →
    ∀ op ∈ v.todo none, holdsPair pairId op = false
  drains : ∀ {i pairId serverId tx result}, v.role i = some (.client pairId serverId tx) →
    v.phase i = some (.ended result) → r i = false → Draining v i

/-- An operation that closes a pair holds no other. -/
theorem holdsPair_close {pairId q : PairId} {reason : PairCloseReason} {tx : ConnId}
    (hh : holdsPair pairId (.send tx (encodeCtrlFrame (.pairClose q reason)) false) = true) : q = pairId := by
  simp only [encodeCtrlFrame, holdsPair] at hh
  split at hh
  · next hdecode =>
    rw [pairId_of_decodeRelay hdecode]
    simpa using hh
  · cases hh

theorem holdsPair_closeOps {pairId q : PairId} {reason : PairCloseReason} {op : Op} (hm : op ∈ v.closeOps q reason)
    (hh : holdsPair pairId op = true) : q = pairId ∧ v.pairs q ≠ none := by
  unfold View.closeOps at hm
  split at hm
  · cases hm
  · next pair hp =>
    rw [hp]
    simp only [List.mem_cons, List.not_mem_nil, or_false] at hm
    rcases hm with rfl | rfl
    · exact ⟨holdsPair_close hh, by simp⟩
    · exact ⟨holdsPair_close hh, by simp⟩

theorem holdsPair_guillotine {pairId : PairId} {pair : Pair} {op : Op} (hm : op ∈ guillotine pair)
    (hh : holdsPair pairId op = true) : pair.pairId = pairId := by
  unfold guillotine at hm
  simp only [List.mem_cons, List.not_mem_nil, or_false] at hm
  rcases hm with rfl | rfl | rfl
  · exact holdsPair_close hh
  · exact holdsPair_close hh
  · simpa [holdsPair] using hh

/-- The client of a pair in the table is the pair's. -/
theorem client_of_pair (hw : Sound v) {i : ConnId} {pairId : PairId} {pair : Pair} {serverId : ServerId} {tx : ConnId}
    (hp : v.pairs pairId = some pair) (hi : v.role i = some (.client pairId serverId tx)) : pair.clientTx = i := by
  obtain ⟨rfl, hat⟩ := hw.pairs hp
  exact hw.roles.unique hat hi

/-- A client whose task has ended has no pair in the table. -/
theorem Kept.gone (hv : Kept v r) (hw : Sound v) {i : ConnId} {pairId : PairId} {serverId : ServerId} {tx : ConnId}
    {result : RelayResult Unit} (hi : v.role i = some (.client pairId serverId tx)) (hphase : v.phase i = some (.ended result)) :
    v.pairs pairId = none := by
  cases hp : v.pairs pairId with
  | none => rfl
  | some pair =>
    obtain ⟨phase, hrunning, hne⟩ := (hv.client hp).running
    rw [client_of_pair hw hp hi, hphase] at hrunning
    exact absurd (Option.some.inj hrunning).symm (hne result)

/-- Where a client's task that has ended comes from. -/
theorem ended_from (he : Effect v move v' es) {i : ConnId} {pairId : PairId} {serverId : ServerId} {tx : ConnId}
    {result : RelayResult Unit} (hi : v'.role i = some (.client pairId serverId tx))
    (hphase : v'.phase i = some (.ended result)) : v.role i = some (.client pairId serverId tx) ∧
      (v.phase i = some (.ended result) ∨ v.phase i = some .opening ∨
        move = .finish i ∧ v.phase i = some (.closing result) ∧ v'.channel = v.channel ∧ v'.todo = v.todo) := by
  have hbusy : ∀ {c : ConnId} {w : View} {ph : Phase} {ops : List Op}, v' = (w.setPhase c ph).setTodo (some c) ops →
      w.phase = v.phase → (c = i → ∀ result, ph ≠ .ended result) → v.phase i = some (.ended result) := by
    rintro c w ph ops rfl hw hne
    by_cases hci : c = i
    · rw [View.setTodo_phase, View.setPhase_phase, if_pos hci.symm] at hphase
      exact absurd (Option.some.inj hphase) (hne hci result)
    · rwa [phase_of_ne (by simpa using Ne.symm hci), hw] at hphase
  have hfail : ∀ {c : ConnId} {who : Role} {ph : Phase} {error : RelayError}, v' = v.fail c who ph error →
      v.role c = some who → v.role i = some (.client pairId serverId tx) ∧
        ((c = i → ph ≠ .opening) → v.phase i = some (.ended result)) := by
    intro c who ph error h hrole
    have hrole' : v.role i = some (.client pairId serverId tx) := by
      rw [h, View.fail_eq] at hi
      simpa using hi
    refine ⟨hrole', fun hopening => hbusy (h.trans (View.fail_eq _ _ _ _ _)) (v.leave_phase who) ?_⟩
    rintro rfl
    rw [hrole] at hrole'
    cases hrole'
    cases ph with
    | opening => exact absurd rfl (hopening rfl)
    | _ => exact fun _ => Phase.noConfusion
  cases he with
  | registered hn =>
    simp only [Function.update_apply] at hi hphase
    split at hi
    · cases hi
    · next hin =>
      rw [if_neg hin] at hphase
      exact ⟨hi, .inl hphase⟩
  | connected pair hn =>
    simp only [Function.update_apply] at hi hphase
    split at hi
    · next hin =>
      rw [if_pos hin] at hphase
      cases hphase
    · next hin =>
      rw [if_neg hin] at hphase
      exact ⟨hi, .inl hphase⟩
  | pinged | ignored | answered | toClient | toServer | closedByServer | closedByClient | stopped =>
    exact ⟨hi, .inl (hbusy rfl rfl fun _ _ => Phase.noConfusion)⟩
  | readFailed hidle | rejected hidle =>
    obtain ⟨hrole, hended⟩ := hfail rfl hidle.role
    exact ⟨hrole, .inl (hended fun _ => Phase.noConfusion)⟩
  | @sendFailed c who phase _ _ _ _ hrole hph =>
    obtain ⟨hrole', hended⟩ := hfail rfl hrole
    refine ⟨hrole', ?_⟩
    by_cases hopening : c = i ∧ phase = .opening
    · obtain ⟨rfl, rfl⟩ := hopening
      exact .inr (.inl hph)
    · exact .inl (hended fun hci hph => hopening ⟨hci, hph⟩)
  | @finished c who result' hrole hph htodo =>
    rw [View.setPhase_role, View.leave_role] at hi
    refine ⟨hi, ?_⟩
    by_cases hic : i = c
    · subst hic
      rw [View.setPhase_phase, if_pos rfl] at hphase
      cases hphase
      exact .inr (.inr ⟨rfl, hph, by simp, by simp⟩)
    · rw [View.setPhase_phase, if_neg hic, View.leave_phase] at hphase
      exact .inl hphase
  | refused | pushed | skipped | inserted | closed | listed | removed | returned | wrote | writerEnded | swept =>
    exact ⟨hi, .inl hphase⟩

/-- What the guillotine has to do, it had to do before, or it is to do with a pair in the table. -/
theorem sweeper_holds (he : Effect v move v' es) {pairId : PairId} {op : Op} (hm : op ∈ v'.todo none)
    (hh : holdsPair pairId op = true) : op ∈ v.todo none ∨ v.pairs pairId ≠ none := by
  have htail : ∀ {a : Option ConnId} {first : Op} {rest : List Op} {w : View} (more : List Op), v.todo a = first :: rest →
      w.todo = update v.todo a (more ++ rest) → op ∈ w.todo none → op ∈ more ∨ op ∈ v.todo none := by
    intro a first rest w more htodo htodo' hw
    rw [htodo', Function.update_apply] at hw
    split at hw
    · next ha =>
      rcases List.mem_append.mp hw with hw | hw
      · exact .inl hw
      · refine .inr ?_
        rw [ha, htodo]
        exact List.mem_cons_of_mem _ hw
    · exact .inr hw
  cases he with
  | refused | returned | wrote | writerEnded => exact .inl hm
  | registered => exact .inl (by simpa using hm)
  | connected => exact .inl (by simpa using hm)
  | pinged | ignored | answered | toClient | toServer | closedByServer | closedByClient | stopped =>
    rw [View.setTodo_todo, if_neg (by simp)] at hm
    exact .inl hm
  | readFailed | rejected | sendFailed =>
    rw [View.fail_todo, Function.update_of_ne (by simp)] at hm
    exact .inl hm
  | finished => exact .inl (by simpa using hm)
  | pushed htodo | skipped htodo | inserted htodo | removed htodo =>
    rcases htail [] htodo rfl hm with h | h
    · cases h
    · exact .inl h
  | closed htodo =>
    rcases htail _ htodo rfl hm with h | h
    · obtain ⟨rfl, hp⟩ := holdsPair_closeOps h hh
      exact .inr hp
    · exact .inl h
  | listed htodo =>
    rcases htail _ htodo rfl hm with h | h
    · obtain ⟨q, _, rfl⟩ := List.mem_map.mp h
      cases hh
    · exact .inl h
  | swept htodo hstuck =>
    rw [View.setTodo_todo, if_pos rfl] at hm
    obtain ⟨pair, hpair, hm⟩ := List.mem_flatMap.mp hm
    obtain rfl := holdsPair_guillotine hm hh
    exact .inr (by simp [hstuck pair hpair])

/-- The server's end of a pair in the table is kept. -/
theorem server_kept (hv : Kept v r) (hw : Sound v) (hi : Inserting v) (htidy : Tidy v move v') (he : Effect v move v' es)
    {pairId : PairId} {pair : Pair} (hp' : v'.pairs pairId = some pair) :
    Minds v' pair.serverTx pairId pair.serverId ∨ IsOpen v' pair.serverTx := by
  by_cases hopen' : IsOpen v' pair.serverTx
  · exact .inr hopen'
  refine .inl ?_
  -- Its writer has ended before, or does so in this turn.
  have hwriter : IsOpen v pair.serverTx → ∃ ok, move = .write pair.serverTx ok := fun ho => writer_ends he ho hopen'
  obtain hp | ⟨a, new, rest, rfl, htodo, rfl, hphase, htodo'⟩ := pair_effect he hp'
  · obtain ⟨rfl, hat⟩ := hw.pairs hp
    obtain ⟨g, hg⟩ := hw.roles.client hat
    have hminds : Minds v pair.serverTx pair.pairId pair.serverId := by
      rcases hv.server hp with hm | ho
      · exact hm
      · obtain ⟨ok, hmove⟩ := hwriter ho
        exact htidy.serverWrites hmove hg hopen' hp rfl
    exact minds_effect hminds (.inl ⟨rfl, g, hg⟩) (fun _ => hwriter) htidy he hp (by simp [hp'])
  · have hfront : .insertPair new ∈ v.todo a := by
      rw [htodo]
      exact List.mem_cons_self
    obtain ⟨rfl, hopening⟩ := hi a new hfront
    have hclosed : ¬IsOpen v new.serverTx := by
      intro ho
      obtain ⟨ok, hmove⟩ := hwriter ho
      cases hmove
    have hlisten := (htidy.inserts (c := new.clientTx) rfl htodo hclosed).minds pairId
    exact hlisten.tail [] htodo hphase htodo' Op.noConfusion fun _ => Op.noConfusion

theorem client_kept (hv : Kept v r) (hw : Sound v) (hi : Inserting v) (htidy : Tidy v move v') (he : Effect v move v' es)
    {pairId : PairId} {pair : Pair} (hp' : v'.pairs pairId = some pair) :
    Minds v' pair.clientTx pairId pair.serverId := by
  obtain hp | ⟨a, new, rest, rfl, htodo, rfl, hphase, htodo'⟩ := pair_effect he hp'
  · obtain ⟨rfl, hat⟩ := hw.pairs hp
    refine minds_effect (hv.client hp) (.inr hat) (fun heq => ?_) htidy he hp (by simp [hp'])
    obtain ⟨g, hg⟩ := hw.roles.client hat
    rw [← heq, hat] at hg
    cases hg
  · have hfront : .insertPair new ∈ v.todo a := by
      rw [htodo]
      exact List.mem_cons_self
    obtain ⟨rfl, hopening⟩ := hi a new hfront
    exact .inl ((congrFun hphase _).trans hopening)

/-- The guillotine is at no pair of a client whose task has returned. -/
theorem swept_kept (hv : Kept v r) (hw : Sound v) (hr : Returning v r) (htidy : Tidy v move v') (he : Effect v move v' es)
    (hret : Returns v v' r move r') {i : ConnId} {pairId : PairId} {serverId : ServerId} {tx : ConnId}
    (hi' : v'.role i = some (.client pairId serverId tx)) (htrue : r' i = true) {op : Op} (hm : op ∈ v'.todo none) :
    holdsPair pairId op = false := by
  by_contra hh
  rw [Bool.not_eq_false] at hh
  -- The pair is not in the table, and the guillotine was not at it before.
  have hbefore : ∀ {who : Role}, v.role i = some who → (who = .client pairId serverId tx → v.pairs pairId = none ∧
      ∀ op ∈ v.todo none, holdsPair pairId op = false) → False := by
    intro who hi hgone
    have hwho := role_effect he hi
    rw [hi'] at hwho
    obtain ⟨hnone, hswept⟩ := hgone (Option.some.inj hwho).symm
    rcases sweeper_holds he hm hh with hm | hp
    · exact absurd hh (by simp [hswept op hm])
    · exact hp hnone
  have hreturned : r i = true → False := by
    intro hold
    obtain ⟨who, hi⟩ := hr.known hold
    obtain ⟨result, hphase⟩ := hr.ended hold
    refine hbefore hi ?_
    rintro rfl
    exact ⟨hv.gone hw hi hphase, hv.swept hi hold⟩
  cases hret with
  | nobody => exact hreturned htrue
  | awaited hrole hphase =>
    rw [Function.update_apply] at htrue
    split at htrue
    · next hic =>
      subst hic
      refine hbefore hrole ?_
      rintro rfl
      exact ⟨hv.gone hw hrole hphase, htidy.returns rfl hrole hphase⟩
    · exact hreturned htrue
  | unopened hrole hphase htodo hchannel hclosed =>
    rw [Function.update_apply] at htrue
    split at htrue
    · next hic =>
      subst hic
      refine hbefore hrole ?_
      rintro rfl
      exact htidy.clientSends rfl hrole htodo hchannel hclosed hphase
    · exact hreturned htrue

/-- A client's task that has ended has something for its writer to do, until it returns. -/
theorem drains_kept (hv : Kept v r) (hended : Ended v) (hregular : Regular v) (htidy : Tidy v move v')
    (he : Effect v move v' es) (hret : Returns v v' r move r') {i : ConnId} {pairId : PairId} {serverId : ServerId}
    {tx : ConnId} {result : RelayResult Unit} (hi' : v'.role i = some (.client pairId serverId tx))
    (hphase' : v'.phase i = some (.ended result)) (hfalse : r' i = false) : Draining v' i := by
  have hold : r i = false := by
    rw [Bool.eq_false_iff]
    intro htrue
    rw [hret.mono htrue] at hfalse
    cases hfalse
  obtain ⟨hi, hphase | hopening | ⟨rfl, hphase, hchannel, htodo⟩⟩ := ended_from he hi' hphase'
  · by_cases hmove : ∃ ok, move = .write i ok
    · obtain ⟨ok, rfl⟩ := hmove
      exact htidy.clientWrites rfl hi hphase
    · exact draining_effect (hv.drains hi hphase hold) hi hphase hended hregular he fun ok h => hmove ⟨ok, h⟩
  · -- A task that ends while it opens returns at once.
    obtain ⟨dest, msg, rest, channel, rfl, _⟩ := unopened_effect he hi hopening hphase'
    cases hret with
    | nobody hnobody => exact absurd hphase' (hnobody hi hopening)
    | unopened =>
      rw [Function.update_self] at hfalse
      cases hfalse
  · obtain ⟨channel, hpending⟩ | ⟨a, msg, required, hm⟩ := htidy.finishes rfl hi hphase
    · exact .inl ⟨channel, by rw [hchannel]; exact hpending⟩
    · exact .inr ⟨a, msg, required, by rw [htodo]; exact hm⟩

theorem kept_effect (hv : Kept v r) (hw : Sound v) (hlive : Live v) (hended : Ended v) (hi : Inserting v)
    (hregular : Regular v) (hr : Returning v r) (htidy : Tidy v move v') (he : Effect v move v' es)
    (hret : Returns v v' r move r') : Kept v' r' where
  standing := standing_effect hv.standing hw hlive hended he
  server := server_kept hv hw hi htidy he
  client := client_kept hv hw hi htidy he
  swept hrole htrue _ hm := swept_kept hv hw hr htidy he hret hrole htrue hm
  drains := drains_kept hv hended hregular htidy he hret

theorem kept_empty (idleThreshold : Nat) : Kept (view { idleThreshold }) (returned { idleThreshold }) where
  standing serverId slot hslot := by cases hslot
  server hp := by cases hp
  client hp := by cases hp
  swept hi := by cases hi
  drains hi := by cases hi

/-! ## When nothing is left to do -/

theorem lookup_eq_none {pairId : PairId} (hp : s.view.pairs pairId = none) : s.pairs.lookup pairId = none :=
  Option.map_eq_none_iff.mp hp

/-- An operation that waits is a send, to a full queue. -/
theorem perform_eq_none {op : Op} (h : s.perform op = none) : ∃ tx msg required, op = .send tx msg required ∧
    ∀ target, s.conns[tx]? = some target →
      target.channel.closed = false ∧ ¬target.channel.queue.length < target.channel.capacity := by
  cases op with
  | send tx msg required =>
    refine ⟨tx, msg, required, rfl, fun target htx => ?_⟩
    simp only [perform, htx] at h
    split at h
    · cases h
    · next hfull =>
      unfold Channel.Mpsc.send at hfull
      split at hfull
      · cases hfull
      · next hopen =>
        split at hfull
        · cases hfull
        · next hroom => exact ⟨by simpa using hopen, hroom⟩
    · cases h
  | _ => cases h

/-- A writer takes a message that is there. -/
theorem step_write_ne_none {c : ConnId} {conn : Conn} (hc : s.conns[c]? = some conn) (hopen : conn.channel.closed = false)
    (hqueue : conn.channel.queue ≠ []) : s.step (.write c true) ≠ none := by
  have hwrite : writeOne conn true ≠ none := by
    unfold writeOne
    rw [hopen]
    obtain ⟨msg, rest, hmsg⟩ := List.exists_cons_of_ne_nil hqueue
    simp only [Channel.Mpsc.recv, hmsg, Bool.false_eq_true, if_false]
    split
    · exact Option.some_ne_none _
    · exact Option.some_ne_none _
    · exact Option.some_ne_none _
    · split <;> exact Option.some_ne_none _
  simp only [step, hc, writerTurn]
  split
  · exact Option.some_ne_none _
  · next hnone => exact absurd hnone hwrite

namespace Deserted

/-- Nobody has an operation left: it could be done, or the writer it waits for could write. -/
theorem todo (hd : Deserted s) (hv : Regular s.view) (haddressed : Addressed s.view) (a : Option ConnId) :
    s.view.todo a = [] := by
  cases htodo : s.view.todo a with
  | nil => rfl
  | cons op rest =>
    have hwaits : s.perform op = none := by
      cases a with
      | some c =>
        obtain ⟨conn, hc, hconn⟩ := conn_of_todo htodo
        have hstep := hd.advances c
        simp only [step, hc, hconn] at hstep
        split at hstep
        · next hnone => exact hnone
        · cases hstep
        · cases hstep
      | none =>
        have hsweeper : s.sweeper = op :: rest := htodo
        have hstep := hd.sweeps
        simp only [step, hsweeper] at hstep
        split at hstep
        · cases hstep
        · next hother =>
          cases hperform : s.perform op with
          | none => rfl
          | some p =>
            obtain ⟨u, more | error⟩ := p
            · exact absurd hperform (hother u more)
            · -- The guillotine does not end with a failed send.
              obtain ⟨tx, msg, _, rfl, _⟩ := perform_failed hperform
              exact absurd (htodo ▸ List.mem_cons_self) (hv.sweeper tx msg)
    obtain ⟨tx, msg, required, rfl, hfull⟩ := perform_eq_none hwaits
    have hm : .send tx msg required ∈ s.view.todo a := htodo ▸ List.mem_cons_self
    obtain ⟨target, htx⟩ : ∃ target, s.conns[tx]? = some target := by
      obtain ⟨_, _, hrole⟩ | ⟨_, _, _, hrole, _⟩ := haddressed a tx msg required hm
      · obtain ⟨target, htx, _⟩ := Option.map_eq_some_iff.mp hrole
        exact ⟨target, htx⟩
      · obtain ⟨target, htx, _⟩ := Option.map_eq_some_iff.mp hrole
        exact ⟨target, htx⟩
    obtain ⟨hopen, hroom⟩ := hfull target htx
    have hcapacity : 0 < target.channel.capacity := hv.room (channel_eq htx)
    refine absurd (hd.writes tx true) (step_write_ne_none htx hopen fun hqueue => hroom ?_)
    rw [hqueue]
    exact hcapacity

/-- Every task has ended: it could read, or finish. -/
theorem phase (hd : Deserted s) (htodo : ∀ a, s.view.todo a = []) {c : ConnId} {conn : Conn}
    (hc : s.conns[c]? = some conn) : ∃ result, conn.phase = .ended result := by
  have hnil : conn.todo = [] := (todo_eq hc).symm.trans (htodo (some c))
  cases hphase : conn.phase with
  | opening =>
    have hstep := hd.reads c .close 0
    simp only [step, hc, hphase, hnil] at hstep
    cases hstep
  | reading =>
    have hstep := hd.reads c .close 0
    simp only [step, hc, hphase, hnil] at hstep
    cases hstep
  | closing result =>
    have hstep := hd.finishes c
    simp only [step, hc, hphase, hnil] at hstep
    cases hrole : conn.role <;> rw [hrole] at hstep <;> cases hstep
  | ended result => exact ⟨result, rfl⟩

/-- Every client's task has returned: its writer has nothing to do any more, so it has ended. -/
theorem returned (hd : Deserted s) (htodo : ∀ a, s.view.todo a = []) (hv : Kept s.view s.returned) {c : ConnId}
    {conn : Conn} {pairId : PairId} {serverId : ServerId} {tx : ConnId} (hc : s.conns[c]? = some conn)
    (hrole : conn.role = .client pairId serverId tx) : conn.returned = true := by
  by_contra hnot
  rw [Bool.not_eq_true] at hnot
  obtain ⟨result, hphase⟩ := hd.phase htodo hc
  have hdrains := hv.drains ((role_eq hc).trans (congrArg some hrole)) ((phase_eq hc).trans (congrArg some hphase))
    ((returned_eq hc).trans hnot)
  have hclosed : conn.channel.closed = false := by
    rw [Bool.eq_false_iff]
    intro hclosed
    have hstep := hd.finishes c
    simp only [step, hc, hphase, hclosed, hnot, Bool.not_false, Bool.and_self, if_true] at hstep
    cases hstep
  rcases hdrains with ⟨channel, hchannel, hleft⟩ | ⟨a, msg, required, hm⟩
  · cases (channel_eq hc).symm.trans hchannel
    rcases hleft with h | hqueue
    · rw [hclosed] at h
      cases h
    · exact step_write_ne_none hc hclosed hqueue (hd.writes c true)
  · rw [htodo a] at hm
    cases hm

end Deserted

/-- Nothing is left when all tasks have ended, and those of clients have returned. -/
theorem Vacant.of_kept (hv : Kept s.view s.returned) (hended : Ended s.view)
    (hends : ∀ (c : ConnId) (conn : Conn), s.conns[c]? = some conn → ∃ result, conn.phase = .ended result)
    (hclients : ∀ (c : ConnId) (conn : Conn) (pairId : PairId) (serverId : ServerId) (tx : ConnId),
      s.conns[c]? = some conn → conn.role = .client pairId serverId tx → conn.returned = true) : s.Vacant := by
  have hnone : ∀ pairId, s.pairs.lookup pairId = none := by
    intro pairId
    refine lookup_eq_none ?_
    cases hp : s.view.pairs pairId with
    | none => rfl
    | some pair =>
      obtain ⟨phase, hrunning, hne⟩ := (hv.client hp).running
      obtain ⟨conn, hc, rfl⟩ := Option.map_eq_some_iff.mp hrunning
      obtain ⟨result, hphase⟩ := hends _ conn hc
      exact absurd hphase (hne result)
  have hidle : ∀ conn ∈ s.conns, hasEnded conn = true ∧ conn.todo = [] := by
    intro conn hm
    obtain ⟨c, hc⟩ := List.mem_iff_getElem?.mp hm
    obtain ⟨result, hphase⟩ := hends c conn hc
    refine ⟨by rw [hasEnded, hphase], (todo_eq hc).symm.trans (hended c result ?_)⟩
    exact (phase_eq hc).trans (congrArg some hphase)
  refine ⟨hnone, ?_, ?_⟩
  · refine List.countP_eq_zero.mpr fun conn hm => ?_
    cases hrole : conn.role with
    | server serverId g => simp [(hidle conn hm).1]
    | client p serverId tx => simp
  · refine List.countP_eq_zero.mpr fun conn hm => ?_
    cases hrole : conn.role with
    | server serverId g => simp
    | client pairId serverId tx =>
      obtain ⟨c, hc⟩ := List.mem_iff_getElem?.mp hm
      have hreturned := hclients c conn pairId serverId tx hc hrole
      have hlive : s.pairLives conn pairId = false := by
        simp only [pairLives, hreturned, hnone pairId, Bool.not_true, Option.isSome_none, Bool.false_or,
          List.any_append, Bool.or_eq_false_iff, List.any_eq_false, List.mem_flatMap]
        constructor
        · intro op hop
          have hswept := hv.swept ((role_eq hc).trans (congrArg some hrole)) ((returned_eq hc).trans hreturned) op hop
          simp [hswept]
        · rintro op ⟨conn', hm', hop⟩
          rw [(hidle conn' hm').2] at hop
          cases hop
      simp [hlive]

/-! ## Every tidy run -/

/-- What holds in every state of a tidy run. -/
structure Tended (s : Relay) : Prop where
  wf : Wf s
  ended : Ended s.view
  live : Live s.view
  inserting : Inserting s.view
  addressed : Addressed s.view
  regular : Regular s.view
  returning : Returning s.view s.returned
  kept : Kept s.view s.returned

theorem Tended.step (h : Tended s) (ht : s.tidy move = true) (hs : s.step move = some t) : Tended t :=
  have hw := h.wf.sound
  have he := step_effect h.wf hs
  have hret := step_returned h.wf h.ended h.returning.ended hs
  { wf := h.wf.step hs
    ended := ended_effect h.ended he
    live := live_effect h.live h.ended he
    inserting := inserting_effect h.inserting hw he
    addressed := addressed_effect h.addressed hw he
    regular := regular_effect h.regular he
    returning := returning_effect h.returning h.regular h.ended he hret
    kept := kept_effect h.kept hw h.live h.ended h.inserting h.regular h.returning (tidy_of_tidy h.wf ht hs) he hret }

theorem tended_empty (idleThreshold : Nat) : Tended { idleThreshold } where
  wf := wf_empty idleThreshold
  ended := (flowing_empty idleThreshold).ended
  live := (flowing_empty idleThreshold).live
  inserting := (flowing_empty idleThreshold).inserting
  addressed a tx msg required hm := by cases a <;> cases hm
  regular := regular_empty idleThreshold
  returning := {
    known := fun hi => by cases hi
    ended := fun hi => by cases hi
    deaf := fun hi => by cases hi }
  kept := kept_empty idleThreshold

theorem CleanUp.of_tended (h : Tended s) : CleanUp s where
  server := by
    intro c serverId g hrole hreturned _
    obtain ⟨result, hphase⟩ := h.returning.ended hreturned
    refine ⟨?_, ?_⟩
    · rintro pairId pair hl rfl
      have hp : s.view.pairs pairId = some (timeless pair) := Option.map_eq_some_iff.mpr ⟨_, hl, rfl⟩
      rcases h.kept.server hp with hm | hopen
      · obtain ⟨phase, hrunning, hne⟩ := hm.running
        exact hne result (Option.some.inj (hrunning.symm.trans hphase))
      · exact h.returning.deaf hrole hreturned hopen
    · rintro slot hslot rfl
      obtain ⟨phase, hrunning, hne⟩ := h.kept.standing serverId slot hslot
      exact hne result (Option.some.inj (hrunning.symm.trans hphase))
  client := by
    intro i pairId serverId tx hrole hreturned
    obtain ⟨result, hphase⟩ := h.returning.ended hreturned
    exact lookup_eq_none (h.kept.gone h.wf.sound hrole hphase)
  empty := by
    intro hall
    refine Vacant.of_kept h.kept h.ended (fun c conn hc => ?_) fun c conn pairId serverId tx hc _ => ?_
    · obtain ⟨result, hphase⟩ := h.returning.ended (hall c conn.role (role_eq hc))
      exact ⟨result, Option.some.inj ((phase_eq hc).symm.trans hphase)⟩
    · exact (returned_eq hc).symm.trans (hall c conn.role (role_eq hc))
  deserted := by
    intro hd
    have htodo := hd.todo h.regular h.addressed
    exact Vacant.of_kept h.kept h.ended (fun c conn hc => hd.phase htodo hc)
      fun c conn pairId serverId tx hc hrole => hd.returned htodo h.kept hc hrole

/-- **A tidy run cleans up**: whatever ends a task, what it leaves behind is gone when it has returned, and when no
websocket is left there is nothing that waits for ever. -/
theorem clean_up {idleThreshold : Nat} {moves : List Move}
    (htidy : Steps.Meets step (fun s move => s.tidy move = true) { idleThreshold } moves)
    (hr : Steps.run step { idleThreshold } moves = some s) : CleanUp s :=
  .of_tended (Steps.run_invariant (I := Tended) (fun _ _ _ h ht hs => h.step ht hs) htidy hr (tended_empty idleThreshold))

end Relay

/-! ## Runs that clean up and runs that do not -/

/-- A client goes, and its websocket refuses the frame that says so; its server goes, and then one that has sent a text. -/
def leavingMoves : List Relay.Move :=
  connectedMoves ++ [.read 2 .close 1, .advance 2, .advance 2, .advance 2, .finish 2, .write 2 true, .write 2 false,
    .finish 2, .read 0 .close 2, .advance 0, .advance 0, .finish 0, .write 0 true, .write 0 true, .write 0 true,
    .write 0 true, .finish 0, .read 1 .textOrFrame 3, .write 1 true, .write 1 true, .finish 1]

def leftRelay : Relay := (Steps.run Relay.step {} leavingMoves).getD {}

theorem run_leavingMoves : Steps.run Relay.step {} leavingMoves = some leftRelay := by
  rfl

theorem clean_up_sample : leftRelay.conns.all Conn.returned = true ∧ Relay.CleanUp leftRelay :=
  ⟨by decide +kernel, Relay.clean_up (by decide +kernel) run_leavingMoves⟩

/-- The server sends a text message while it has a pair, and its websocket takes no more. -/
def textMoves : List Relay.Move := connectedMoves ++ [.read 0 .textOrFrame 1, .write 0 false, .finish 0]

def textRelay : Relay := (Steps.run Relay.step {} textMoves).getD {}

/-- A client's pair is in the table when its server turns out to read no more. -/
def deafMoves : List Relay.Move :=
  [.server (encodeRelayCtrl (.serverRegister serverA [] [])) true, .advance 0, .write 0 false,
    .client serverA (encodeRelayCtrl (.clientConnect serverA)) true pairA 0, .advance 1, .advance 1]

def deafRelay : Relay := (Steps.run Relay.step {} deafMoves).getD {}

/-- The servers go; the client is told, and goes when its writer has nothing left to write. -/
def strandedMoves : List Relay.Move :=
  connectedMoves ++ [.read 0 .close 1, .advance 0, .advance 0, .advance 0, .advance 0, .advance 0, .finish 0,
    .write 0 true, .write 0 true, .write 0 true, .finish 0, .write 2 true, .write 2 true, .read 2 .close 2, .advance 2,
    .finish 2, .read 1 .close 2, .advance 1, .advance 1, .finish 1, .write 1 true, .write 1 true, .finish 1]

def strandedRelay : Relay := (Steps.run Relay.step {} strandedMoves).getD {}

theorem strandedRelay_deserted : strandedRelay.Deserted where
  reads c msg now := by
    match c with
    | 0 => rfl
    | 1 => rfl
    | 2 => rfl
    | c + 3 => rfl
  advances c := by
    match c with
    | 0 => rfl
    | 1 => rfl
    | 2 => rfl
    | c + 3 => rfl
  finishes c := by
    match c with
    | 0 => rfl
    | 1 => rfl
    | 2 => rfl
    | c + 3 => rfl
  writes c ok := by
    match c with
    | 0 => rfl
    | 1 => rfl
    | 2 => rfl
    | c + 3 => rfl
  sweeps := rfl

/-- **Other runs leave pairs behind**: of a server that has returned, of a client that has, and of a client whose task
waits for ever, when no websocket is left. -/
theorem clean_up_missed :
    (¬∀ idleThreshold moves s, Steps.run Relay.step { idleThreshold } moves = some s → ∀ c serverId g,
      s.role c = some (.server serverId g) → s.returned c = true →
      (∀ i pairId tx, s.role i = some (.client pairId serverId tx) → ¬s.Connecting i) →
      ∀ pairId pair, s.pairs.lookup pairId = some pair → pair.serverTx ≠ c) ∧
    (¬∀ idleThreshold moves s, Steps.run Relay.step { idleThreshold } moves = some s → ∀ i pairId serverId tx,
      s.role i = some (.client pairId serverId tx) → s.returned i = true → s.pairs.lookup pairId = none) ∧
    ¬∀ idleThreshold moves s, Steps.run Relay.step { idleThreshold } moves = some s → s.Deserted →
      s.pairTickets = 0 := by
  refine ⟨?_, ?_, ?_⟩
  · intro hall
    refine hall 0 textMoves textRelay (by rfl) 0 serverA 0 (by rfl) (by rfl) ?_ pairA ⟨pairA, serverA, 0, 0, 2⟩ (by rfl) rfl
    rintro i pairId tx _ ⟨_, htodo⟩
    match i with
    | 0 => exact htodo rfl
    | 1 => exact htodo rfl
    | 2 => exact htodo rfl
    | i + 3 => exact htodo rfl
  · intro hall
    have hnone := hall 0 deafMoves deafRelay (by rfl) 1 pairA serverA 0 (by rfl) (by rfl)
    cases hnone
  · intro hall
    have hzero := hall 0 strandedMoves strandedRelay (by rfl) strandedRelay_deserted
    cases hzero

end CliPocket
