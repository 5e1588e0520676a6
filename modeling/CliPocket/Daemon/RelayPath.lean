import CliPocket.Daemon.PairBridges
import CliPocket.Relay.Announced

/-!
# From a client through the relay to its connection

The frames that the relay writes to a server are the line of that server's dialer. What the dialer gives to a transport
is therefore what the client of the pair has sent.

- `Relay.framesTo`: what the relay has written to a socket;
- `Relay.linePart`: what it says about pairs;
- `stream_initial`: a stream of the line is the beginning of what has been sent for its pair;
- `relay_path_delivers`: **a transport reads what the client of its pair has sent.**
-/

namespace CliPocket

open Demux (Signal lineStreams itemsUntil itemsOf)
open RelayDialer (PairSignal signalsOf)

namespace Relay

variable {v : View} {h : List Event}

/-! ## What is written to a server -/

def Event.frameTo (tx : ConnId) : Event → Option (List UInt8)
  | .wrote c _ (.binary frame) => if c = tx then some frame else none
  | _ => none

/-- The frames that have been written to a socket. -/
def framesTo (tx : ConnId) (h : List Event) : List (List UInt8) := h.filterMap (Event.frameTo tx)

/-- What frames say about pairs. -/
def linePart (frames : List (List UInt8)) : List PairSignal := frames.flatMap fun bytes => signalsOf (.binary bytes)

/-- The frame of a message for a server. -/
def frameOf : ServerMsg → Option (List UInt8)
  | .ctrl bytes | .data bytes => some bytes
  | .close => none

/-- What a message says about pairs. -/
def signalsIn (msg : ServerMsg) : List PairSignal := linePart (frameOf msg).toList

/-- A server is written its messages as they are. -/
theorem framesTo_eq {tx : ConnId} {serverId : ServerId} {g : Nat} (hk : Known v h)
    (htx : v.role tx = some (.server serverId g)) : framesTo tx h = (wroteAt tx h).filterMap frameOf := by
  rw [framesTo, wroteAt, List.filterMap_filterMap]
  refine List.filterMap_congr fun event hm => ?_
  have hof := hk event hm
  cases event with
  | wrote c msg frame =>
    by_cases hc : c = tx
    · subst hc
      obtain ⟨who, hwho, hwrites | ⟨rfl, rfl⟩⟩ := hof
      · rw [htx] at hwho
        cases hwho
        cases hwrites <;> simp [Event.frameTo, frameOf]
      · simp [Event.frameTo, frameOf]
    · cases frame <;> simp [Event.frameTo, hc]
  | _ => rfl

theorem linePart_filterMap (msgs : List ServerMsg) :
    linePart (msgs.filterMap frameOf) = msgs.flatMap signalsIn := by
  induction msgs with
  | nil => rfl
  | cons msg rest ih =>
    rw [List.filterMap_cons, List.flatMap_cons, ← ih]
    unfold signalsIn
    cases frameOf msg with
    | none => rfl
    | some bytes => simp [linePart]

/-! ## What the messages say -/

theorem decodeRelay_inbound (pairId : PairId) :
    decodeRelay (encodeRelayCtrl (.pairInbound pairId)) = .ok (.ctrl (.pairInbound pairId)) :=
  @decodeRelay_encode (.ctrl (.pairInbound pairId)) trivial

theorem decodeRelay_pairClose {pairId : PairId} {reason : PairCloseReason} {wire : RelayWire}
    (hd : decodeRelay (encodeRelayCtrl (.pairClose pairId reason)) = .ok wire) :
    ∃ reason', wire = .ctrl (.pairClose pairId reason') := by
  simp only [encodeRelayCtrl, decodeRelay, if_pos, Wire.mapError_eq_ok] at hd
  cases hf : Postcard.fromBytes RelayCtrl.take (RelayCtrl.pairClose pairId reason).put with
  | error e => simp [hf, Except.map] at hd
  | ok ctrl =>
    simp only [hf, Except.map, Except.ok.injEq] at hd
    obtain ⟨rest, htake⟩ := Postcard.fromBytes_eq_ok.mp hf
    unfold RelayCtrl.take at htake
    rw [RelayCtrl.put, List.append_assoc, Postcard.takeTag_putTag (by decide)] at htake
    simp only [bind, Except.bind] at htake
    rw [Uuid.take_put] at htake
    simp only at htake
    split at htake
    · cases htake
    · cases htake
      exact ⟨_, hd.symm⟩

/-- One thing about pairs, or nothing. -/
def Says (msg : ServerMsg) : Prop :=
  signalsIn msg = [] ∨ (∃ pairId, msg = inbound pairId ∧ signalsIn msg = [.opened pairId]) ∨
    (∃ pairId payload, msg = encodeDataFrame (.forward pairId payload) ∧ signalsIn msg = [.item pairId payload]) ∨
    ∃ pairId, signalsIn msg = [.closed pairId]

/-- **So does every message that the relay has for a server.** -/
theorem says_of_spoken {msg : ServerMsg} (hs : Spoken msg)
    (hdata : ∀ bytes, msg = .data bytes → ∃ pairId payload, bytes = encodeRelayData (.forward pairId payload) ∧
      payload.length < 2 ^ 64) : Says msg := by
  cases hs with
  | data bytes =>
    obtain ⟨pairId, payload, rfl, hshort⟩ := hdata bytes rfl
    refine .inr (.inr (.inl ⟨pairId, payload, rfl, ?_⟩))
    simp [signalsIn, linePart, frameOf, signalsOf, decodeRelay_forward hshort]
  | close => exact .inl rfl
  | registered => exact .inl (by rfl)
  | inbound pairId =>
    refine .inr (.inl ⟨pairId, rfl, ?_⟩)
    simp [signalsIn, linePart, inbound, encodeCtrlFrame, frameOf, signalsOf, decodeRelay_inbound]
  | opened pairId =>
    have hdecode : decodeRelay (encodeRelayCtrl (.pairOpen pairId)) = .ok (.ctrl (.pairOpen pairId)) :=
      @decodeRelay_encode (.ctrl (.pairOpen pairId)) trivial
    refine .inl ?_
    simp [signalsIn, linePart, encodeCtrlFrame, frameOf, signalsOf, hdecode]
  | closed pairId reason =>
    cases hdecode : decodeRelay (encodeRelayCtrl (.pairClose pairId reason)) with
    | error e =>
      refine .inl ?_
      simp [signalsIn, linePart, encodeCtrlFrame, frameOf, signalsOf, hdecode]
    | ok wire =>
      obtain ⟨reason', rfl⟩ := decodeRelay_pairClose hdecode
      refine .inr (.inr (.inr ⟨pairId, ?_⟩))
      simp [signalsIn, linePart, encodeCtrlFrame, frameOf, signalsOf, hdecode]

/-! ## Streams of the line -/

/-- Messages as the relay queues them for a server. -/
structure Orderly (msgs : List ServerMsg) : Prop where
  spoken : ∀ msg ∈ msgs, Spoken msg
  data : ∀ bytes, .data bytes ∈ msgs → ∃ pairId payload, bytes = encodeRelayData (.forward pairId payload) ∧
    payload.length < 2 ^ 64
  once : ∀ pairId, msgs.count (inbound pairId) ≤ 1
  before : ∀ {front pairId payload back}, msgs = front ++ encodeDataFrame (.forward pairId payload) :: back →
    inbound pairId ∈ front

variable {msgs : List ServerMsg}

theorem Orderly.of_initial {msgs' : List ServerMsg} (h : Orderly msgs) (hpre : msgs' <+: msgs) : Orderly msgs' where
  spoken msg hm := h.spoken msg (hpre.subset hm)
  data bytes hm := h.data bytes (hpre.subset hm)
  once pairId := (hpre.sublist.count_le _).trans (h.once pairId)
  before heq := by
    obtain ⟨rest, rfl⟩ := hpre
    exact h.before (by rw [heq, List.append_assoc]; rfl)

theorem Orderly.says (h : Orderly msgs) {msg : ServerMsg} (hm : msg ∈ msgs) : Says msg :=
  says_of_spoken (h.spoken msg hm) fun bytes hb => h.data bytes (hb ▸ hm)

/-- The items of a pair are its payloads. -/
theorem itemsOf_signalsIn (h : Orderly msgs) (pairId : PairId) {msg : ServerMsg} (hm : msg ∈ msgs) :
    itemsOf pairId (signalsIn msg) = (forwardOf pairId msg).toList := by
  cases msg with
  | data bytes =>
    obtain ⟨q, payload, rfl, hshort⟩ := h.data bytes hm
    simp only [signalsIn, linePart, frameOf, forwardOf, Option.toList_some, List.flatMap_cons, List.flatMap_nil,
      List.append_nil, signalsOf, decodeRelay_forward hshort, forwarded_encode hshort]
    by_cases hq : q = pairId
    · simp [itemsOf, Signal.itemOf, hq]
    · simp [itemsOf, Signal.itemOf, hq]
  | ctrl bytes =>
    rcases h.says hm with hs | ⟨q, _, hs⟩ | ⟨q, payload, hmsg, _⟩ | ⟨q, hs⟩
    · rw [hs]
      rfl
    · rw [hs]
      rfl
    · cases hmsg
    · rw [hs]
      rfl
  | close => rfl

theorem itemsOf_flatMap (h : Orderly msgs) (pairId : PairId) :
    itemsOf pairId (msgs.flatMap signalsIn) = msgs.filterMap (forwardOf pairId) := by
  have hpart : ∀ msgs' : List ServerMsg, msgs' ⊆ msgs →
      itemsOf pairId (msgs'.flatMap signalsIn) = msgs'.filterMap (forwardOf pairId) := by
    intro msgs' hsub
    induction msgs' with
    | nil => rfl
    | cons msg rest ih =>
      have hrest := ih fun m hm => hsub (List.mem_cons_of_mem _ hm)
      rw [List.flatMap_cons, Demux.itemsOf_append, itemsOf_signalsIn h pairId (hsub List.mem_cons_self), hrest,
        List.filterMap_cons]
      cases forwardOf pairId msg <;> rfl
  exact hpart msgs (List.Subset.refl _)

/-- Where a pair is announced on the line, its message stands among the messages. -/
theorem flatMap_split (h : ∀ msg ∈ msgs, Says msg) {front back : List PairSignal} {pairId : PairId}
    (heq : msgs.flatMap signalsIn = front ++ .opened pairId :: back) :
    ∃ older newer, msgs = older ++ inbound pairId :: newer ∧ front = older.flatMap signalsIn ∧
      back = newer.flatMap signalsIn := by
  induction msgs generalizing front with
  | nil => simp at heq
  | cons msg rest ih =>
    have hrest : ∀ m ∈ rest, Says m := fun m hm => h m (List.mem_cons_of_mem _ hm)
    rw [List.flatMap_cons] at heq
    -- what the first message says is the first signal in front, or the announcement itself
    have hlater : ∀ signal : PairSignal, signal ≠ .opened pairId → signalsIn msg = [signal] →
        ∃ older newer, msg :: rest = older ++ inbound pairId :: newer ∧ front = older.flatMap signalsIn ∧
          back = newer.flatMap signalsIn := by
      intro signal hne hs
      rw [hs, List.singleton_append] at heq
      cases front with
      | nil => exact absurd (List.cons.inj heq).1 hne
      | cons first front =>
        rw [List.cons_append, List.cons.injEq] at heq
        obtain ⟨rfl, heq⟩ := heq
        obtain ⟨older, newer, rfl, rfl, rfl⟩ := ih hrest heq
        exact ⟨msg :: older, newer, rfl, by rw [List.flatMap_cons, hs]; rfl, rfl⟩
    rcases h msg List.mem_cons_self with hs | ⟨q, hmsg, hs⟩ | ⟨q, payload, _, hs⟩ | ⟨q, hs⟩
    · rw [hs] at heq
      obtain ⟨older, newer, rfl, rfl, rfl⟩ := ih hrest heq
      exact ⟨msg :: older, newer, rfl, by rw [List.flatMap_cons, hs]; rfl, rfl⟩
    · by_cases hq : q = pairId
      · subst hq
        rw [hs, List.singleton_append] at heq
        cases front with
        | nil =>
          rw [List.nil_append, List.cons.injEq] at heq
          exact ⟨[], rest, by rw [hmsg]; rfl, rfl, heq.2.symm⟩
        | cons first front =>
          rw [List.cons_append, List.cons.injEq] at heq
          obtain ⟨rfl, heq⟩ := heq
          obtain ⟨older, newer, rfl, rfl, rfl⟩ := ih hrest heq
          exact ⟨msg :: older, newer, rfl, by rw [List.flatMap_cons, hs]; rfl, rfl⟩
      · exact hlater (.opened q) (by simpa using hq) hs
    · exact hlater (.item q payload) nofun hs
    · exact hlater (.closed q) nofun hs

/-- Nothing of a pair stands in front of its announcement. -/
theorem Orderly.none_before (h : Orderly msgs) {older newer : List ServerMsg} {pairId : PairId}
    (heq : msgs = older ++ inbound pairId :: newer) : older.filterMap (forwardOf pairId) = [] := by
  rw [List.filterMap_eq_nil_iff]
  intro msg hm
  by_contra hsome
  obtain ⟨payload, hforward⟩ := Option.ne_none_iff_exists'.mp hsome
  obtain ⟨front, back, rfl⟩ := List.append_of_mem hm
  cases msg with
  | data bytes =>
    obtain ⟨q, y, rfl, hshort⟩ := h.data bytes (by rw [heq]; simp)
    simp only [forwardOf, forwarded_encode hshort, Option.ite_none_right_eq_some, Option.some.injEq] at hforward
    obtain ⟨rfl, rfl⟩ := hforward
    have hbefore : inbound q ∈ front := @Orderly.before msgs h front q y (back ++ inbound q :: newer) (by
      rw [heq, List.append_assoc]
      rfl)
    have honce := h.once q
    have hpos := List.count_pos_iff.mpr hbefore
    rw [heq] at honce
    simp only [List.count_append, List.count_cons_self] at honce
    omega
  | ctrl bytes => cases hforward
  | close => cases hforward

/-- **A stream of the line is the beginning of what has been sent for its pair.** -/
theorem stream_initial (h : Orderly msgs) {i : Nat} {pairId : PairId} {payloads : List (List UInt8)}
    (hs : (lineStreams (msgs.flatMap signalsIn))[i]? = some (pairId, payloads)) :
    payloads <+: msgs.filterMap (forwardOf pairId) := by
  obtain ⟨front, back, heq, rfl⟩ := Demux.lineStreams_split hs
  obtain ⟨older, newer, hmsgs, hfront, _⟩ := flatMap_split (fun msg hm => h.says hm) heq
  have hnone : itemsOf pairId front = [] := by
    have holder := h.none_before hmsgs
    have hpre : Orderly older := h.of_initial ⟨_, hmsgs.symm⟩
    rw [hfront, itemsOf_flatMap hpre, holder]
  have hall := itemsOf_flatMap h pairId
  rw [heq, Demux.itemsOf_append, hnone, List.nil_append, Demux.itemsOf_cons] at hall
  rw [← hall]
  exact Demux.itemsUntil_prefix pairId back

/-- What the relay queues for a server is orderly. -/
theorem Announced.orderly (ha : Announced v h) (hk : Known v h) {tx : ConnId} {serverId : ServerId} {g : Nat}
    (htx : v.role tx = some (.server serverId g)) : Orderly (pushedTo tx h) where
  spoken msg hm := ha.spoken hm
  data bytes hm := by
    obtain ⟨pairId, payload, _, _, _, hbytes, hshort, _⟩ := hk _ (mem_pushedTo.mp hm)
    exact ⟨pairId, payload, hbytes, hshort⟩
  once pairId := ha.once
  before {front pairId payload back} heq := by
    have hm : encodeDataFrame (.forward pairId payload) ∈ pushedTo tx h := by
      rw [heq]
      simp
    obtain ⟨q, y, j, id, serverTx, hbytes, _, hj, rfl | rfl⟩ := hk _ (mem_pushedTo.mp hm)
    · rw [htx] at hj
      cases hj
    · obtain rfl := encodeRelayData_pairId hbytes
      exact ha.before hj front payload back heq

/-! ## Through the relay -/

/-- **From a client to the connection of its pair.** A dialer reads frames that the relay has written to its server's
socket, since a dial and before the next. What it gives to a transport that is labelled with a pair is the beginning of
what the client of the pair has sent. -/
theorem relay_path_delivers {idleThreshold : Nat} {moves : List Move} {s : Relay}
    (hr : Steps.run (Steps.traced step emit) ({ idleThreshold }, []) moves = some (s, h)) (hfits : Fits h)
      {c tx : ConnId}
    {pairId : PairId} {serverId : ServerId} (hc : s.role c = some (.client pairId serverId tx))
    {dialed : List RelayDialer.Move} {d : RelayDialer} {g : List RelayDialer.DialEvent}
    (hd : Steps.run (Steps.traced RelayDialer.step RelayDialer.emit) ({}, []) dialed = some (d, g))
    {front back : List PairSignal} {frames : List (List UInt8)} (hframes : frames <+: framesTo tx h)
    (hline : RelayDialer.line g = front ++ linePart frames ++ back) (hback : back = [] ∨ ∃ rest, back = .reset :: rest)
    {i : Nat} {queue : Channel.Mpsc (List UInt8)} (hqueue : d.queues[i]? = some queue)
    (hlabel : ∃ payloads, (lineStreams (RelayDialer.line g))[i]? = some (pairId, payloads))
    (hfront : (lineStreams front).length ≤ i) (hpart : i < (lineStreams (front ++ linePart frames)).length) :
    RelayDialer.receivedBy i g ++ queue.queue ++ d.pendingFor i <+: sentBy c pairId h := by
  obtain ⟨hv, ha, _, hup⟩ := run_flowing (P := fun v h => Announced v h ∧ Unclosed v h ∧ Up v h)
    (fun _ _ _ hv hv' hfits he ⟨ha, hclosed, hup⟩ =>
      ⟨announced_effect ha hv hv' he, unclosed_effect hclosed hv.known he, up_effect hv hfits hclosed hup hv'.known he⟩)
    ⟨announced_empty idleThreshold, fun _ _ _ _ hi => (nomatch hi), fun _ _ _ _ hi => (nomatch hi)⟩ hr hfits
    (Steps.meets_true moves _)
  obtain ⟨generation, htx⟩ := hv.sound.roles.client hc
  have hwrote : wroteAt tx h <+: pushedTo tx h := by
    obtain ⟨k, hk, _⟩ := Option.map_eq_some_iff.mp htx
    exact (hv.queued tx k.channel (channel_eq hk)).1
  -- the frames that have been read come from the first messages of the server
  rw [framesTo_eq hv.known htx] at hframes
  obtain ⟨msgs, hmsgs, rfl⟩ := List.prefix_filterMap_iff.mp hframes
  have hpre := hmsgs.trans hwrote
  have horderly : Orderly msgs := (ha.orderly hv.known htx).of_initial hpre
  obtain ⟨payloads, hstream⟩ := hlabel
  obtain ⟨pairId', payloads', hs, hgiven, _⟩ := (RelayDialer.served_run hd).given hqueue
  have hsame : (lineStreams (RelayDialer.line g))[i]? = some (pairId', payloads') := by
    rw [← Demux.streams_run]
    exact hs
  rw [hstream, Option.some.injEq, Prod.mk.injEq] at hsame
  obtain ⟨rfl, rfl⟩ := hsame
  -- the stream of the transport is opened on this part of the line
  rw [hline, Demux.lineStreams_part hback hfront hpart, linePart_filterMap] at hstream
  have hsent := (stream_initial horderly hstream).trans (hpre.filterMap _)
  exact hgiven.trans (hsent.trans (hup c pairId serverId tx hc).inOrder)

end Relay

/-- The dialer of the server of `passedMoves` is told of the pair,
  and its connection reads the payload of the client. -/
def pathMoves : List RelayDialer.Move :=
  [.read (.binary (encodeRelayCtrl (.pairInbound pairA))), .advance, .accept,
    .read (.binary (encodeRelayData (.forward pairA [0x2b]))), .advance, .recv 0]

def pathTrace : RelayDialer × List RelayDialer.DialEvent :=
  (Steps.run (Steps.traced RelayDialer.step RelayDialer.emit) ({}, []) pathMoves).getD ({}, [])

theorem run_pathMoves : Steps.run (Steps.traced RelayDialer.step RelayDialer.emit) ({}, []) pathMoves =
    some pathTrace := by
  rfl

theorem relay_path_delivers_sample : RelayDialer.receivedBy 0 pathTrace.2 = [[0x2b]] ∧
    RelayDialer.receivedBy 0 pathTrace.2 ++ [] ++ pathTrace.1.pendingFor 0 <+: Relay.sentBy 2 pairA passedTrace.2 := by
  refine ⟨by rfl, ?_⟩
  have hc : passedTrace.1.role 2 = some (.client pairA serverA 0) := by rfl
  have hline : RelayDialer.line pathTrace.2 = [] ++ Relay.linePart (Relay.framesTo 0 passedTrace.2) ++ [] := by rfl
  have hqueue : pathTrace.1.queues[0]? = some { capacity := pairQueueCapacity } := by rfl
  exact Relay.relay_path_delivers run_passedMoves fits_passed hc run_pathMoves List.prefix_rfl hline (.inl rfl) hqueue
    ⟨[[0x2b]], by rfl⟩ (Nat.le_refl _) (by decide +kernel)

end CliPocket
