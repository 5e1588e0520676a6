import CliPocket.Relay.WorkerIsolation

/-!
# Which payloads the relay passes on

A client's payloads and its control frames come over one channel. A message is a control frame exactly where a
spelling of `PairClose` stands at its front; every other byte string is passed on once, as it is.

- `Relay.Forwards`: a message becomes one `Forward` frame for the server, and nothing else happens;
- `Relay.read_forwards`, `Relay.advance_send`: the relay reads a payload, and queues the frame;
- `Worker.message_forwards`: the same for the worker, within its limits;
- `payload_transparency`: both.
-/

namespace CliPocket

/-! ## The relay -/

namespace Relay

/-- No spelling of `PairClose` stands at the front. -/
def IsPayload (bytes : List UInt8) : Prop :=
  ∀ pairId reason spelled rest, bytes = spelled ++ rest → ¬SpellsPairClose pairId reason spelled

variable {s : Relay} {c : ConnId} {conn : Conn}

/-- The task waits for a message. -/
def Conn.idle (conn : Conn) : Prop := (conn.phase = .opening ∨ conn.phase = .reading) ∧ conn.todo = []

/-- The message becomes one `Forward` frame for the server's queue; but for the time of the pair nothing else
changes. -/
def Forwards (s : Relay) (c : ConnId) (pairId : PairId) (serverTx : ConnId) (bytes : List UInt8) (now : Nat) : Prop :=
  s.step (.read c (.binary bytes) now) = some ((s.touch pairId now).mapConn c fun k =>
    { k with phase := .reading, todo := [.send serverTx (encodeDataFrame (.forward pairId bytes)) true] })

theorem step_read (hc : s.conns[c]? = some conn) (hidle : Conn.idle conn) (msg : Incoming) (now : Nat) :
    s.step (.read c msg now) =
      some ((s.turn c conn.role msg now).1.settle c conn (s.turn c conn.role msg now).2) := by
  obtain ⟨hphase, htodo⟩ := hidle
  simp only [step, hc]
  rcases hphase with hphase | hphase
  · rw [hphase, htodo]
  · rw [hphase, htodo]

/-- **A payload is passed on as it is.** -/
theorem read_forwards (hc : s.conns[c]? = some conn) (hidle : Conn.idle conn) {pairId : PairId} {serverId : ServerId}
    {serverTx : ConnId} (hrole : conn.role = .client pairId serverId serverTx) {bytes : List UInt8}
    (hpayload : IsPayload bytes) (now : Nat) : Forwards s c pairId serverTx bytes now := by
  have hturn : s.turn c conn.role (.binary bytes) now =
      (s.touch pairId now, .next [.send serverTx (encodeDataFrame (.forward pairId bytes)) true]) := by
    simp only [hrole, turn, clientRead]
    split
    · next closing reason hdecode =>
      obtain ⟨spelled, rest, hbytes, hspells⟩ := CliPocket.decodeRelay_eq_pairClose.mp hdecode
      exact absurd hspells (hpayload closing reason spelled rest hbytes)
    · rfl
  unfold Forwards
  rw [step_read hc hidle, hturn]
  rfl

/-- A message with `PairClose` for the client's own pair at its front closes that pair and ends the loop. -/
theorem read_closes (hc : s.conns[c]? = some conn) (hidle : Conn.idle conn) {pairId : PairId} {serverId : ServerId}
    {serverTx : ConnId} (hrole : conn.role = .client pairId serverId serverTx) {reason : PairCloseReason}
    {spelled rest : List UInt8} (hspells : SpellsPairClose pairId reason spelled) (now : Nat) :
    s.step (.read c (.binary (spelled ++ rest)) now) = some ((s.closePair pairId reason).1.settle c conn
      (.stop (s.closePair pairId reason).2)) := by
  have hdecode := CliPocket.decodeRelay_eq_pairClose.mpr ⟨spelled, rest, rfl, hspells⟩
  rw [step_read hc hidle]
  simp only [hrole, turn, clientRead, hdecode]

/-- The frame waits for room in the server's queue and then is the last in it; nothing else changes. -/
theorem advance_send {u : Relay} (hc : u.conns[c]? = some conn) {tx : ConnId} {msg : ServerMsg} {required : Bool}
    {rest : List Op} (htodo : conn.todo = .send tx msg required :: rest) {target : Conn}
    (htx : u.conns[tx]? = some target) (hopen : target.channel.closed = false)
    (hroom : target.channel.queue.length < target.channel.capacity) :
    u.step (.advance c) = some ((u.mapConn tx fun k =>
      { k with channel := { target.channel with queue := target.channel.queue ++ [msg] } }).mapConn c fun k =>
        { k with todo := rest }) := by
  have hsent : target.channel.send msg = .sent { target.channel with queue := target.channel.queue ++ [msg] } := by
    simp [Channel.Mpsc.send, hopen, hroom]
  simp only [step, hc, htodo, perform, htx, hsent, List.nil_append]

end Relay

/-! ## The worker -/

namespace Worker

/-- No spelling of `PairClose` stands at the front. -/
def IsPayload (bytes : List UInt8) : Prop :=
  ∀ pairId reason spelled rest, bytes = spelled ++ rest → ¬SpellsPairClose pairId reason spelled

/-- A frame of a byte string that fits into a typed array. -/
theorem encodeRelay_dataForward {bytes : List UInt8} (h : bytes.length ≤ maxSafeInteger) (pairId : PairId) :
    ∃ frame, encodeRelay (.dataForward pairId bytes) = .ok frame := by
  have hsafe : ∀ n, n ≤ maxSafeInteger → encodeVarint n = .ok (Wire.putVarint n) := by
    intro n hn
    unfold encodeVarint
    rw [if_neg (by omega)]
  have huuid : encodeUuid pairId.uuid = .ok (Wire.putVarint 16 ++ pairId.uuid.bytes) := by
    unfold encodeUuid encodeByteArray
    rw [pairId.uuid.length_eq, hsafe 16 (by decide)]
    rfl
  have hbytes : encodeByteArray bytes = .ok (Wire.putVarint bytes.length ++ bytes) := by
    unfold encodeByteArray
    rw [hsafe _ h]
    rfl
  refine ⟨relayDiscData :: (Wire.putVarint 0 ++ (Wire.putVarint 16 ++ pairId.uuid.bytes) ++
    (Wire.putVarint bytes.length ++ bytes)), ?_⟩
  simp only [encodeRelay, hsafe 0 (by decide), huuid, hbytes]
  rfl

/-- What the worker asks of a payload: a server that is there, and the limits of the pair. -/
structure Admits (s : RelaySession) (target : ServerId) (pair : PairState) (bytes : List UInt8) (now : Nat)
    (server : SocketId) : Prop where
  server : s.findRegisteredServer target = some server
  rate : (RelaySession.bumpRate s.limits pair bytes.length now).2 = none
  queue : pair.queuedBytes + bytes.length ≤ s.limits.maxQueuedBytes

/-- The server's socket is given one frame; but for times and the pair's counters nothing else changes. -/
def forwarded (s : RelaySession) (i server : SocketId) (pairId : PairId) (pair : PairState) (bytes frame : List UInt8)
    (now : Nat) : RelaySession :=
  { s with
    pairs := s.pairs.insert pairId (RelaySession.bumpRate s.limits pair bytes.length now).1
    sockets := (s.sockets.modify i fun ws => ws.touch now).modify server fun ws => (ws.touch now).push (.binary frame) }

theorem queuedBytes_bumpRate (limits : RelayLimits) (pair : PairState) (bytes now : Nat) :
    (RelaySession.bumpRate limits pair bytes now).1.queuedBytes = pair.queuedBytes := by
  unfold RelaySession.bumpRate
  simp only
  split <;> split <;> rfl

variable {w : Worker} {object : ServerId} {i : SocketId} {ws : Socket} {p : PairId} {target : ServerId}
  {connectedAt lastProgressAt : Nat} {pair : PairState}

theorem step_clientMessage (hi : (w object).sockets[i]? = some ws) (hgone : ws.gone = false)
    (ha : ws.attachment = some (.client target (some p) connectedAt lastProgressAt)) (bytes : List UInt8) (now : Nat)
    (newPairId : PairId) : step w (.message object i (.binary bytes) now newPairId) =
      some (Function.update w object ((w object).clientFrame i target p bytes now)) := by
  simp only [step, hi, hgone, Bool.false_eq_true, if_false]
  unfold RelaySession.webSocketMessage
  simp only [hi, Option.bind_some, ha]

/-- **A payload within the limits is passed on as it is.** -/
theorem message_forwards (hi : (w object).sockets[i]? = some ws) (hgone : ws.gone = false)
    (ha : ws.attachment = some (.client target (some p) connectedAt lastProgressAt))
    (hpair : (w object).pairs.lookup p = some pair) {bytes : List UInt8} (hpayload : IsPayload bytes)
    (hsafe : bytes.length ≤ maxSafeInteger) {now : Nat} {server : SocketId}
    (hadmits : Admits (w object) target pair bytes now server) (newPairId : PairId) :
    ∃ frame, encodeRelay (.dataForward p bytes) = .ok frame ∧
      step w (.message object i (.binary bytes) now newPairId) =
        some (Function.update w object (forwarded (w object) i server p pair bytes frame now)) := by
  obtain ⟨frame, hframe⟩ := encodeRelay_dataForward hsafe p
  refine ⟨frame, hframe, ?_⟩
  rw [step_clientMessage hi hgone ha]
  have hforward : (w object).clientFrame i target p bytes now = (w object).clientPayload i target p pair bytes now := by
    unfold RelaySession.clientFrame
    simp only [hpair]
    split
    · next closing reason hdecode =>
      obtain ⟨spelled, rest, hbytes, hspells⟩ := decodeRelay_eq_pairClose.mp hdecode
      exact absurd hspells (hpayload closing reason spelled rest hbytes)
    · rfl
  have hqueue := queuedBytes_bumpRate (w object).limits pair bytes.length now
  obtain ⟨hserver, hrate, hmax⟩ := hadmits
  rw [hforward]
  congr 2
  unfold RelaySession.clientPayload forwarded
  simp only [hserver]
  cases hbump : RelaySession.bumpRate (w object).limits pair bytes.length now with
  | mk bumped error =>
    rw [hbump] at hrate hqueue
    simp only at hrate hqueue
    subst hrate
    simp only [hqueue]
    rw [if_neg (by omega)]
    simp only [RelaySession.mapSocket, Socket.send, hframe]

/-- A message with `PairClose` for the client's own pair at its front closes that pair. -/
theorem message_closes (hi : (w object).sockets[i]? = some ws) (hgone : ws.gone = false)
    (ha : ws.attachment = some (.client target (some p) connectedAt lastProgressAt))
    (hpair : (w object).pairs.lookup p = some pair) {reason : CloseReason} {spelled rest : List UInt8}
    (hspells : SpellsPairClose p reason spelled) (now : Nat) (newPairId : PairId) :
    step w (.message object i (.binary (spelled ++ rest)) now newPairId) =
      some (Function.update w object ((w object).closePair p reason)) := by
  have hdecode := decodeRelay_eq_pairClose.mpr ⟨spelled, rest, rfl, hspells⟩
  rw [step_clientMessage hi hgone ha]
  unfold RelaySession.clientFrame
  simp only [hpair, hdecode]

end Worker

/-! ## Both relays -/

/-- **What becomes of a client's message**, in the relay and in the worker, once its pair is open. A payload becomes
one `Forward` frame with these bytes, which waits for room in the server's queue, and nothing else happens; in the
worker, as long as the server is there and the pair is within its limits. A message that begins with `PairClose` for
the pair itself closes it. -/
theorem payload_transparency (s : Relay) (w : Worker) :
    (∀ c conn pairId serverId serverTx, s.conns[c]? = some conn → Relay.Conn.idle conn →
      conn.role = .client pairId serverId serverTx → ∀ now,
      (∀ bytes, Relay.IsPayload bytes → Relay.Forwards s c pairId serverTx bytes now) ∧
      (∀ reason spelled rest, SpellsPairClose pairId reason spelled →
        s.step (.read c (.binary (spelled ++ rest)) now) = some ((s.closePair pairId reason).1.settle c conn
          (.stop (s.closePair pairId reason).2)))) ∧
    (∀ c conn target tx msg required rest, s.conns[c]? = some conn → conn.todo = .send tx msg required :: rest →
      s.conns[tx]? = some target → target.channel.closed = false →
      target.channel.queue.length < target.channel.capacity →
      s.step (.advance c) = some ((s.mapConn tx fun k =>
        { k with channel := { target.channel with queue := target.channel.queue ++ [msg] } }).mapConn c fun k =>
          { k with todo := rest })) ∧
    (∀ object i ws p target connectedAt lastProgressAt pair, (w object).sockets[i]? = some ws → ws.gone = false →
      ws.attachment = some (.client target (some p) connectedAt lastProgressAt) →
      (w object).pairs.lookup p = some pair → ∀ now newPairId,
      (∀ bytes server, Worker.IsPayload bytes → bytes.length ≤ Worker.maxSafeInteger →
        Worker.Admits (w object) target pair bytes now server →
        ∃ frame, Worker.encodeRelay (.dataForward p bytes) = .ok frame ∧
          Worker.step w (.message object i (.binary bytes) now newPairId) =
            some (Function.update w object (Worker.forwarded (w object) i server p pair bytes frame now))) ∧
      (∀ reason spelled rest, Worker.SpellsPairClose p reason spelled →
        Worker.step w (.message object i (.binary (spelled ++ rest)) now newPairId) =
          some (Function.update w object ((w object).closePair p reason)))) := by
  refine ⟨?_, ?_, ?_⟩
  · intro c conn pairId serverId serverTx hc hidle hrole now
    refine ⟨fun bytes hpayload => Relay.read_forwards hc hidle hrole hpayload now, ?_⟩
    intro reason spelled rest hspells
    exact Relay.read_closes hc hidle hrole hspells now
  · intro c conn target tx msg required rest hc htodo htx hopen hroom
    exact Relay.advance_send hc htodo htx hopen hroom
  · intro object i ws p target connectedAt lastProgressAt pair hi hgone ha hpair now newPairId
    refine ⟨fun bytes server hpayload hsafe hadmits => ?_, ?_⟩
    · exact Worker.message_forwards hi hgone ha hpair hpayload hsafe hadmits newPairId
    · intro reason spelled rest hspells
      exact Worker.message_closes hi hgone ha hpair hspells now newPairId

/-! ## Two messages -/

/-- The client of `connectedRelay` has been told that its pair is open. -/
def openedRelay : Relay := (Relay.step connectedRelay (.write 2 true)).getD {}

theorem run_openedMoves : Steps.run Relay.step {} (connectedMoves ++ [.write 2 true]) = some openedRelay := by
  rfl

theorem isPayload_zero : Relay.IsPayload [0x00, 0x2a] := by
  intro pairId reason spelled rest h hspells
  cases hspells
  cases h

theorem payload_transparency_sample :
    Relay.Forwards openedRelay 2 pairA 0 [0x00, 0x2a] 7 ∧
      ∃ frame, Worker.encodeRelay (.dataForward pairA [0x00, 0x2a]) = .ok frame ∧
        Worker.step openedWorker (.message serverA 1 (.binary [0x00, 0x2a]) 7 pairA) =
          some (Function.update openedWorker serverA
            (Worker.forwarded (openedWorker serverA) 1 0 pairA ⟨pairA, serverA, 0, 0, 0, 0, 0⟩ [0x00, 0x2a] frame 7)) := by
  have hclaim := payload_transparency openedRelay openedWorker
  refine ⟨?_, ?_⟩
  · exact (hclaim.1 2 _ pairA serverA 0 (by rfl) ⟨.inl (by rfl), by rfl⟩ (by rfl) 7).1 _ isPayload_zero
  · have hworker := hclaim.2.2 serverA 1 _ pairA serverA 0 0 ⟨pairA, serverA, 0, 0, 0, 0, 0⟩ (by rfl) (by rfl) (by rfl)
      (by rfl) 7 pairA
    refine hworker.1 [0x00, 0x2a] 0 ?_ (by decide) ⟨by rfl, by rfl, by decide⟩
    intro pairId reason spelled rest h hspells
    cases hspells
    cases h

/-- **A payload that is taken as a control frame**: it spells `PairClose`. -/
theorem payload_taken_as_control :
    ¬∀ idleThreshold s, Steps.Reachable Relay.step { idleThreshold } s → ∀ c conn pairId serverId serverTx,
      s.conns[c]? = some conn → Relay.Conn.idle conn → conn.role = .client pairId serverId serverTx →
      ∀ bytes now, Relay.Forwards s c pairId serverTx bytes now := by
  intro h
  have hforwards : Relay.Forwards openedRelay 2 pairA 0 (encodeRelayCtrl (.pairClose pairA .normal)) 7 :=
    h 0 openedRelay ⟨_, run_openedMoves⟩ 2 _ pairA serverA 0 (by rfl) ⟨.inl (by rfl), by rfl⟩ (by rfl) _ 7
  have hkept := congrArg (Option.map fun t : Relay => (t.pairs.lookup pairA).isSome) hforwards
  have hclosed : ((openedRelay.step (.read 2 (.binary (encodeRelayCtrl (.pairClose pairA .normal))) 7)).map
    fun t : Relay => (t.pairs.lookup pairA).isSome) = some false := by rfl
  rw [hclosed] at hkept
  cases hkept

end CliPocket
