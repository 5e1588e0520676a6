import CliPocket.Relay.Isolation
import CliPocket.Relay.Worker

/-!
# What one side of a pair can reach in the Cloudflare relay

- `Housed id s`: an object holds sockets and pairs of its own server only; `reachable_housed`: **it always does**, so
  a server reaches no other (`OnlyServer.of_message`);
- `Told p ws ws'`: what may happen to a socket for the sake of pair `p`;
- `clientFrame_onlyPair`: **a message of a client keeps to its pair exactly when it closes no other**;
- `relay_pairs_isolated`: both relays, servers and clients.
-/

namespace CliPocket

namespace Worker

/-! ## Sockets -/

namespace Socket

@[simp] theorem attachment_push (ws : Socket) (message : Outgoing) : (ws.push message).attachment = ws.attachment := by
  unfold push
  split <;> rfl

@[simp] theorem attachment_send (ws : Socket) (message : RelayMessage) : (ws.send message).attachment = ws.attachment := by
  unfold send
  split
  · exact attachment_push _ _
  · rfl

@[simp] theorem isOpen_send (ws : Socket) (message : RelayMessage) : (ws.send message).isOpen = ws.isOpen := by
  unfold send push
  split
  · split <;> rfl
  · rfl

@[simp] theorem attachment_close (ws : Socket) (code : Nat) (reason : String) :
    (ws.close code reason).attachment = ws.attachment := by
  unfold close
  split <;> rfl

end Socket

/-! ## Objects hold what is theirs -/

/-- The attachment of a socket of the object `id`. -/
def Attached (id : ServerId) : Option SocketAttachment → Prop
  | none => False
  | some (.server _ serverId _ _) => serverId = some id
  | some (.client target _ _ _) => target = id

theorem Attached.touch {id : ServerId} {ws : Socket} (now : Nat) (h : Attached id ws.attachment) :
    Attached id (ws.touch now).attachment := by
  unfold Socket.touch
  cases ha : ws.attachment with
  | none =>
    rw [ha] at h
    exact h
  | some attachment =>
    rw [ha] at h
    cases attachment <;> exact h

structure Housed (id : ServerId) (s : RelaySession) : Prop where
  pairs : ∀ {pairId pair}, s.pairs.lookup pairId = some pair → pair.serverId = id
  sockets : ∀ ws ∈ s.sockets, Attached id ws.attachment

variable {id : ServerId} {s t : RelaySession}

theorem mem_modify {α : Type} {f : α → α} : ∀ {l : List α} {i : Nat} {b : α}, b ∈ l.modify i f →
    b ∈ l ∨ ∃ a, l[i]? = some a ∧ b = f a
  | [], i, b, h => by
    simp at h
  | a :: l, 0, b, h => by
    rcases List.mem_cons.mp h with rfl | h
    · exact .inr ⟨a, rfl, rfl⟩
    · exact .inl (List.mem_cons_of_mem _ h)
  | a :: l, i + 1, b, h => by
    rcases List.mem_cons.mp h with rfl | h
    · exact .inl List.mem_cons_self
    · rcases mem_modify h with h | ⟨a', ha, hb⟩
      · exact .inl (List.mem_cons_of_mem _ h)
      · exact .inr ⟨a', ha, hb⟩

theorem Housed.mapSocket (h : Housed id s) (i : SocketId) {f : Socket → Socket}
    (hf : ∀ ws, Attached id ws.attachment → Attached id (f ws).attachment) : Housed id (s.mapSocket i f) := by
  refine ⟨h.pairs, ?_⟩
  intro ws hm
  rcases mem_modify hm with hm | ⟨ws, hi, rfl⟩
  · exact h.sockets ws hm
  · exact hf ws (h.sockets ws (List.mem_of_getElem? hi))

theorem Housed.map (h : Housed id s) {f : Socket → Socket}
    (hf : ∀ ws, Attached id ws.attachment → Attached id (f ws).attachment) :
    Housed id { s with sockets := s.sockets.map f } := by
  refine ⟨h.pairs, ?_⟩
  intro ws hm
  obtain ⟨ws₀, hm₀, rfl⟩ := List.mem_map.mp hm
  exact hf ws₀ (h.sockets ws₀ hm₀)

theorem Housed.insert (h : Housed id s) {pairId : PairId} {pair : PairState} (hp : pair.serverId = id) :
    Housed id { s with pairs := s.pairs.insert pairId pair } := by
  refine ⟨?_, h.sockets⟩
  intro q found hl
  by_cases hq : q = pairId
  · subst hq
    rw [AList.lookup_insert] at hl
    cases hl
    exact hp
  · rw [AList.lookup_insert_ne hq] at hl
    exact h.pairs hl

theorem Housed.erase (h : Housed id s) (pairId : PairId) : Housed id { s with pairs := s.pairs.erase pairId } := by
  refine ⟨?_, h.sockets⟩
  intro q found hl
  by_cases hq : q = pairId
  · subst hq
    rw [AList.lookup_erase] at hl
    cases hl
  · rw [AList.lookup_erase_ne hq] at hl
    exact h.pairs hl

theorem Housed.closePair (h : Housed id s) (pairId : PairId) (reason : CloseReason) :
    Housed id (s.closePair pairId reason) := by
  have hdrop : Housed id (s.dropPair pairId reason) := by
    refine (h.erase pairId).map ?_
    intro ws hws
    split
    · simpa using hws
    · exact hws
  unfold RelaySession.closePair
  simp only
  split
  · exact hdrop
  · split
    · exact hdrop
    · exact hdrop.mapSocket _ fun ws hws => by simpa using hws

theorem serverId_bumpRate (limits : RelayLimits) (pair : PairState) (bytes now : Nat) :
    (RelaySession.bumpRate limits pair bytes now).1.serverId = pair.serverId := by
  unfold RelaySession.bumpRate
  simp only
  split <;> split <;> rfl

theorem Housed.registerServer (h : Housed id s) (i : SocketId) (connectedAt : Nat) (decoded : RelayMessage) (now : Nat) :
    Housed id (s.registerServer i (some id) connectedAt decoded now) := by
  have hrefuse : ∀ reason, Housed id (s.refuse i reason) :=
    fun reason => h.mapSocket i fun ws hws => by simpa using hws
  unfold RelaySession.registerServer
  split
  · next serverId =>
    split
    · exact hrefuse _
    · next hid =>
      split
      · exact hrefuse _
      · split
        · exact hrefuse _
        · refine h.mapSocket i fun ws _ => ?_
          rw [Socket.attachment_send]
          simp only [Option.isSome_some, ne_eq, Option.some.injEq, true_and, not_not] at hid
          exact congrArg some hid.symm
  · exact h.mapSocket i fun ws hws => by simpa using hws

theorem Housed.serverFrame (h : Housed id s) (i : SocketId) (decoded : RelayMessage) (now : Nat) :
    Housed id (s.serverFrame i decoded now) := by
  have ht : Housed id (s.mapSocket i fun ws => ws.touch now) := h.mapSocket i fun _ hws => hws.touch now
  unfold RelaySession.serverFrame
  simp only
  split
  · exact ht
  · exact ht.closePair _ _
  · next pairId bytes =>
    split
    · exact ht.mapSocket i fun ws hws => by simpa using hws
    · next pair hl =>
      have hbump := serverId_bumpRate (s.mapSocket i fun ws => ws.touch now).limits pair bytes.length now
      rw [ht.pairs hl] at hbump
      split
      · next bumped _ hb =>
        rw [hb] at hbump
        exact (ht.insert hbump).closePair _ _
      · next bumped hb =>
        rw [hb] at hbump
        refine (ht.insert hbump).map ?_
        intro ws hws
        split
        · simpa using hws.touch now
        · exact hws
  · exact ht.mapSocket i fun ws hws => by simpa using hws

theorem Housed.connectClient (h : Housed id s) (i : SocketId) (connectedAt : Nat) (decoded : RelayMessage)
    (pairId : PairId) (now : Nat) : Housed id (s.connectClient i id connectedAt decoded pairId now) := by
  unfold RelaySession.connectClient
  split
  · split
    · exact h.mapSocket i fun ws hws => by simpa using hws
    · split
      · exact h.mapSocket i fun ws hws => by simpa using hws
      · split
        · exact h.mapSocket i fun ws hws => by simpa using hws
        · apply Housed.mapSocket
          · apply Housed.mapSocket
            · apply Housed.mapSocket
              · exact h.insert rfl
              · exact fun _ _ => rfl
            · exact fun ws hws => by simpa using hws
          · exact fun ws hws => by simpa using hws
  · exact h.mapSocket i fun ws hws => by simpa using hws

theorem Housed.clientFrame (h : Housed id s) (i : SocketId) (target : ServerId) (pairId : PairId) (bytes : List UInt8)
    (now : Nat) : Housed id (s.clientFrame i target pairId bytes now) := by
  unfold RelaySession.clientFrame
  split
  · exact h.mapSocket i fun ws hws => by simpa using hws
  · next pair hl =>
    split
    · exact h.closePair _ _
    · have hbump := serverId_bumpRate s.limits pair bytes.length now
      rw [h.pairs hl] at hbump
      unfold RelaySession.clientPayload
      split
      · exact h.closePair _ _
      · split
        · next bumped _ hb =>
          rw [hb] at hbump
          exact (h.insert hbump).closePair _ _
        · next bumped hb =>
          rw [hb] at hbump
          split
          · apply Housed.closePair
            exact h.insert hbump
          · apply Housed.mapSocket
            · apply Housed.mapSocket
              · exact h.insert hbump
              · exact fun _ hws => hws.touch now
            · exact fun ws hws => by simpa using hws.touch now

theorem Housed.webSocketMessage (h : Housed id s) (i : SocketId) (message : Message) (now : Nat) (newPairId : PairId) :
    Housed id (s.webSocketMessage i message now newPairId) := by
  unfold RelaySession.webSocketMessage
  split
  · exact h.mapSocket i fun ws hws => by simpa using hws
  · next attachment ha =>
    have hid : Attached id (some attachment) := by
      obtain ⟨ws, hi, hws⟩ := Option.bind_eq_some_iff.mp ha
      rw [← hws]
      exact h.sockets ws (List.mem_of_getElem? hi)
    split
    · split
      · exact h.mapSocket i fun ws hws => by simpa using hws.touch now
      · exact h.mapSocket i fun ws hws => by simpa using hws
    · exact h.mapSocket i fun ws hws => by simpa using hws
    · split
      · exact h
      · split
        · exact h.serverFrame _ _ _
        · cases hid
          exact h.registerServer _ _ _ _
    · split
      · exact h
      · cases hid
        exact h.connectClient _ _ _ _ _
    · exact h.clientFrame _ _ _ _ _

theorem Housed.webSocketClose (h : Housed id s) (i : SocketId) : Housed id (s.webSocketClose i) := by
  have ht : Housed id (s.mapSocket i fun ws => { ws with isOpen := false, gone := true }) :=
    h.mapSocket i fun _ hws => hws
  unfold RelaySession.webSocketClose
  simp only
  split
  · refine ht.map ?_
    intro ws hws
    split
    · rw [Socket.attachment_close]
      split
      · simpa using hws
      · exact hws
    · exact hws
  · apply Housed.erase
    split
    · exact ht.mapSocket _ fun ws hws => by simpa using hws
    · exact ht
  · exact ht

theorem Housed.sweepIdlePairs (h : Housed id s) (now : Nat) : Housed id (s.sweepIdlePairs now) := by
  unfold RelaySession.sweepIdlePairs
  generalize s.pairs.entries.filter _ = stuck
  induction stuck generalizing s with
  | nil => exact h
  | cons entry rest ih => exact ih (h.closePair _ _)

theorem Housed.fetch (h : Housed id s) (role : SocketRole) (authorized : Bool) (now : Nat) :
    Housed id (s.fetch role (some id) authorized now) := by
  have hnew : ∀ ws : Socket, Attached id ws.attachment → Housed id { s with sockets := s.sockets ++ [ws] } := by
    intro new hnew
    refine ⟨h.pairs, ?_⟩
    intro ws hm
    rcases List.mem_append.mp hm with hm | hm
    · exact h.sockets ws hm
    · rw [List.mem_singleton.mp hm]
      exact hnew
  cases role with
  | server =>
    simp only [RelaySession.fetch]
    split
    · exact hnew { tag := .server, attachment := some (.server false (some id) now now) } rfl
    · exact h
  | client => exact hnew { tag := .client, attachment := some (.client id none now now) } rfl

/-- **Every object holds what is its own**: a move of the worker. -/
theorem step_housed {w w' : Worker} {move : Move} (h : ∀ id, Housed id (w id)) (hs : step w move = some w') :
    ∀ id, Housed id (w' id) := by
  have hupdate : ∀ id s, Housed id s → ∀ id', Housed id' (Function.update w id s id') := by
    intro id s hs id'
    by_cases hid : id' = id
    · subst hid
      rw [Function.update_self]
      exact hs
    · rw [Function.update_of_ne hid]
      exact h id'
  cases move with
  | fetch role server authorized now =>
    cases server with
    | none =>
      cases hs
      exact h
    | some id =>
      cases hs
      exact hupdate id _ ((h id).fetch role authorized now)
  | message object socket message now newPairId =>
    simp only [step] at hs
    split at hs
    · cases hs
    · split at hs
      · cases hs
      · cases hs
        exact hupdate object _ ((h object).webSocketMessage _ _ _ _)
  | close object socket =>
    simp only [step] at hs
    split at hs
    · cases hs
    · split at hs
      · cases hs
      · cases hs
        exact hupdate object _ ((h object).webSocketClose _)
  | sweep object now =>
    cases hs
    exact hupdate object _ ((h object).sweepIdlePairs now)
  | reconstruct object =>
    cases hs
    exact hupdate object _ ⟨fun hl => by simp at hl, (h object).sockets⟩

theorem reachable_housed {limits : RelayLimits} {w : Worker} (h : Steps.Reachable step (init limits) w) :
    ∀ id, Housed id (w id) := by
  apply h.invariant (I := fun w => ∀ id, Housed id (w id))
  · intro id
    exact ⟨fun hl => by simp [init] at hl, fun ws hm => by simp [init] at hm⟩
  · intro w move w' hw hs
    exact step_housed hw hs

/-! ## A server reaches only what is its own -/

/-- The server a socket belongs to. -/
def Socket.owner (ws : Socket) : Option ServerId :=
  match ws.attachment with
  | some (.server _ serverId _ _) => serverId
  | some (.client target _ _ _) => some target
  | none => none

theorem Attached.owner {ws : Socket} (h : Attached id ws.attachment) : ws.owner = some id := by
  unfold Socket.owner
  cases ha : ws.attachment with
  | none =>
    rw [ha] at h
    exact h.elim
  | some attachment =>
    rw [ha] at h
    cases attachment with
    | server registered serverId connectedAt lastProgressAt => exact h
    | client target pairId connectedAt lastProgressAt => exact congrArg some h

/-- Only pairs of the server change, in whatever object, and only it and its clients are given anything. -/
structure OnlyServer (serverId : ServerId) (w w' : Worker) : Prop where
  kept : ∀ object pairId pair, (w object).pairs.lookup pairId = some pair → pair.serverId ≠ serverId →
    (w' object).pairs.lookup pairId = some pair
  new : ∀ object pairId pair, (w' object).pairs.lookup pairId = some pair → pair.serverId ≠ serverId →
    (w object).pairs.lookup pairId = some pair
  sockets : ∀ object (i : SocketId) (ws : Socket), (w object).sockets[i]? = some ws → ws.owner ≠ some serverId →
    ∃ ws' : Socket, (w' object).sockets[i]? = some ws' ∧ ws'.out = ws.out ∧ ws'.isOpen = ws.isOpen

/-- **Whatever a server sends, it reaches only its own pairs and clients.** -/
theorem OnlyServer.of_message {w w' : Worker} (h : ∀ id, Housed id (w id)) {object serverId : ServerId} {i : SocketId}
    {ws : Socket} (hi : (w object).sockets[i]? = some ws) (howner : ws.owner = some serverId) {message : Message}
    {now : Nat} {newPairId : PairId} (hs : step w (.message object i message now newPairId) = some w') :
    OnlyServer serverId w w' := by
  have h' := step_housed h hs
  have hobject : object = serverId := by
    have := ((h object).sockets ws (List.mem_of_getElem? hi)).owner
    rw [howner] at this
    exact (Option.some.inj this).symm
  subst hobject
  have hother : ∀ id, id ≠ object → w' id = w id := by
    intro id hid
    simp only [step] at hs
    split at hs
    · cases hs
    · split at hs
      · cases hs
      · cases hs
        exact Function.update_of_ne hid _ _
  refine ⟨?_, ?_, ?_⟩
  · intro id pairId pair hl hne
    rwa [hother id ((h id).pairs hl ▸ hne)]
  · intro id pairId pair hl hne
    rwa [hother id ((h' id).pairs hl ▸ hne)] at hl
  · intro id j ws' hj hne
    have hid : id ≠ object := by
      intro he
      exact hne (he ▸ ((h id).sockets ws' (List.mem_of_getElem? hj)).owner)
    rw [hother id hid]
    exact ⟨ws', hj, rfl, rfl⟩

/-! ## What may happen to a socket for the sake of one pair -/

inductive Who
  | server
  | client (pairId : Option PairId)
  | unknown
  deriving DecidableEq

def Socket.who (ws : Socket) : Who :=
  match ws.attachment with
  | some (.server _ _ _ _) => .server
  | some (.client _ pairId _ _) => .client pairId
  | none => .unknown

/-- A frame that speaks of this pair. -/
def InNameOf (p : PairId) (frame : Outgoing) : Prop :=
  ∃ message bytes, frame = .binary bytes ∧ encodeRelay message = .ok bytes ∧
    ((∃ reason, message = .pairClose p reason) ∨ ∃ payload, message = .dataForward p payload)

/-- The client of pair `p` may be given anything, a server frames in the name of `p`, others nothing. -/
def Told (p : PairId) (ws ws' : Socket) : Prop :=
  ws'.who = ws.who ∧ (ws.who = .client (some p) ∨
    ws'.isOpen = ws.isOpen ∧ ∃ frames, ws'.out = ws.out ++ frames ∧ (frames ≠ [] → ws.who = .server) ∧
      ∀ frame ∈ frames, InNameOf p frame)

/-- Only pair `p` changes, and sockets are told of no other. -/
structure OnlyPair (p : PairId) (s t : RelaySession) : Prop where
  pairs : ∀ pairId, pairId ≠ p → t.pairs.lookup pairId = s.pairs.lookup pairId
  sockets : ∀ (i : SocketId) (ws : Socket), s.sockets[i]? = some ws → ∃ ws', t.sockets[i]? = some ws' ∧ Told p ws ws'

variable {p : PairId}

theorem Told.refl (ws : Socket) : Told p ws ws :=
  ⟨rfl, .inr ⟨rfl, [], (List.append_nil _).symm, fun h => absurd rfl h, fun _ hm => absurd hm List.not_mem_nil⟩⟩

theorem Told.trans {ws ws' ws'' : Socket} (h : Told p ws ws') (h' : Told p ws' ws'') : Told p ws ws'' := by
  obtain ⟨hwho, h⟩ := h
  obtain ⟨hwho', h'⟩ := h'
  refine ⟨hwho'.trans hwho, ?_⟩
  rw [hwho] at h'
  rcases h with h | ⟨hopen, frames, hout, hserver, hname⟩
  · exact .inl h
  · rcases h' with h' | ⟨hopen', frames', hout', hserver', hname'⟩
    · exact .inl h'
    · refine .inr ⟨hopen'.trans hopen, frames ++ frames', ?_, ?_, ?_⟩
      · rw [hout', hout, List.append_assoc]
      · intro hne
        by_cases hf : frames = []
        · exact hserver' fun hf' => hne (by rw [hf, hf', List.nil_append])
        · exact hserver hf
      · intro frame hm
        rcases List.mem_append.mp hm with hm | hm
        · exact hname frame hm
        · exact hname' frame hm

/-- Anything may happen to the client of the pair, as long as it stays that. -/
theorem Told.client {ws ws' : Socket} (h : ws.who = .client (some p)) (h' : ws'.who = ws.who) : Told p ws ws' :=
  ⟨h', .inl h⟩

theorem who_eq_of_attachment {ws ws' : Socket} (h : ws'.attachment = ws.attachment) : ws'.who = ws.who := by
  unfold Socket.who
  rw [h]

theorem Told.touch (ws : Socket) (now : Nat) : Told p ws (ws.touch now) := by
  have hwho : (ws.touch now).who = ws.who := by
    unfold Socket.who Socket.touch
    cases ws.attachment with
    | none => rfl
    | some attachment => cases attachment <;> rfl
  exact ⟨hwho, .inr ⟨rfl, [], (List.append_nil _).symm, fun h => absurd rfl h, fun _ hm => absurd hm List.not_mem_nil⟩⟩

/-- A server is sent a message that speaks of the pair. -/
theorem Told.send {ws : Socket} (hwho : ws.who = .server) {message : RelayMessage}
    (h : (∃ reason, message = .pairClose p reason) ∨ ∃ payload, message = .dataForward p payload) :
    Told p ws (ws.send message) := by
  refine ⟨who_eq_of_attachment (Socket.attachment_send _ _), .inr ?_⟩
  unfold Socket.send
  split
  · next bytes hbytes =>
    unfold Socket.push
    split
    · refine ⟨rfl, [.binary bytes], rfl, fun _ => hwho, ?_⟩
      intro frame hm
      rw [List.mem_singleton.mp hm]
      exact ⟨message, bytes, rfl, hbytes, h⟩
    · exact ⟨rfl, [], (List.append_nil _).symm, fun h => absurd rfl h, fun _ hm => absurd hm List.not_mem_nil⟩
  · exact ⟨rfl, [], (List.append_nil _).symm, fun h => absurd rfl h, fun _ hm => absurd hm List.not_mem_nil⟩

theorem OnlyPair.refl (s : RelaySession) : OnlyPair p s s := ⟨fun _ _ => rfl, fun _ ws hi => ⟨ws, hi, .refl ws⟩⟩

theorem OnlyPair.trans {u : RelaySession} (h : OnlyPair p s t) (h' : OnlyPair p t u) : OnlyPair p s u := by
  refine ⟨fun q hq => (h'.pairs q hq).trans (h.pairs q hq), ?_⟩
  intro i ws hi
  obtain ⟨ws', hi', htold⟩ := h.sockets i ws hi
  obtain ⟨ws'', hi'', htold'⟩ := h'.sockets i ws' hi'
  exact ⟨ws'', hi'', htold.trans htold'⟩

theorem OnlyPair.mapSocket {i : SocketId} {f : Socket → Socket}
    (hf : ∀ ws, s.sockets[i]? = some ws → Told p ws (f ws)) : OnlyPair p s (s.mapSocket i f) := by
  refine ⟨fun _ _ => rfl, ?_⟩
  intro j ws hj
  by_cases hij : i = j
  · subst hij
    refine ⟨f ws, ?_, hf ws hj⟩
    simp [RelaySession.mapSocket, hj]
  · refine ⟨ws, ?_, .refl ws⟩
    simp only [RelaySession.mapSocket]
    rw [List.getElem?_modify_ne _ _ hij, hj]

theorem OnlyPair.insert (pair : PairState) : OnlyPair p s { s with pairs := s.pairs.insert p pair } :=
  ⟨fun _ hq => AList.lookup_insert_ne hq, fun _ ws hi => ⟨ws, hi, .refl ws⟩⟩

/-- What `findRegisteredServer` finds is a server. -/
theorem who_of_findRegisteredServer {serverId : ServerId} {i : SocketId} (h : s.findRegisteredServer serverId = some i)
    {ws : Socket} (hi : s.sockets[i]? = some ws) : ws.who = .server := by
  unfold RelaySession.findRegisteredServer at h
  obtain ⟨hlt, hreg, _⟩ := List.findIdx?_eq_some_iff_getElem.mp h
  rw [List.getElem?_eq_getElem hlt] at hi
  cases hi
  unfold Socket.who
  unfold Socket.isRegistered at hreg
  split <;> simp_all

theorem who_of_isClientOf {ws : Socket} {q : PairId} (h : ws.isClientOf q = true) : ws.who = .client (some q) := by
  unfold Socket.isClientOf at h
  unfold Socket.who
  split at h <;> simp_all

theorem getElem?_dropPair {i : SocketId} {ws : Socket} (hi : s.sockets[i]? = some ws) (q : PairId)
    (reason : CloseReason) : (s.dropPair q reason).sockets[i]? =
      some (if ws.isClientOf q then (ws.send (.pairClose q reason)).close 1000 (typeOf reason) else ws) := by
  simp only [RelaySession.dropPair, List.getElem?_map, hi, Option.map_some]

theorem OnlyPair.dropPair (s : RelaySession) (reason : CloseReason) : OnlyPair p s (s.dropPair p reason) := by
  refine ⟨fun _ hq => AList.lookup_erase_ne hq, ?_⟩
  intro i ws hi
  refine ⟨_, getElem?_dropPair hi p reason, ?_⟩
  split
  · next hclient =>
    apply Told.client (who_of_isClientOf hclient)
    apply who_eq_of_attachment
    simp
  · exact .refl ws

/-- `closePair` of the pair itself. -/
theorem OnlyPair.closePair (s : RelaySession) (reason : CloseReason) : OnlyPair p s (s.closePair p reason) := by
  unfold RelaySession.closePair
  simp only
  split
  · exact .dropPair s reason
  · split
    · exact .dropPair s reason
    · next server hserver =>
      apply (OnlyPair.dropPair s reason).trans
      apply OnlyPair.mapSocket
      intro ws hws
      exact Told.send (who_of_findRegisteredServer hserver hws) (.inl ⟨reason, rfl⟩)

theorem OnlyPair.clientPayload {i : SocketId} {target : ServerId} {pair : PairState} {bytes : List UInt8} {now : Nat} :
    OnlyPair p s (s.clientPayload i target p pair bytes now) := by
  unfold RelaySession.clientPayload
  split
  · exact .closePair s _
  · next server hserver =>
    split
    · exact (OnlyPair.insert _).trans (.closePair _ _)
    · next bumped _ =>
      split
      · exact (OnlyPair.insert _).trans (.closePair _ _)
      · apply (OnlyPair.insert bumped).trans
        apply OnlyPair.trans (t := RelaySession.mapSocket _ i fun ws => ws.touch now)
        · apply OnlyPair.mapSocket
          intro ws _
          exact .touch ws now
        · apply OnlyPair.mapSocket
          intro ws hws
          have hwho : ws.who = .server := by
            simp only [RelaySession.mapSocket, List.getElem?_modify, Option.map_eq_map, Option.map_eq_some_iff] at hws
            obtain ⟨ws₀, hws₀, rfl⟩ := hws
            split
            · rw [(Told.touch (p := p) ws₀ now).1]
              exact who_of_findRegisteredServer hserver hws₀
            · exact who_of_findRegisteredServer hserver hws₀
          apply (Told.touch ws now).trans
          refine Told.send ?_ (.inr ⟨bytes, rfl⟩)
          rw [(Told.touch (p := p) ws now).1, hwho]

theorem pairs_closePair (s : RelaySession) (q : PairId) (reason : CloseReason) :
    (s.closePair q reason).pairs = s.pairs.erase q := by
  unfold RelaySession.closePair
  simp only
  split
  · rfl
  · split <;> rfl

/-- `PairClose` for another pair that the object knows of. -/
def ClosesOther (s : RelaySession) (p : PairId) (bytes : List UInt8) : Prop :=
  (s.pairs.lookup p).isSome ∧ ∃ q reason, decodeRelay bytes = .ok (.pairClose q reason) ∧ q ≠ p ∧
    ((s.pairs.lookup q).isSome ∨ ∃ ws ∈ s.sockets, ws.isClientOf q = true ∧ ws.isOpen = true)

/-- `closePair` where neither a pair nor an open client is found. -/
theorem OnlyPair.closePair_unknown {q : PairId} {reason : CloseReason} (hnone : s.pairs.lookup q = none)
    (hclients : ∀ ws ∈ s.sockets, ws.isClientOf q = true → ws.isOpen = false) : OnlyPair p s (s.closePair q reason) := by
  unfold RelaySession.closePair
  simp only [hnone]
  refine ⟨?_, ?_⟩
  · intro r _
    simp only [RelaySession.dropPair]
    by_cases hr : r = q
    · subst hr
      rw [AList.lookup_erase, hnone]
    · exact AList.lookup_erase_ne hr
  · intro i ws hi
    refine ⟨_, getElem?_dropPair hi q reason, ?_⟩
    split
    · next hclient =>
      have hclosed := hclients ws (List.mem_of_getElem? hi) hclient
      have hsend : ws.send (.pairClose q reason) = ws := by
        unfold Socket.send Socket.push
        split
        · simp [hclosed]
        · rfl
      rw [hsend]
      simp only [Socket.close, hclosed]
      exact .refl ws
    · exact .refl ws

/-- **A message of a client keeps to its pair exactly when it closes no other.** -/
theorem clientFrame_onlyPair {i : SocketId} {target : ServerId} {bytes : List UInt8} {now : Nat}
    (hi : ∀ ws, s.sockets[i]? = some ws → ws.who = .client (some p)) :
    OnlyPair p s (s.clientFrame i target p bytes now) ↔ ¬ClosesOther s p bytes := by
  constructor
  · rintro h ⟨hp, q, reason, hdecode, hne, hknown⟩
    obtain ⟨pair, hpair⟩ := Option.isSome_iff_exists.mp hp
    have hclose : s.clientFrame i target p bytes now = s.closePair q reason := by
      unfold RelaySession.clientFrame
      simp only [hpair, hdecode]
    rw [hclose] at h
    cases hl : s.pairs.lookup q with
    | some other =>
      have hgone := h.pairs q hne
      rw [pairs_closePair, AList.lookup_erase, hl] at hgone
      cases hgone
    | none =>
      simp only [hl, Option.isSome_none, Bool.false_eq_true, false_or] at hknown
      obtain ⟨ws, hm, hclient, hopen⟩ := hknown
      obtain ⟨j, hj⟩ := List.mem_iff_getElem?.mp hm
      obtain ⟨ws', hj', hwho, htold⟩ := h.sockets j ws hj
      have hws' : ws' = (ws.send (.pairClose q reason)).close 1000 (typeOf reason) := by
        unfold RelaySession.closePair at hj'
        simp only [hl, getElem?_dropPair hj, hclient, if_pos, Option.some.injEq] at hj'
        exact hj'.symm
      rcases htold with htold | ⟨hsame, _⟩
      · rw [who_of_isClientOf hclient] at htold
        simp only [Who.client.injEq, Option.some.injEq] at htold
        exact hne htold
      · rw [hws', Socket.close, Socket.isOpen_send, hopen, if_pos rfl] at hsame
        cases hsame
  · intro h
    unfold RelaySession.clientFrame
    split
    · apply OnlyPair.mapSocket
      intro ws hws
      exact Told.client (hi ws hws) (who_eq_of_attachment (Socket.attachment_close _ _ _))
    · next pair hpair =>
      split
      · next q reason hdecode =>
        by_cases hq : q = p
        · subst hq
          exact .closePair s reason
        · have hunknown : ¬((s.pairs.lookup q).isSome ∨ ∃ ws ∈ s.sockets, ws.isClientOf q = true ∧ ws.isOpen = true) :=
            fun hknown => h ⟨by rw [hpair]; rfl, q, reason, hdecode, hq, hknown⟩
          apply OnlyPair.closePair_unknown
          · by_contra hsome
            exact hunknown (.inl (Option.isSome_iff_ne_none.mpr hsome))
          · intro ws hm hclient
            by_contra hopen
            exact hunknown (.inr ⟨ws, hm, hclient, by simpa using hopen⟩)
      · exact .clientPayload

/-- What a message of a client does to the worker. -/
theorem step_clientFrame {w w' : Worker} {object : ServerId} {i : SocketId} {ws : Socket}
    (hi : (w object).sockets[i]? = some ws) {target : ServerId} {connectedAt lastProgressAt : Nat}
    (ha : ws.attachment = some (.client target (some p) connectedAt lastProgressAt)) {bytes : List UInt8} {now : Nat}
    {newPairId : PairId} (hs : step w (.message object i (.binary bytes) now newPairId) = some w') :
    w' = Function.update w object ((w object).clientFrame i target p bytes now) := by
  simp only [step, hi] at hs
  split at hs
  · cases hs
  · cases hs
    unfold RelaySession.webSocketMessage
    simp only [hi, Option.bind_some, ha]

end Worker

/-! ## Both relays -/

/-- **Isolation of pairs, in the relay and in the worker.** What is handled of a server's frame keeps to the pairs of
that server, and of a client's message to its own pair, exactly when it is no `PairClose` for the pair of another that
is there to be closed. In the worker, an object has no pairs of another server. -/
theorem relay_pairs_isolated {idleThreshold : Nat} {s : Relay} {limits : Worker.RelayLimits} {w : Worker}
    (hs : Steps.Reachable Relay.step { idleThreshold } s) (hw : Steps.Reachable Worker.step (Worker.init limits) w) :
    (∀ c serverId g msg now, s.role c = some (.server serverId g) → (s.step (.read c msg now)).isSome →
      (Relay.Handled (Relay.OnlyServer serverId) s c msg now ↔ ¬Relay.ClosesForeign s serverId msg)) ∧
    (∀ c p serverId tx msg now, s.role c = some (.client p serverId tx) → (s.step (.read c msg now)).isSome →
      (Relay.Handled (Relay.OnlyPair p) s c msg now ↔ ¬Relay.ClosesOther s p msg)) ∧
    (∀ object i ws serverId connectedAt lastProgressAt message now newPairId w', (w object).sockets[i]? = some ws →
      ws.attachment = some (.server true (some serverId) connectedAt lastProgressAt) →
      Worker.step w (.message object i message now newPairId) = some w' → Worker.OnlyServer serverId w w') ∧
    (∀ object i ws p target connectedAt lastProgressAt bytes now newPairId w', (w object).sockets[i]? = some ws →
      ws.attachment = some (.client target (some p) connectedAt lastProgressAt) →
      Worker.step w (.message object i (.binary bytes) now newPairId) = some w' →
      (((∀ other, other ≠ object → w' other = w other) ∧ Worker.OnlyPair p (w object) (w' object)) ↔
        ¬Worker.ClosesOther (w object) p bytes)) := by
  refine ⟨?_, ?_, ?_, ?_⟩
  · intro c serverId g msg now hrole hread
    exact Relay.server_frame_isolated (Relay.reachable_wf hs) hrole hread
  · intro c p serverId tx msg now hrole hread
    exact Relay.client_frame_isolated (Relay.reachable_wf hs) hrole hread
  · intro object i ws serverId connectedAt lastProgressAt message now newPairId w' hi ha hstep
    refine Worker.OnlyServer.of_message (Worker.reachable_housed hw) hi ?_ hstep
    simp only [Worker.Socket.owner, ha]
  · intro object i ws p target connectedAt lastProgressAt bytes now newPairId w' hi ha hstep
    obtain rfl := Worker.step_clientFrame hi ha hstep
    rw [Function.update_self]
    have hwho : ∀ ws', (w object).sockets[i]? = some ws' → ws'.who = .client (some p) := by
      intro ws' hi'
      rw [hi] at hi'
      cases hi'
      simp only [Worker.Socket.who, ha]
    rw [Worker.clientFrame_onlyPair hwho, and_iff_right_iff_imp]
    intro _ other hother
    exact Function.update_of_ne hother _ _

/-! ## A run -/

def serverA : ServerId := ⟨.splat 0xa⟩

def serverB : ServerId := ⟨.splat 0xb⟩

def pairA : PairId := ⟨.splat 0xc⟩

/-- Two servers register, and a client connects to the first. -/
def connectedMoves : List Relay.Move :=
  [.server (encodeRelayCtrl (.serverRegister serverA [] [])) true,
    .server (encodeRelayCtrl (.serverRegister serverB [] [])) true, .advance 0, .advance 1,
    .client serverA (encodeRelayCtrl (.clientConnect serverA)) true pairA 0, .advance 2, .advance 2, .advance 2]

def connectedRelay : Relay := (Steps.run Relay.step {} connectedMoves).getD {}

theorem run_connectedMoves : Steps.run Relay.step {} connectedMoves = some connectedRelay := by
  rfl

def workerLimits : Worker.RelayLimits := ⟨256, 2048, 4194304, 8388608, 120⟩

/-- In the worker, a server registers and a client connects to it. -/
def openedWorkerMoves : List Worker.Move :=
  [.fetch .server (some serverA) true 0,
    .message serverA 0 (.binary (encodeRelayCtrl (.serverRegister serverA [] []))) 0 pairA,
    .fetch .client (some serverA) true 0,
    .message serverA 1 (.binary (encodeRelayCtrl (.clientConnect serverA))) 0 pairA]

def openedWorker : Worker :=
  (Steps.run Worker.step (Worker.init workerLimits) openedWorkerMoves).getD (Worker.init workerLimits)

theorem run_openedWorkerMoves : Steps.run Worker.step (Worker.init workerLimits) openedWorkerMoves = some openedWorker := by
  rfl

/-- A payload of the server for its pair. -/
def servedBytes : List UInt8 := encodeRelayData (.forward pairA [0x2a])

theorem decodeRelay_servedBytes : decodeRelay servedBytes = .ok (.data (.forward pairA [0x2a])) := by
  rfl

/-- The worker behind this payload. -/
def servedWorker : Worker :=
  (Worker.step openedWorker (.message serverA 0 (.binary servedBytes) 5 pairA)).getD openedWorker

/-- The worker behind a message of the client. -/
def spokenWorker : Worker :=
  (Worker.step openedWorker (.message serverA 1 (.binary [0x00, 0x2a]) 5 pairA)).getD openedWorker

theorem relay_pairs_isolated_sample :
    Relay.Handled (Relay.OnlyServer serverA) connectedRelay 0 (.binary servedBytes) 5 ∧
    Relay.Handled (Relay.OnlyPair pairA) connectedRelay 2 (.binary [0x00, 0x2a]) 5 ∧
    Worker.OnlyServer serverA openedWorker servedWorker ∧
    (∀ other, other ≠ serverA → spokenWorker other = openedWorker other) ∧
    Worker.OnlyPair pairA (openedWorker serverA) (spokenWorker serverA) := by
  have hs : Steps.Reachable Relay.step {} connectedRelay := ⟨connectedMoves, run_connectedMoves⟩
  have hw : Steps.Reachable Worker.step (Worker.init workerLimits) openedWorker := ⟨_, run_openedWorkerMoves⟩
  obtain ⟨hserver, hclient, hworkerServer, hworkerClient⟩ := relay_pairs_isolated hs hw
  refine ⟨?_, ?_, ?_, ?_⟩
  · refine (hserver 0 serverA 0 _ 5 (by rfl) (by rfl)).mpr ?_
    rintro ⟨bytes, pairId, reason, pair, hmsg, hdecode, _⟩
    cases hmsg
    rw [decodeRelay_servedBytes] at hdecode
    cases hdecode
  · refine (hclient 2 pairA serverA 0 _ 5 (by rfl) (by rfl)).mpr ?_
    rintro ⟨bytes, pairId, reason, pair, hmsg, hdecode, _⟩
    cases hmsg
    cases hdecode
  · exact hworkerServer serverA 0 _ serverA 0 0 _ 5 pairA servedWorker (by rfl) (by rfl) (by rfl)
  · refine (hworkerClient serverA 1 _ pairA serverA 0 0 _ 5 pairA spokenWorker (by rfl) (by rfl) (by rfl)).mpr ?_
    rintro ⟨_, q, reason, hdecode, _⟩
    cases hdecode

/-- **A server closes the pair of another.** -/
theorem relay_pair_closed_by_other :
    ¬∀ idleThreshold s, Steps.Reachable Relay.step { idleThreshold } s → ∀ c serverId g msg now,
      s.role c = some (.server serverId g) → (s.step (.read c msg now)).isSome →
      Relay.Handled (Relay.OnlyServer serverId) s c msg now := by
  intro h
  have hreach : Steps.Reachable Relay.step {} connectedRelay := ⟨connectedMoves, run_connectedMoves⟩
  have hrole : connectedRelay.role 1 = some (.server serverB 1) := by rfl
  have hhandled := h 0 connectedRelay hreach 1 serverB 1
    (.binary (encodeRelayCtrl (.pairClose pairA .normal))) 0 hrole (by rfl)
  rw [Relay.server_frame_isolated (Relay.reachable_wf hreach) hrole (by rfl)] at hhandled
  apply hhandled
  refine ⟨_, pairA, .normal, _, rfl, rfl, rfl, ?_⟩
  decide

end CliPocket
