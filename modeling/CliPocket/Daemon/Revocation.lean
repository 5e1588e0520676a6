import CliPocket.Daemon.ClientDb
import CliPocket.Lib.Channel
import CliPocket.Lib.Steps
import CliPocket.Proto.Frame

/-!
# Revocation and the set-up of a connection

One connection of the client `client`, from its handshake to the end of its frame loop, against any calls of
`ClientDb::revoke`. The select of the loop is two polls, the watch first.

- `Live.step`: one move of a caller of `revoke`, of the client, of the connection, or of another one's receiver;
- `Live.Informed`: news that the connection has not seen is waiting at its watch (`step_informed`);
- `no_request_after_revoke`: no request received after `revoke` has returned is dispatched, as long as the revocation
  has neither been announced before the subscription nor between the two polls.
-/

namespace CliPocket

open Channel (Watch)

/-! ## Moves -/

/-- Where the task of the connection stands; `seen` is the version its watch receiver has seen. -/
inductive ConnPhase
  | handshake
  | authenticated
  | awaitHello
  | sendHelloOk (resumed : Bool)
  | subscribe
  | pollWatch (seen : Nat)
  | pollFrames (seen : Nat)
  | recheck (seen : Nat)
  | handling (seen : Nat)
  | closed (result : Except DaemonError Unit)

/-- A call of `revoke` that holds the write lock: its file is written, or memory is stored too. -/
inductive Revoking
  | written (next : DbState) (id : ClientId)
  | stored (id : ClientId)

/-- The database as far as revocation goes and one connection; `others` are the receivers that other connections have.
`dispatched` records each request with whether a `revoke` of the client had returned when it was received. -/
structure Live where
  db : DbState
  revocations : Watch (List ClientId)
  others : Nat
  revoking : Option Revoking
  returned : List ClientId
  serverInfo : ServerInfo
  inbound : List FrameBody
  sent : List FrameBody
  conn : ConnPhase
  dispatched : List (RequestFrame × Bool)

/-- A connection step says how its transport operation ends and which session id is next. -/
inductive LiveMove
  | revoke (id : ClientId) (written : Bool)
  | store
  | publish
  | watchRevocations
  | dropReceiver
  | arrive (frame : FrameBody)
  | conn (ok : Bool) (sessionId : SessionId)

/-- The connection has a receiver of the watch. -/
def ConnPhase.watches : ConnPhase → Bool
  | .pollWatch _ | .pollFrames _ | .recheck _ | .handling _ => true
  | _ => false

def validateHello (hello : Hello) : Except DaemonError Unit :=
  if protocolVersion < hello.protocolMin ∨ hello.protocolMax < protocolVersion then
    .error (.internal ("protocol version mismatch: client supports " ++ toString hello.protocolMin ++ ".." ++
      toString hello.protocolMax ++ ", server is " ++ toString protocolVersion))
  else .ok ()

namespace Live

/-- The daemon with an opened database and a connection that starts its handshake. -/
def start (db : DbState) (serverInfo : ServerInfo) : Live where
  db
  revocations := { value := db.revoked }
  others := 0
  revoking := none
  returned := []
  serverInfo
  inbound := []
  sent := []
  conn := .handshake
  dispatched := []

/-- The receivers of the watch. -/
def receivers (s : Live) : Nat := s.others + s.conn.watches.toNat

variable (client : ClientId)

def close (s : Live) (result : Except DaemonError Unit) : Live := { s with conn := .closed result }

/-- The first frame has to be a `Hello`. -/
def recvHello (s : Live) : Option Live :=
  match s.inbound with
  | [] => none
  | .hello hello :: rest =>
    match validateHello hello with
    | .error e => some (close { s with inbound := rest } (.error e))
    | .ok () => some { s with inbound := rest, conn := .sendHelloOk hello.resume.isSome }
  | _ :: rest =>
    some (close { s with inbound := rest, sent := s.sent ++ [.bye (.protocolError .protocolMismatch)] }
      (.error (.internal "expected Hello as first frame")))

/-- The frame branch of the select. -/
def recvFrame (s : Live) (seen : Nat) : Live :=
  match s.inbound with
  | [] => { s with conn := .pollWatch seen }
  | .request request :: rest =>
    { s with
      inbound := rest
      conn := .handling seen
      dispatched := s.dispatched ++ [(request, decide (client ∈ s.returned))] }
  | .ping nonce :: rest => { s with inbound := rest, sent := s.sent ++ [.pong nonce], conn := .pollWatch seen }
  | .bye _ :: rest => close { s with inbound := rest } (.ok ())
  | _ :: rest => { s with inbound := rest, conn := .pollWatch seen }

/-- The next step of the connection. `is_revoked` waits for the lock. -/
def connStep (s : Live) (ok : Bool) (sessionId : SessionId) : Option Live :=
  match s.conn with
  | .handshake => some (if ok then { s with conn := .authenticated } else s.close (.error .transport))
  | .authenticated =>
    match s.revoking with
    | some _ => none
    | none =>
      some (if s.db.isRevoked client then s.close (.error (.revoked ("ClientId(" ++ client.uuid.display ++ ")")))
        else { s with conn := .awaitHello })
  | .awaitHello => if ok then s.recvHello else some (s.close (.error .transport))
  | .sendHelloOk resumed =>
    if ok then
      some { s with
        conn := .subscribe
        sent := s.sent ++ [.helloOk { protocol := protocolVersion, serverInfo := s.serverInfo, sessionId, resumed }] }
    else some (s.close (.error .transport))
  | .subscribe => some { s with conn := .pollWatch s.revocations.subscribe }
  | .pollWatch seen =>
    some { s with
      conn := if s.revocations.changed seen then .recheck s.revocations.version else .pollFrames seen }
  | .recheck seen =>
    match s.revoking with
    | some _ => none
    | none =>
      if s.db.isRevoked client then
        some (close { s with sent := if ok then s.sent ++ [.bye .revoked] else s.sent } (.ok ()))
      else some { s with conn := .pollWatch seen }
  | .pollFrames seen => some (if ok then s.recvFrame client seen else s.close (.error .transport))
  | .handling seen => some (if ok then { s with conn := .pollWatch seen } else s.close (.error .transport))
  | .closed _ => none

/-- `revoke` up to its file write; an id that is revoked already needs none. -/
def revoke (s : Live) (id : ClientId) (written : Bool) : Option Live :=
  match s.revoking with
  | some _ => none
  | none =>
    match s.db.withRevoked id with
    | none => some { s with returned := id :: s.returned }
    | some next => some (if written then { s with revoking := some (.written next id) } else s)

def step (s : Live) : LiveMove → Option Live
  | .revoke id written => s.revoke id written
  | .store =>
    match s.revoking with
    | some (.written next id) => some { s with db := next, revoking := some (.stored id) }
    | _ => none
  | .publish =>
    match s.revoking with
    | some (.stored id) =>
      some { s with
        revocations := s.revocations.announce s.receivers s.db.revoked, revoking := none, returned := id :: s.returned }
    | _ => none
  | .watchRevocations => some { s with others := s.others + 1 }
  | .dropReceiver => if s.others = 0 then none else some { s with others := s.others - 1 }
  | .arrive frame => some { s with inbound := s.inbound ++ [frame] }
  | .conn ok sessionId => s.connStep client ok sessionId

/-! ## The condition -/

/-- The call that revokes the client has stored the set and is still to announce it. -/
def announcing (s : Live) : Bool :=
  match s.revoking with
  | some (.stored id) => id = client
  | _ => false

/-- The revoked set holds the client, and the call that put it there is past its announcement. -/
def Announced (s : Live) : Prop := client ∈ s.db.revoked ∧ s.announcing client = false

/-- The subscription comes before the announcement, and the select takes a frame only while no announcement has come
since it polled the watch. -/
def Noticed (s : Live) : LiveMove → Prop
  | .conn _ _ =>
    match s.conn with
    | .subscribe => ¬s.Announced client
    | .pollFrames seen => s.inbound ≠ [] → s.revocations.changed seen → ¬s.Announced client
    | _ => True
  | _ => True

instance (s : Live) : Decidable (s.Announced client) := inferInstanceAs (Decidable (_ ∧ _))

instance (s : Live) : (move : LiveMove) → Decidable (Noticed client s move)
  | .conn _ _ => by
    unfold Noticed
    cases s.conn <;> infer_instance
  | .revoke _ _ | .store | .publish | .watchRevocations | .dropReceiver | .arrive _ => isTrue trivial

/-- No request was received after `revoke` had returned. -/
def NoLateRequest (s : Live) : Prop := ∀ d ∈ s.dispatched, d.2 = false

/-! ## The invariant -/

/-- What a call of `revoke` has returned for is in memory, and what it holds in between. -/
structure Recorded (s : Live) : Prop where
  returned : ∀ id ∈ s.returned, id ∈ s.db.revoked
  written : ∀ next id, s.revoking = some (.written next id) →
    id ∉ s.db.revoked ∧ next = { s.db with revoked := insertId s.db.revoked id }
  stored : ∀ id, s.revoking = some (.stored id) → id ∈ s.db.revoked ∧ id ∉ s.returned

/-- The announcement of the client that a loop has not seen is waiting at its watch. -/
def Informed (s : Live) : Prop :=
  match s.conn with
  | .pollWatch seen | .pollFrames seen | .handling seen =>
    seen ≤ s.revocations.version ∧ (s.Announced client → s.revocations.changed seen)
  | .recheck seen => seen ≤ s.revocations.version
  | _ => True

variable {client} {s t : Live}

/-- A connection step leaves database, watch and callers alone. -/
theorem connStep_frame {ok : Bool} {sessionId : SessionId} (h : s.connStep client ok sessionId = some t) :
    t.db = s.db ∧ t.revocations = s.revocations ∧ t.revoking = s.revoking ∧ t.returned = s.returned := by
  unfold connStep at h
  cases hconn : s.conn with
  | awaitHello =>
    simp only [hconn] at h
    split at h
    · unfold recvHello at h
      split at h
      · cases h
      · split at h <;> cases h <;> exact ⟨rfl, rfl, rfl, rfl⟩
      · cases h
        exact ⟨rfl, rfl, rfl, rfl⟩
    · cases h
      exact ⟨rfl, rfl, rfl, rfl⟩
  | pollFrames seen =>
    simp only [hconn] at h
    split at h
    · cases h
      unfold recvFrame
      split <;> exact ⟨rfl, rfl, rfl, rfl⟩
    · cases h
      exact ⟨rfl, rfl, rfl, rfl⟩
  | authenticated | recheck seen =>
    simp only [hconn] at h
    split at h
    · cases h
    · split at h <;> cases h <;> exact ⟨rfl, rfl, rfl, rfl⟩
  | handshake | sendHelloOk resumed | handling seen =>
    simp only [hconn] at h
    split at h <;> cases h <;> exact ⟨rfl, rfl, rfl, rfl⟩
  | subscribe | pollWatch seen =>
    simp only [hconn] at h
    cases h
    exact ⟨rfl, rfl, rfl, rfl⟩
  | closed result =>
    simp only [hconn] at h
    cases h

theorem announced_congr (hdb : t.db = s.db) (hlock : t.revoking = s.revoking) :
    t.Announced client ↔ s.Announced client := by
  unfold Announced announcing
  rw [hdb, hlock]

theorem Recorded.congr (h : Recorded s) (hdb : t.db = s.db) (hlock : t.revoking = s.revoking)
    (hret : t.returned = s.returned) : Recorded t where
  returned := by
    rw [hret, hdb]
    exact h.returned
  written := by
    rw [hlock, hdb]
    exact h.written
  stored := by
    rw [hlock, hdb, hret]
    exact h.stored

/-- Who has been told that a client is revoked was told after the announcement. -/
theorem Recorded.announced (h : Recorded s) (hret : client ∈ s.returned) : s.Announced client := by
  refine ⟨h.returned client hret, ?_⟩
  unfold announcing
  split
  · next id hst =>
    refine decide_eq_false fun heq => (h.stored id hst).2 ?_
    rw [heq]
    exact hret
  · rfl

theorem start_recorded (db : DbState) (serverInfo : ServerInfo) : Recorded (start db serverInfo) where
  returned := fun id hid => by cases hid
  written := fun next id h => by cases h
  stored := fun id h => by cases h

theorem revoke_recorded (h : Recorded s) {id : ClientId} {written : Bool} (hs : s.revoke id written = some t) :
    Recorded t := by
  unfold revoke at hs
  split at hs
  · cases hs
  · next hfree =>
    split at hs
    · next hnone =>
      cases hs
      have hid : id ∈ s.db.revoked := by
        by_contra hid
        rw [DbState.withRevoked, if_neg hid] at hnone
        cases hnone
      refine ⟨?_, h.written, fun y hy => ?_⟩
      · intro x hx
        rcases List.mem_cons.mp hx with rfl | hx
        · exact hid
        · exact h.returned x hx
      · rw [show s.revoking = none from hfree] at hy
        cases hy
    · next next hsome =>
      split at hs
      · cases hs
        refine ⟨h.returned, ?_, fun y hy => by cases hy⟩
        intro next' id' heq
        cases heq
        exact DbState.withRevoked_eq_some hsome
      · cases hs
        exact h

/-- **What memory holds of the calls**, after any move. -/
theorem step_recorded (move : LiveMove) (h : Recorded s) (hs : s.step client move = some t) : Recorded t := by
  cases move with
  | revoke id written => exact revoke_recorded h hs
  | store =>
    simp only [step] at hs
    split at hs
    · next next id hw =>
      cases hs
      obtain ⟨hnew, hnext⟩ := h.written next id hw
      have hmem : ∀ x, x ∈ next.revoked ↔ x = id ∨ x ∈ s.db.revoked := fun x => by
        rw [hnext]
        exact mem_insertId
      refine ⟨fun x hx => (hmem x).mpr (Or.inr (h.returned x hx)), (fun next' id' heq => by cases heq), ?_⟩
      intro y hy
      cases hy
      exact ⟨(hmem id).mpr (Or.inl rfl), fun hret => hnew (h.returned id hret)⟩
    · cases hs
  | publish =>
    simp only [step] at hs
    split at hs
    · next id hst =>
      cases hs
      refine ⟨?_, (fun next' id' heq => by cases heq), (fun y hy => by cases hy)⟩
      intro x hx
      rcases List.mem_cons.mp hx with rfl | hx
      · exact (h.stored x hst).1
      · exact h.returned x hx
    · cases hs
  | watchRevocations =>
    cases hs
    exact h.congr rfl rfl rfl
  | dropReceiver =>
    simp only [step] at hs
    split at hs <;> cases hs
    exact h.congr rfl rfl rfl
  | arrive frame =>
    cases hs
    exact h.congr rfl rfl rfl
  | conn ok sessionId =>
    obtain ⟨hdb, -, hlock, hret⟩ := connStep_frame hs
    exact h.congr hdb hlock hret

/-- A connection step keeps the connection informed. -/
theorem connStep_informed (h : s.Informed client) {ok : Bool} {sessionId : SessionId}
    (hc : s.Noticed client (.conn ok sessionId)) (hs : s.connStep client ok sessionId = some t) :
    t.Informed client := by
  unfold Informed at h
  unfold Noticed at hc
  unfold connStep at hs
  cases hconn : s.conn with
  | handshake | sendHelloOk resumed =>
    simp only [hconn] at hs
    split at hs <;> cases hs <;> trivial
  | authenticated =>
    simp only [hconn] at hs
    split at hs
    · cases hs
    · split at hs <;> cases hs <;> trivial
  | awaitHello =>
    simp only [hconn] at hs
    split at hs
    · unfold recvHello at hs
      split at hs
      · cases hs
      · split at hs <;> cases hs <;> trivial
      · cases hs
        trivial
    · cases hs
      trivial
  | subscribe =>
    simp only [hconn] at hs hc
    cases hs
    exact ⟨Nat.le_refl _, fun ha => absurd ((announced_congr rfl rfl).mp ha) hc⟩
  | pollWatch seen =>
    simp only [hconn] at hs h
    cases hs
    by_cases hch : s.revocations.changed seen
    · simp only [if_pos hch]
      exact Nat.le_refl _
    · simp only [if_neg hch]
      exact h
  | pollFrames seen =>
    simp only [hconn] at hs h
    split at hs
    · cases hs
      unfold recvFrame
      split <;> first | exact h | trivial
    · cases hs
      trivial
  | recheck seen =>
    simp only [hconn] at hs h
    split at hs
    · cases hs
    · split at hs
      · cases hs
        trivial
      · next hnot =>
        -- The check has just found the client not revoked.
        cases hs
        refine ⟨h, fun ha => absurd ha.1 ?_⟩
        simpa [DbState.isRevoked] using hnot
  | handling seen =>
    simp only [hconn] at hs h
    split at hs
    · cases hs
      exact h
    · cases hs
      trivial
  | closed result =>
    simp only [hconn] at hs
    cases hs

/-- A connection that watches stays informed as long as no announcement comes past its watch. -/
theorem Informed.mono (h : s.Informed client) (hconn : t.conn = s.conn)
    (hversion : s.revocations.version ≤ t.revocations.version)
    (hnews : s.conn.watches = true → ∀ seen ≤ s.revocations.version, (s.Announced client → s.revocations.changed seen) →
      t.Announced client → t.revocations.changed seen) : t.Informed client := by
  unfold Informed at h ⊢
  rw [hconn]
  cases hphase : s.conn with
  | pollWatch seen | pollFrames seen | handling seen =>
    simp only [hphase] at h ⊢
    exact ⟨Nat.le_trans h.1 hversion, hnews (by rw [hphase]; rfl) seen h.1 h.2⟩
  | recheck seen =>
    simp only [hphase] at h ⊢
    exact Nat.le_trans h hversion
  | _ => trivial

/-- A call of `revoke` that begins announces nothing. -/
theorem revoke_announced (client : ClientId) {id : ClientId} {written : Bool} (hs : s.revoke id written = some t) :
    t.conn = s.conn ∧ t.revocations = s.revocations ∧ (t.Announced client → s.Announced client) := by
  unfold revoke at hs
  split at hs
  · cases hs
  · next hfree =>
    split at hs
    · cases hs
      exact ⟨rfl, rfl, (announced_congr rfl rfl).mp⟩
    · split at hs
      · cases hs
        refine ⟨rfl, rfl, fun ha => ⟨ha.1, ?_⟩⟩
        unfold announcing
        rw [hfree]
      · cases hs
        exact ⟨rfl, rfl, fun ha => ha⟩

/-- **News stays waiting**, after any move. -/
theorem step_informed (move : LiveMove) (hp : Recorded s) (h : s.Informed client) (hc : s.Noticed client move)
    (hs : s.step client move = some t) : t.Informed client := by
  cases move with
  | revoke id written =>
    obtain ⟨hconn, hrev, ha⟩ := revoke_announced client hs
    refine h.mono hconn (Nat.le_of_eq (by rw [hrev])) fun _ seen _ hwait hnow => ?_
    rw [hrev]
    exact hwait (ha hnow)
  | store =>
    simp only [step] at hs
    split at hs
    · next next id hw =>
      cases hs
      refine h.mono rfl (Nat.le_refl _) fun _ seen _ hwait hnow => hwait ⟨?_, ?_⟩
      · -- It is another client that the call revokes.
        have hne : id ≠ client := of_decide_eq_false hnow.2
        have hmem : client ∈ next.revoked := hnow.1
        rw [(hp.written next id hw).2] at hmem
        exact (mem_insertId.mp hmem).resolve_left hne.symm
      · unfold announcing
        rw [hw]
    · cases hs
  | publish =>
    simp only [step] at hs
    split at hs
    · cases hs
      refine h.mono rfl (Watch.version_le_announce _ _ _) fun hwatches seen hseen _ _ => ?_
      have hpos : 0 < s.receivers := by
        unfold receivers
        rw [hwatches]
        exact Nat.succ_pos _
      show (s.revocations.announce s.receivers s.db.revoked).changed seen
      rw [Watch.announce_of_pos _ hpos]
      exact Watch.changed_send hseen _
    · cases hs
  | watchRevocations =>
    cases hs
    exact h
  | dropReceiver =>
    simp only [step] at hs
    split at hs <;> cases hs
    exact h
  | arrive frame =>
    cases hs
    exact h
  | conn ok sessionId => exact connStep_informed h hc hs

/-- The requests a step dispatches. -/
theorem step_dispatched (move : LiveMove) (hs : s.step client move = some t) :
    t.dispatched = s.dispatched ∨ ∃ seen request rest ok sessionId, move = .conn ok sessionId ∧
      s.conn = .pollFrames seen ∧ s.inbound = .request request :: rest ∧
      t.dispatched = s.dispatched ++ [(request, decide (client ∈ s.returned))] := by
  cases move with
  | revoke id written =>
    simp only [step, revoke] at hs
    split at hs
    · cases hs
    · split at hs
      · cases hs
        exact Or.inl rfl
      · split at hs <;> cases hs <;> exact Or.inl rfl
  | store | publish | dropReceiver =>
    simp only [step] at hs
    split at hs <;> cases hs
    exact Or.inl rfl
  | watchRevocations | arrive frame =>
    cases hs
    exact Or.inl rfl
  | conn ok sessionId =>
    simp only [step, connStep] at hs
    cases hconn : s.conn with
    | pollFrames seen =>
      simp only [hconn] at hs
      split at hs
      · cases hs
        unfold recvFrame
        split
        · exact Or.inl rfl
        · next request rest hin => exact Or.inr ⟨seen, request, rest, ok, sessionId, rfl, rfl, hin, rfl⟩
        · exact Or.inl rfl
        · exact Or.inl rfl
        · exact Or.inl rfl
      · cases hs
        exact Or.inl rfl
    | awaitHello =>
      simp only [hconn] at hs
      split at hs
      · unfold recvHello at hs
        split at hs
        · cases hs
        · split at hs <;> cases hs <;> exact Or.inl rfl
        · cases hs
          exact Or.inl rfl
      · cases hs
        exact Or.inl rfl
    | authenticated | recheck seen =>
      simp only [hconn] at hs
      split at hs
      · cases hs
      · split at hs <;> cases hs <;> exact Or.inl rfl
    | handshake | sendHelloOk resumed | handling seen =>
      simp only [hconn] at hs
      split at hs <;> cases hs <;> exact Or.inl rfl
    | subscribe | pollWatch seen =>
      simp only [hconn] at hs
      cases hs
      exact Or.inl rfl
    | closed result =>
      simp only [hconn] at hs
      cases hs

theorem step_noLateRequest (move : LiveMove) (hp : Recorded s) (hi : s.Informed client) (h : s.NoLateRequest)
    (hc : s.Noticed client move) (hs : s.step client move = some t) : t.NoLateRequest := by
  rcases step_dispatched move hs with he | ⟨seen, request, rest, ok, sessionId, rfl, hconn, hin, he⟩
  · unfold NoLateRequest
    rw [he]
    exact h
  · unfold Informed at hi
    unfold Noticed at hc
    simp only [hconn] at hi hc
    have hnot : ¬s.Announced client := fun ha => hc (by rw [hin]; exact List.cons_ne_nil _ _) (hi.2 ha) ha
    have hret : client ∉ s.returned := fun hm => hnot (hp.announced hm)
    unfold NoLateRequest
    rw [he]
    intro d hd
    rcases List.mem_append.mp hd with hd | hd
    · exact h d hd
    · rw [List.mem_singleton.mp hd]
      exact decide_eq_false hret

/-- **Revocation reaches the session** in every run that meets the condition: no request received after `revoke` has
returned is dispatched. -/
theorem no_request_after_revoke (client : ClientId) (db : DbState) (serverInfo : ServerInfo) (moves : List LiveMove)
    (hc : Steps.Meets (step client) (Noticed client) (start db serverInfo) moves)
    (hr : Steps.run (step client) (start db serverInfo) moves = some s) : s.NoLateRequest := by
  have h := Steps.run_invariant (I := fun s => Recorded s ∧ s.Informed client ∧ s.NoLateRequest)
    (fun s move t h hc hs => ⟨step_recorded move h.1 hs, step_informed move h.1 h.2.1 hc hs,
      step_noLateRequest move h.1 h.2.1 h.2.2 hc hs⟩)
    hc hr ⟨start_recorded db serverInfo, trivial, fun d hd => by cases hd⟩
  exact h.2.2

/-- A loop that is informed says goodbye at its next turn once `revoke` has returned. -/
theorem revoked_session_ends (hp : Recorded s) (hi : s.Informed client) {seen : Nat} (hconn : s.conn = .pollWatch seen)
    (hret : client ∈ s.returned) (hfree : s.revoking = none) (sessionId : SessionId) :
    ∃ t, Steps.run (step client) s [.conn true sessionId, .conn true sessionId] = some t ∧
      t.conn = .closed (.ok ()) ∧ t.sent = s.sent ++ [.bye .revoked] ∧ t.dispatched = s.dispatched := by
  have hrevoked : s.db.isRevoked client = true := decide_eq_true (hp.returned client hret)
  unfold Informed at hi
  simp only [hconn] at hi
  have hchanged := hi.2 (hp.announced hret)
  refine ⟨{ s with conn := .closed (.ok ()), sent := s.sent ++ [.bye .revoked] }, ?_, rfl, rfl, rfl⟩
  simp [Steps.run, step, connStep, hconn, hchanged, hfree, hrevoked, close]

/-! ## Two runs -/

def sampleSession : SessionId := ⟨.splat 7⟩

def sampleHello : FrameBody := .hello { protocolMin := 1, protocolMax := 1, resume := none }

/-- A request is served, then the client is revoked and the next request is not. -/
def sampleMoves : List LiveMove :=
  [.conn true sampleSession, .conn true sampleSession, .arrive sampleHello, .conn true sampleSession,
    .conn true sampleSession, .conn true sampleSession, .arrive (.request { id := 1, body := .listTerminals }),
    .conn true sampleSession, .conn true sampleSession, .conn true sampleSession, .revoke ⟨.splat 9⟩ true, .store,
    .publish, .arrive (.request { id := 2, body := .listTerminals }), .conn true sampleSession,
    .conn true sampleSession]

theorem no_request_after_revoke_sample :
    ∃ s, Steps.run (step ⟨.splat 9⟩) (start {} { serverVersion := "1", serverLabel := none }) sampleMoves = some s ∧
      s.NoLateRequest := by
  refine ⟨_, rfl, no_request_after_revoke ⟨.splat 9⟩ {} { serverVersion := "1", serverLabel := none } sampleMoves ?_ rfl⟩
  decide

/-- The client is revoked between the check of the handshake and the subscription: the loop never hears of it. -/
theorem request_after_revoke :
    ¬∀ (client : ClientId) (db : DbState) (serverInfo : ServerInfo) (moves : List LiveMove) (s : Live),
      Steps.run (step client) (start db serverInfo) moves = some s → s.NoLateRequest := by
  intro h
  have hlate := h ⟨.splat 9⟩ {} { serverVersion := "1", serverLabel := none }
    [.conn true sampleSession, .conn true sampleSession, .revoke ⟨.splat 9⟩ true, .store, .publish, .arrive sampleHello,
      .conn true sampleSession, .conn true sampleSession, .conn true sampleSession,
      .arrive (.request { id := 1, body := .listTerminals }), .conn true sampleSession, .conn true sampleSession] _ rfl
  have hflag := hlate ({ id := 1, body := .listTerminals }, true) List.mem_cons_self
  cases hflag

/-- **The subscription is too late**: a client whose `revoke` has returned by then is served like any other. -/
theorem late_subscription_serves {request : RequestFrame} (hconn : s.conn = .subscribe)
    (hret : client ∈ s.returned) (hin : s.inbound = []) (sessionId : SessionId) :
    ∃ t, Steps.run (step client) s [.conn true sessionId, .arrive (.request request), .conn true sessionId,
        .conn true sessionId] = some t ∧ ¬t.NoLateRequest := by
  refine ⟨{ s with
    inbound := [], conn := .handling s.revocations.version, dispatched := s.dispatched ++ [(request, true)] }, ?_, ?_⟩
  · simp [Steps.run, step, connStep, hconn, hin, hret, Watch.subscribe, Watch.changed, recvFrame]
  · intro h
    have hlate := h (request, true) (List.mem_append_right _ List.mem_cons_self)
    cases hlate

end Live

end CliPocket
