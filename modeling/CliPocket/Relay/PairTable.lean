import CliPocket.Relay.WorkerIsolation
import Mathlib.Data.List.Forall2
import Mathlib.Data.List.Perm.Subperm

/-!
# The pair table of the Cloudflare relay and its sockets

The table is in the object's memory, what a socket has been told is in its attachment; each handler keeps the two
together for its own part. Two things do not: the construction of the object, and the error handler.

- `Hosted.step`: the handlers of one object, errors and re-construction included;
- `Hosted.TableMatches`: what the table and the sockets have to do with each other, and what follows from it;
- `table_matches`: **it holds in every run in which the object is not built anew while a client with a pair is open,
  and no client fails whose pair is in the table.**
-/

namespace CliPocket

namespace Worker

/-- The pair that the attachment of a client names. -/
def Socket.pair (ws : Socket) : Option PairId :=
  match ws.who with
  | .client pairId => pairId
  | _ => none

/-- An object, and the sockets whose error the runtime has delivered. -/
structure Hosted where
  session : RelaySession
  failed : List SocketId := []

namespace Hosted

inductive Move
  | fetch (role : SocketRole) (server : Option ServerId) (authorized : Bool) (now : Nat)
  | message (socket : SocketId) (message : Message) (now : Nat) (newPairId : PairId)
  | close (socket : SocketId)
  | error (socket : SocketId)
  | sweep (now : Nat)
  | reconstruct

/-- An identifier that no client has had: `randomPairId`. -/
def Fresh (s : RelaySession) (pairId : PairId) : Prop := ∀ ws ∈ s.sockets, ws.pair ≠ some pairId

instance (s : RelaySession) (pairId : PairId) : Decidable (Fresh s pairId) :=
  inferInstanceAs (Decidable (∀ ws ∈ s.sockets, ws.pair ≠ some pairId))

/-- `webSocketError` writes a line to the log. -/
def webSocketError (h : Hosted) (i : SocketId) : Hosted := { h with failed := i :: h.failed }

def step (h : Hosted) : Move → Option Hosted
  | .fetch role server authorized now => some { h with session := h.session.fetch role server authorized now }
  | .message i message now newPairId =>
    match h.session.sockets[i]? with
    | none => none
    | some ws =>
      if ws.gone ∨ i ∈ h.failed ∨ ¬Fresh h.session newPairId then none
      else some { h with session := h.session.webSocketMessage i message now newPairId }
  | .close i =>
    match h.session.sockets[i]? with
    | none => none
    | some ws => if ws.gone then none else some { h with session := h.session.webSocketClose i }
  | .error i =>
    match h.session.sockets[i]? with
    | none => none
    | some ws => if ws.gone ∨ i ∈ h.failed then none else some (h.webSocketError i)
  | .sweep now => some { h with session := h.session.sweepIdlePairs now }
  | .reconstruct => some { h with session := { h.session with pairs := ∅ } }

/-! ## What has to hold -/

/-- The runtime has delivered neither the close of the client nor an error of it. -/
def Live (h : Hosted) (i : SocketId) (ws : Socket) : Prop := ws.tag = .client ∧ ws.gone = false ∧ i ∉ h.failed

instance (h : Hosted) (i : SocketId) (ws : Socket) : Decidable (h.Live i ws) :=
  inferInstanceAs (Decidable (_ ∧ _))

def liveClients (h : Hosted) : Nat :=
  (List.range h.session.sockets.length).countP fun i => h.session.sockets[i]?.any fun ws => decide (h.Live i ws)

/-- The answer to a client whose pair is not in the table. -/
def unknownPairId : Outgoing := .close 1008 "Unknown pair id"

structure TableMatches (h : Hosted) : Prop where
  /-- Every open client that has a pair has its entry. -/
  entry : ∀ (i : SocketId) (ws : Socket) (p : PairId), h.session.sockets[i]? = some ws → ws.isOpen = true →
    ws.pair = some p → (h.session.pairs.lookup p).isSome
  /-- Every entry belongs to a client that is live. -/
  owner : ∀ p, (h.session.pairs.lookup p).isSome → ∃ i ws, h.session.sockets[i]? = some ws ∧ ws.pair = some p ∧
    h.Live i ws
  /-- An open client that has a pair is never told that it is not known. -/
  known : ∀ (i : SocketId) (ws ws' : Socket) (p : PairId) (message : Message) (now : Nat) (newPairId : PairId),
    h.session.sockets[i]? = some ws → ws.isOpen = true → ws.pair = some p →
    (h.session.webSocketMessage i message now newPairId).sockets[i]? = some ws' →
      ws'.out.count unknownPairId = ws.out.count unknownPairId
  /-- Data of a server for a pair with an open client is never answered with `ClientGone`. -/
  present : ∀ (i j : SocketId) (server server' client : Socket) (p : PairId) (bytes payload frame : List UInt8)
    (now : Nat) (newPairId : PairId), h.session.sockets[i]? = some server → server.who = .server →
    h.session.sockets[j]? = some client → client.isOpen = true → client.pair = some p →
    decodeRelay bytes = .ok (.dataForward p payload) → encodeRelay (.pairClose p .clientGone) = .ok frame →
    (h.session.webSocketMessage i (.binary bytes) now newPairId).sockets[i]? = some server' →
      server'.out.count (.binary frame) = server.out.count (.binary frame)
  /-- No dead pair counts. -/
  counted : h.session.pairs.entries.length ≤ h.liveClients

/-- The object is not built anew while a client with a pair is open, and no client fails whose pair is in the table. -/
def Spared (h : Hosted) : Move → Prop
  | .error i => ∀ ws ∈ h.session.sockets[i]?, ∀ p ∈ ws.pair, h.session.pairs.lookup p = none
  | .reconstruct => ∀ ws ∈ h.session.sockets, ws.isOpen = true → ws.pair = none
  | _ => True

end Hosted

/-! ## Sockets one by one -/

section Each

variable {R : Socket → Socket → Prop} {s t u : RelaySession} {f : Socket → Socket}

/-- Each socket is related to what it was. -/
def Each (R : Socket → Socket → Prop) (s t : RelaySession) : Prop := List.Forall₂ R s.sockets t.sockets

theorem forall₂_modify {α : Type} {R : α → α → Prop} {f : α → α} (hrefl : ∀ a, R a a) : ∀ {l : List α} {i : Nat},
    (∀ a, l[i]? = some a → R a (f a)) → List.Forall₂ R l (l.modify i f)
  | [], i, _ => by
    rw [List.modify_nil]
    exact .nil
  | a :: l, 0, hf => by
    rw [List.modify_zero_cons]
    exact .cons (hf a rfl) (List.forall₂_same.mpr fun b _ => hrefl b)
  | a :: l, i + 1, hf => by
    rw [List.modify_succ_cons]
    exact .cons (hrefl a) (forall₂_modify hrefl fun b hb => hf b hb)

theorem forall₂_trans {α : Type} {R : α → α → Prop} (htrans : ∀ a b c, R a b → R b c → R a c) :
    ∀ {l m n : List α}, List.Forall₂ R l m → List.Forall₂ R m n → List.Forall₂ R l n
  | [], [], [], .nil, .nil => .nil
  | _ :: _, _ :: _, _ :: _, .cons h h', .cons g g' => .cons (htrans _ _ _ h g) (forall₂_trans htrans h' g')

theorem Each.mapSocket (hrefl : ∀ ws, R ws ws) {i : SocketId} (hf : ∀ ws, s.sockets[i]? = some ws → R ws (f ws)) :
    Each R s (s.mapSocket i f) := forall₂_modify hrefl hf

theorem Each.map (hf : ∀ ws, R ws (f ws)) : Each R s { s with sockets := s.sockets.map f } :=
  List.forall₂_map_right_iff.mpr (List.forall₂_same.mpr fun ws _ => hf ws)

theorem Each.forth (h : Each R s t) {i : SocketId} {ws : Socket} (hi : s.sockets[i]? = some ws) :
    ∃ ws', t.sockets[i]? = some ws' ∧ R ws ws' := by
  obtain ⟨hlt, rfl⟩ := List.getElem?_eq_some_iff.mp hi
  have hlt' : i < t.sockets.length := (List.Forall₂.length_eq h) ▸ hlt
  exact ⟨t.sockets[i], List.getElem?_eq_getElem hlt', List.Forall₂.get h hlt hlt'⟩

theorem Each.back (h : Each R s t) {i : SocketId} {ws' : Socket} (hi : t.sockets[i]? = some ws') :
    ∃ ws, s.sockets[i]? = some ws ∧ R ws ws' := by
  obtain ⟨hlt', rfl⟩ := List.getElem?_eq_some_iff.mp hi
  have hlt : i < s.sockets.length := (List.Forall₂.length_eq h) ▸ hlt'
  exact ⟨s.sockets[i], List.getElem?_eq_getElem hlt, List.Forall₂.get h hlt hlt'⟩

/-- `closePair`, socket by socket: clients of the pair are told and closed, and a server may be told. -/
theorem Each.closePair (hrefl : ∀ ws, R ws ws) (htrans : ∀ a b c, R a b → R b c → R a c) {p : PairId}
    {reason : CloseReason}
    (hclient : ∀ ws, ws.isClientOf p = true → R ws ((ws.send (.pairClose p reason)).close 1000 (typeOf reason)))
    (hserver : ∀ ws : Socket, ws.who = .server → R ws (ws.send (.pairClose p reason))) :
    Each R s (s.closePair p reason) := by
  have hdrop : Each R s (s.dropPair p reason) := by
    refine Each.map fun ws => ?_
    split
    · next hof => exact hclient ws hof
    · exact hrefl ws
  unfold RelaySession.closePair
  dsimp only
  split
  · exact hdrop
  · split
    · exact hdrop
    · next server hfound =>
      refine forall₂_trans htrans hdrop (Each.mapSocket hrefl fun ws hws => ?_)
      exact hserver ws (who_of_findRegisteredServer hfound hws)

end Each

/-! ## What the handlers keep -/

/-- The socket is what it was, and has at most been closed by the object. -/
structure SameSocket (ws ws' : Socket) : Prop where
  who : ws'.who = ws.who
  tag : ws'.tag = ws.tag
  gone : ws'.gone = ws.gone
  isOpen : ws'.isOpen = true → ws.isOpen = true

namespace SameSocket

variable {ws : Socket}

theorem refl (ws : Socket) : SameSocket ws ws := ⟨rfl, rfl, rfl, id⟩

theorem trans (a b c : Socket) (h : SameSocket a b) (h' : SameSocket b c) : SameSocket a c :=
  ⟨h'.who.trans h.who, h'.tag.trans h.tag, h'.gone.trans h.gone, fun hc => h.isOpen (h'.isOpen hc)⟩

theorem push (ws : Socket) (message : Outgoing) : SameSocket ws (ws.push message) := by
  refine ⟨who_eq_of_attachment (Socket.attachment_push ..), ?_, ?_, ?_⟩
  · unfold Socket.push
    split <;> rfl
  · unfold Socket.push
    split <;> rfl
  · unfold Socket.push
    split
    · exact id
    · exact id

theorem send (ws : Socket) (message : RelayMessage) : SameSocket ws (ws.send message) := by
  unfold Socket.send
  split
  · exact push ..
  · exact refl ws

theorem close (ws : Socket) (code : Nat) (reason : String) : SameSocket ws (ws.close code reason) := by
  refine ⟨who_eq_of_attachment (Socket.attachment_close ..), ?_, ?_, ?_⟩
  · unfold Socket.close
    split <;> rfl
  · unfold Socket.close
    split <;> rfl
  · unfold Socket.close
    split
    · intro h
      cases h
    · exact id

theorem sendClose (ws : Socket) (message : RelayMessage) (code : Nat) (reason : String) :
    SameSocket ws ((ws.send message).close code reason) := trans _ _ _ (send ..) (close ..)

theorem touch (ws : Socket) (now : Nat) : SameSocket ws (ws.touch now) := by
  refine ⟨?_, rfl, rfl, id⟩
  unfold Socket.who Socket.touch
  cases ws.attachment with
  | none => rfl
  | some attachment => cases attachment <;> rfl

theorem pair {ws' : Socket} (h : SameSocket ws ws') : ws'.pair = ws.pair := by
  unfold Socket.pair
  rw [h.who]

end SameSocket

namespace Hosted

/-- The table against the sockets, and what the handlers need of the sockets for it. -/
structure Matched (h : Hosted) : Prop where
  entry : ∀ (i : SocketId) (ws : Socket) (p : PairId), h.session.sockets[i]? = some ws → ws.isOpen = true →
    ws.pair = some p → (h.session.pairs.lookup p).isSome
  owner : ∀ p, (h.session.pairs.lookup p).isSome → ∃ i ws, h.session.sockets[i]? = some ws ∧ ws.pair = some p ∧
    h.Live i ws
  tag : ∀ (i : SocketId) (ws : Socket) (p : Option PairId), h.session.sockets[i]? = some ws → ws.who = .client p →
    ws.tag = .client
  gone : ∀ (i : SocketId) (ws : Socket), h.session.sockets[i]? = some ws → ws.isOpen = true → ws.gone = false
  unique : ∀ (i j : SocketId) (ws ws' : Socket) (p : PairId), h.session.sockets[i]? = some ws →
    h.session.sockets[j]? = some ws' → ws.pair = some p → ws'.pair = some p → i = j

variable {s t : RelaySession} {failed : List SocketId} {i : SocketId}

theorem who_of_pair {ws : Socket} {p : PairId} (h : ws.pair = some p) : ws.who = .client (some p) := by
  unfold Socket.pair at h
  split at h
  · next hwho => rw [hwho, h]
  · cases h

theorem matched_init (limits : RelayLimits) : Matched { session := { limits } } where
  entry i ws p hi := by cases hi
  owner p hp := by cases hp
  tag i ws p hi := by cases hi
  gone i ws hi := by cases hi
  unique i j ws ws' p hi := by cases hi

/-- Sockets that are what they were, against a table with the same pairs, or with those of all but closed clients. -/
theorem Matched.each (h : Matched ⟨s, failed⟩) (hsame : Each SameSocket s t)
    (hentry : ∀ (i : SocketId) (ws : Socket) (p : PairId), t.sockets[i]? = some ws → ws.isOpen = true → ws.pair = some p →
      (s.pairs.lookup p).isSome → (t.pairs.lookup p).isSome)
    (howner : ∀ p, (t.pairs.lookup p).isSome → (s.pairs.lookup p).isSome) : Matched ⟨t, failed⟩ where
  entry i ws' p hi hopen hp := by
    obtain ⟨ws, hws, hold⟩ := hsame.back hi
    exact hentry i ws' p hi hopen hp (h.entry i ws p hws (hold.isOpen hopen) (hold.pair.symm.trans hp))
  owner p hp := by
    obtain ⟨i, ws, hi, hpair, htag, hgone, hfailed⟩ := h.owner p (howner p hp)
    obtain ⟨ws', hi', hnew⟩ := hsame.forth hi
    exact ⟨i, ws', hi', hnew.pair.trans hpair, hnew.tag.trans htag, hnew.gone.trans hgone, hfailed⟩
  tag i ws' p hi hwho := by
    obtain ⟨ws, hws, hold⟩ := hsame.back hi
    exact hold.tag.trans (h.tag i ws p hws (hold.who.symm.trans hwho))
  gone i ws' hi hopen := by
    obtain ⟨ws, hws, hold⟩ := hsame.back hi
    exact hold.gone.trans (h.gone i ws hws (hold.isOpen hopen))
  unique i j ws ws' p hi hj hp hp' := by
    obtain ⟨a, ha, hold⟩ := hsame.back hi
    obtain ⟨b, hb, hold'⟩ := hsame.back hj
    exact h.unique i j a b p ha hb (hold.pair.symm.trans hp) (hold'.pair.symm.trans hp')

theorem Matched.same (h : Matched ⟨s, failed⟩) (hsame : Each SameSocket s t) (hpairs : t.pairs = s.pairs) :
    Matched ⟨t, failed⟩ :=
  h.each hsame (fun _ _ _ _ _ _ hp => hpairs ▸ hp) fun _ hp => hpairs ▸ hp

theorem Matched.mapSocket (h : Matched ⟨s, failed⟩) (i : SocketId) {f : Socket → Socket}
    (hf : ∀ ws, SameSocket ws (f ws)) : Matched ⟨s.mapSocket i f, failed⟩ :=
  h.same (Each.mapSocket SameSocket.refl fun ws _ => hf ws) rfl

/-- A pair that is in the table is put back. -/
theorem Matched.insert (h : Matched ⟨s, failed⟩) {p : PairId} (pair : PairState) (hp : (s.pairs.lookup p).isSome) :
    Matched ⟨{ s with pairs := s.pairs.insert p pair }, failed⟩ := by
  have hsame : ∀ q, ((s.pairs.insert p pair).lookup q).isSome = (s.pairs.lookup q).isSome := by
    intro q
    by_cases hq : q = p
    · subst hq
      rw [AList.lookup_insert, hp]
      rfl
    · rw [AList.lookup_insert_ne hq]
  refine h.each (List.forall₂_same.mpr fun ws _ => SameSocket.refl ws) ?_ ?_
  · intro _ _ q _ _ _ hq
    exact (hsame q).trans hq
  · intro q hq
    exact (hsame q).symm.trans hq

theorem isOpen_close (ws : Socket) (code : Nat) (reason : String) : (ws.close code reason).isOpen = false := by
  unfold Socket.close
  cases hopen : ws.isOpen with
  | true => rfl
  | false => simpa using hopen

/-- `closePair` closes the clients of the pair. -/
theorem isOpen_closePair {p : PairId} {reason : CloseReason} {ws ws' : Socket} (hi : s.sockets[i]? = some ws)
    (hof : ws.isClientOf p = true) (hi' : (s.closePair p reason).sockets[i]? = some ws') : ws'.isOpen = false := by
  have hdrop := getElem?_dropPair hi p reason
  rw [if_pos hof] at hdrop
  have hafter : Each (fun ws ws' => ws'.isOpen = ws.isOpen) (s.dropPair p reason) (s.closePair p reason) := by
    have hrefl : Each (fun ws ws' => ws'.isOpen = ws.isOpen) (s.dropPair p reason) (s.dropPair p reason) :=
      List.forall₂_same.mpr fun _ _ => rfl
    unfold RelaySession.closePair
    dsimp only
    split
    · exact hrefl
    · split
      · exact hrefl
      · exact Each.mapSocket (R := fun ws ws' => ws'.isOpen = ws.isOpen) (fun _ => rfl) fun ws _ => Socket.isOpen_send ..
  obtain ⟨mid, hmid, hsame⟩ := hafter.back hi'
  cases hmid.symm.trans hdrop
  rw [hsame]
  exact isOpen_close ..

/-- `closePair` takes the entry and closes the clients of the pair. -/
theorem Matched.closePair (h : Matched ⟨s, failed⟩) (p : PairId) (reason : CloseReason) :
    Matched ⟨s.closePair p reason, failed⟩ := by
  have hsame : Each SameSocket s (s.closePair p reason) :=
    Each.closePair SameSocket.refl SameSocket.trans (fun ws _ => .sendClose ..) (fun ws _ => .send ..)
  refine h.each hsame ?_ ?_
  · intro i ws' q hi hopen hq hsome
    rw [pairs_closePair]
    by_cases hqp : q = p
    · subst hqp
      obtain ⟨ws, hws, hold⟩ := hsame.back hi
      have hwho := who_of_pair (hold.pair.symm.trans hq)
      have hof : ws.isClientOf q = true := by
        have htag := h.tag i ws _ hws hwho
        have hgone := h.gone i ws hws (hold.isOpen hopen)
        unfold Socket.who at hwho
        unfold Socket.isClientOf
        split at hwho
        · cases hwho
        · next hattachment =>
          cases hwho
          simp [htag, hgone, hattachment]
        · cases hwho
      rw [isOpen_closePair hws hof hi] at hopen
      cases hopen
    · rw [AList.lookup_erase_ne hqp]
      exact hsome
  · intro q hq
    rw [pairs_closePair] at hq
    by_cases hqp : q = p
    · subst hqp
      rw [AList.lookup_erase] at hq
      cases hq
    · rwa [AList.lookup_erase_ne hqp] at hq

theorem Matched.sweepIdlePairs (h : Matched ⟨s, failed⟩) (now : Nat) : Matched ⟨s.sweepIdlePairs now, failed⟩ := by
  unfold RelaySession.sweepIdlePairs
  generalize s.pairs.entries.filter _ = stuck
  induction stuck generalizing s with
  | nil => exact h
  | cons entry stuck ih => exact ih (h.closePair entry.1 .stuck)

theorem Matched.refuse (h : Matched ⟨s, failed⟩) (i : SocketId) (reason : String) :
    Matched ⟨s.refuse i reason, failed⟩ := h.mapSocket i fun _ => .sendClose ..

theorem Matched.registerServer (h : Matched ⟨s, failed⟩) {expected : Option ServerId} {connectedAt now : Nat}
    {decoded : RelayMessage} (hserver : ∀ ws, s.sockets[i]? = some ws → ws.who = .server) :
    Matched ⟨s.registerServer i expected connectedAt decoded now, failed⟩ := by
  unfold RelaySession.registerServer
  split
  · next serverId =>
    split
    · exact h.refuse i _
    · split
      · exact h.refuse i _
      · split
        · exact h.refuse i _
        · refine h.same (Each.mapSocket SameSocket.refl fun ws hws => ?_) rfl
          refine SameSocket.trans _ _ _ ?_ (.send ..)
          exact ⟨(hserver ws hws).symm, rfl, rfl, id⟩
  · exact h.mapSocket i fun ws => .close ..

theorem Matched.serverFrame (h : Matched ⟨s, failed⟩) (decoded : RelayMessage) (now : Nat) :
    Matched ⟨s.serverFrame i decoded now, failed⟩ := by
  have htouched := h.mapSocket i fun ws => SameSocket.touch ws now
  unfold RelaySession.serverFrame
  dsimp only
  split
  · exact htouched
  · exact htouched.closePair ..
  · next p bytes =>
    split
    · exact htouched.mapSocket i fun ws => .send ..
    · next pair hpair =>
      have hsome : ((s.mapSocket i fun ws => ws.touch now).pairs.lookup p).isSome := by simp [hpair]
      split
      · exact (htouched.insert _ hsome).closePair ..
      · refine (htouched.insert _ hsome).same (Each.map fun ws => ?_) rfl
        split
        · exact .trans _ _ _ (.touch ..) (.push ..)
        · exact .refl ws
  · exact htouched.mapSocket i fun ws => .close ..

/-- A client that has been told of no pair gets a fresh one. -/
theorem Matched.connected (h : Matched ⟨s, failed⟩) {ws : Socket} (hi : s.sockets[i]? = some ws)
    (hgone : ws.gone = false) (hfailed : i ∉ failed) (hwho : ws.who = .client none) {p : PairId} (hfresh : Fresh s p)
    (pair : PairState) (target : ServerId) (connectedAt now : Nat) :
    Matched ⟨{ s with pairs := s.pairs.insert p pair }.mapSocket i fun ws =>
      { ws with attachment := some (.client target (some p) connectedAt now) }, failed⟩ := by
  have hnone : ws.pair = none := by
    unfold Socket.pair
    rw [hwho]
  -- the sockets behind it: the client with its pair, and the others
  have hcases : ∀ {j : SocketId} {ws' : Socket}, ({ s with pairs := s.pairs.insert p pair }.mapSocket i fun ws =>
      { ws with attachment := some (.client target (some p) connectedAt now) }).sockets[j]? = some ws' →
      (j = i ∧ ws' = { ws with attachment := some (.client target (some p) connectedAt now) }) ∨
        (j ≠ i ∧ s.sockets[j]? = some ws') := by
    intro j ws' hj
    simp only [RelaySession.mapSocket, List.getElem?_modify, Option.map_eq_map, Option.map_eq_some_iff] at hj
    obtain ⟨old, hold, rfl⟩ := hj
    split
    · next heq =>
      subst heq
      cases hold.symm.trans hi
      exact .inl ⟨rfl, rfl⟩
    · next hne => exact .inr ⟨fun heq => hne heq.symm, hold⟩
  have hself : ({ s with pairs := s.pairs.insert p pair }.mapSocket i fun ws =>
      { ws with attachment := some (.client target (some p) connectedAt now) }).sockets[i]? =
      some { ws with attachment := some (.client target (some p) connectedAt now) } := by
    simp [RelaySession.mapSocket, hi]
  have hother : ∀ {j : SocketId} {old : Socket}, j ≠ i → s.sockets[j]? = some old →
      ({ s with pairs := s.pairs.insert p pair }.mapSocket i fun ws =>
        { ws with attachment := some (.client target (some p) connectedAt now) }).sockets[j]? = some old := by
    intro j old hne hold
    simp only [RelaySession.mapSocket]
    rw [List.getElem?_modify_ne _ _ hne.symm, hold]
  constructor
  · intro j ws' q hj hopen hq
    show ((s.pairs.insert p pair).lookup q).isSome
    rcases hcases hj with ⟨_, rfl⟩ | ⟨_, hold⟩
    · cases hq
      rw [AList.lookup_insert]
      rfl
    · by_cases hqp : q = p
      · rw [hqp, AList.lookup_insert]
        rfl
      · rw [AList.lookup_insert_ne hqp]
        exact h.entry j ws' q hold hopen hq
  · intro q hq
    by_cases hqp : q = p
    · subst hqp
      exact ⟨i, _, hself, rfl, h.tag i ws none hi hwho, hgone, hfailed⟩
    · have hold : (s.pairs.lookup q).isSome := by
        have hq' : ((s.pairs.insert p pair).lookup q).isSome := hq
        rwa [AList.lookup_insert_ne hqp] at hq'
      obtain ⟨j, old, hj, hpair, hlive⟩ := h.owner q hold
      have hne : j ≠ i := by
        rintro rfl
        cases hj.symm.trans hi
        rw [hnone] at hpair
        cases hpair
      exact ⟨j, old, hother hne hj, hpair, hlive⟩
  · intro j ws' q hj hq
    rcases hcases hj with ⟨_, rfl⟩ | ⟨_, hold⟩
    · exact h.tag i ws none hi hwho
    · exact h.tag j ws' q hold hq
  · intro j ws' hj hopen
    rcases hcases hj with ⟨_, rfl⟩ | ⟨_, hold⟩
    · exact hgone
    · exact h.gone j ws' hold hopen
  · intro j k a b q hj hk ha hb
    rcases hcases hj with ⟨rfl, rfl⟩ | ⟨_, holdj⟩
    · cases ha
      rcases hcases hk with ⟨rfl, _⟩ | ⟨_, holdk⟩
      · rfl
      · exact absurd hb (hfresh b (List.mem_of_getElem? holdk))
    · rcases hcases hk with ⟨rfl, rfl⟩ | ⟨_, holdk⟩
      · cases hb
        exact absurd ha (hfresh a (List.mem_of_getElem? holdj))
      · exact h.unique j k a b q holdj holdk ha hb

theorem Matched.connectClient (h : Matched ⟨s, failed⟩) {ws : Socket} (hi : s.sockets[i]? = some ws)
    (hgone : ws.gone = false) (hfailed : i ∉ failed) (hwho : ws.who = .client none) {p : PairId} (hfresh : Fresh s p)
    (target : ServerId) (connectedAt : Nat) (decoded : RelayMessage) (now : Nat) :
    Matched ⟨s.connectClient i target connectedAt decoded p now, failed⟩ := by
  unfold RelaySession.connectClient
  split
  · split
    · exact h.mapSocket i fun ws => .close ..
    · split
      · exact h.mapSocket i fun ws => .sendClose ..
      · next server _ =>
        split
        · exact h.mapSocket i fun ws => .sendClose ..
        · have hconnected := h.connected hi hgone hfailed hwho hfresh
            { pairId := p, serverId := target, createdAt := now, lastProgressAt := now, queuedBytes := 0,
              bytesThisWindow := 0, windowStartedAt := now } target connectedAt now
          exact (hconnected.mapSocket server fun ws => .send ..).mapSocket i fun ws => .send ..
  · exact h.mapSocket i fun ws => .close ..

theorem Matched.clientFrame (h : Matched ⟨s, failed⟩) (target : ServerId) (p : PairId) (bytes : List UInt8) (now : Nat) :
    Matched ⟨s.clientFrame i target p bytes now, failed⟩ := by
  unfold RelaySession.clientFrame
  split
  · exact h.mapSocket i fun ws => .close ..
  · next pair hpair =>
    have hsome : (s.pairs.lookup p).isSome := by simp [hpair]
    split
    · exact h.closePair ..
    · unfold RelaySession.clientPayload
      split
      · exact h.closePair ..
      · next server _ =>
        split
        · exact (h.insert _ hsome).closePair ..
        · split
          · exact (h.insert _ hsome).closePair ..
          · exact ((h.insert _ hsome).mapSocket i fun ws => .touch ..).mapSocket server fun ws =>
              .trans _ _ _ (.touch ..) (.send ..)

theorem Matched.webSocketMessage (h : Matched ⟨s, failed⟩) {ws : Socket} (hi : s.sockets[i]? = some ws)
    (hgone : ws.gone = false) (hfailed : i ∉ failed) {p : PairId} (hfresh : Fresh s p) (message : Message) (now : Nat) :
    Matched ⟨s.webSocketMessage i message now p, failed⟩ := by
  unfold RelaySession.webSocketMessage
  rw [hi]
  dsimp only [Option.bind_some]
  cases hattachment : ws.attachment with
  | none => exact h.mapSocket i fun ws => .close ..
  | some attachment =>
    dsimp only
    cases message with
    | text text =>
      cases attachment with
      | server registered serverId connectedAt last =>
        cases registered with
        | true =>
          dsimp only
          split
          · exact h.mapSocket i fun ws => .trans _ _ _ (.touch ..) (.push ..)
          · exact h.mapSocket i fun ws => .close ..
        | false => exact h.mapSocket i fun ws => .close ..
      | client => exact h.mapSocket i fun ws => .close ..
    | binary bytes =>
      cases attachment with
      | server registered serverId connectedAt last =>
        dsimp only
        split
        · exact h
        · split
          · exact h.serverFrame ..
          · refine h.registerServer fun ws' hws' => ?_
            cases hws'.symm.trans hi
            unfold Socket.who
            rw [hattachment]
      | client target pairId connectedAt last =>
        cases pairId with
        | none =>
          dsimp only
          split
          · exact h
          · refine h.connectClient hi hgone hfailed ?_ hfresh ..
            unfold Socket.who
            rw [hattachment]
        | some q => exact h.clientFrame ..

/-- The close of a socket, and the entry of its pair. -/
theorem Matched.gone_of_close (h : Matched ⟨s, failed⟩) {ws : Socket} (hi : s.sockets[i]? = some ws) :
    (ws.pair = none → Matched ⟨s.mapSocket i fun ws => { ws with isOpen := false, gone := true }, failed⟩) ∧
      ∀ p, ws.pair = some p →
        Matched ⟨{ s.mapSocket i fun ws => { ws with isOpen := false, gone := true } with
          pairs := s.pairs.erase p }, failed⟩ := by
  have hcases : ∀ {j : SocketId} {ws' : Socket},
      (s.mapSocket i fun ws => { ws with isOpen := false, gone := true }).sockets[j]? = some ws' →
      ∃ old, s.sockets[j]? = some old ∧ ws'.who = old.who ∧ ws'.tag = old.tag ∧
        (ws'.isOpen = true → j ≠ i ∧ ws' = old) := by
    intro j ws' hj
    simp only [RelaySession.mapSocket, List.getElem?_modify, Option.map_eq_map, Option.map_eq_some_iff] at hj
    obtain ⟨old, hold, rfl⟩ := hj
    refine ⟨old, hold, ?_, ?_, ?_⟩
    · split <;> rfl
    · split <;> rfl
    · split
      · intro hopen
        cases hopen
      · next hne => exact fun _ => ⟨fun heq => hne heq.symm, rfl⟩
  have hother : ∀ {j : SocketId} {old : Socket}, j ≠ i → s.sockets[j]? = some old →
      (s.mapSocket i fun ws => { ws with isOpen := false, gone := true }).sockets[j]? = some old := by
    intro j old hne hold
    simp only [RelaySession.mapSocket]
    rw [List.getElem?_modify_ne _ _ hne.symm, hold]
  have hpairOf : ∀ {ws' old : Socket}, ws'.who = old.who → ws'.pair = old.pair := by
    intro ws' old hwho
    unfold Socket.pair
    rw [hwho]
  have hunique : ∀ (j k : SocketId) (a b : Socket) (p : PairId),
      (s.mapSocket i fun ws => { ws with isOpen := false, gone := true }).sockets[j]? = some a →
      (s.mapSocket i fun ws => { ws with isOpen := false, gone := true }).sockets[k]? = some b →
      a.pair = some p → b.pair = some p → j = k := by
    intro j k a b p hj hk ha hb
    obtain ⟨a', ha', hwho, _⟩ := hcases hj
    obtain ⟨b', hb', hwho', _⟩ := hcases hk
    exact h.unique j k a' b' p ha' hb' ((hpairOf hwho).symm.trans ha) ((hpairOf hwho').symm.trans hb)
  have htag : ∀ (j : SocketId) (a : Socket) (p : Option PairId),
      (s.mapSocket i fun ws => { ws with isOpen := false, gone := true }).sockets[j]? = some a →
      a.who = .client p → a.tag = .client := by
    intro j a p hj hwho
    obtain ⟨a', ha', hwho', hsame, _⟩ := hcases hj
    exact hsame.trans (h.tag j a' p ha' (hwho'.symm.trans hwho))
  have hgone : ∀ (j : SocketId) (a : Socket),
      (s.mapSocket i fun ws => { ws with isOpen := false, gone := true }).sockets[j]? = some a →
      a.isOpen = true → a.gone = false := by
    intro j a hj hopen
    obtain ⟨a', ha', _, _, hkept⟩ := hcases hj
    obtain ⟨_, rfl⟩ := hkept hopen
    exact h.gone j a ha' hopen
  constructor
  · intro hnone
    refine ⟨fun j a p hj hopen hp => ?_, fun p hp => ?_, htag, hgone, hunique⟩
    · obtain ⟨a', ha', _, _, hkept⟩ := hcases hj
      obtain ⟨_, rfl⟩ := hkept hopen
      exact h.entry j a p ha' hopen hp
    · obtain ⟨j, old, hj, hpair, hlive⟩ := h.owner p hp
      have hne : j ≠ i := by
        rintro rfl
        cases hj.symm.trans hi
        rw [hnone] at hpair
        cases hpair
      exact ⟨j, old, hother hne hj, hpair, hlive⟩
  · intro q hq
    refine ⟨fun j a p hj hopen hp => ?_, fun p hp => ?_, htag, hgone, hunique⟩
    · obtain ⟨a', ha', _, _, hkept⟩ := hcases hj
      obtain ⟨hne, rfl⟩ := hkept hopen
      have hpq : p ≠ q := by
        rintro rfl
        exact hne (h.unique j i a ws p ha' hi hp hq)
      show ((s.pairs.erase q).lookup p).isSome
      rw [AList.lookup_erase_ne hpq]
      exact h.entry j a p ha' hopen hp
    · have hp' : ((s.pairs.erase q).lookup p).isSome := hp
      have hpq : p ≠ q := by
        rintro rfl
        rw [AList.lookup_erase] at hp'
        cases hp'
      rw [AList.lookup_erase_ne hpq] at hp'
      obtain ⟨j, old, hj, hpair, hlive⟩ := h.owner p hp'
      have hne : j ≠ i := by
        rintro rfl
        cases hj.symm.trans hi
        rw [hq] at hpair
        exact hpq (Option.some.inj hpair).symm
      exact ⟨j, old, hother hne hj, hpair, hlive⟩

theorem Matched.webSocketClose (h : Matched ⟨s, failed⟩) {ws : Socket} (hi : s.sockets[i]? = some ws) :
    Matched ⟨s.webSocketClose i, failed⟩ := by
  obtain ⟨hnone, hsome⟩ := h.gone_of_close hi
  have hget : (s.mapSocket i fun ws => { ws with isOpen := false, gone := true }).sockets[i]? =
      some { ws with isOpen := false, gone := true } := by
    simp [RelaySession.mapSocket, hi]
  unfold RelaySession.webSocketClose
  dsimp only
  rw [hget]
  dsimp only [Option.bind_some]
  cases hattachment : ws.attachment with
  | none =>
    refine hnone ?_
    unfold Socket.pair Socket.who
    rw [hattachment]
  | some attachment =>
    cases attachment with
    | server registered serverId connectedAt last =>
      have hgone := hnone (by
        unfold Socket.pair Socket.who
        rw [hattachment])
      cases registered with
      | false => exact hgone
      | true =>
        cases serverId with
        | none => exact hgone
        | some id =>
          refine hgone.same (Each.map fun ws => ?_) rfl
          split
          · refine .trans _ _ _ ?_ (.close ..)
            split
            · exact .send ..
            · exact .refl ws
          · exact .refl ws
    | client target pairId connectedAt last =>
      cases pairId with
      | none =>
        refine hnone ?_
        unfold Socket.pair Socket.who
        rw [hattachment]
      | some q =>
        have hgone := hsome q (by
          unfold Socket.pair Socket.who
          rw [hattachment])
        dsimp only
        split
        · next server _ => exact hgone.mapSocket server fun ws => .send ..
        · exact hgone

/-- A new socket has no pair. -/
theorem Matched.accept (h : Matched ⟨s, failed⟩) {ws : Socket} (hnone : ws.pair = none) (hgone : ws.gone = false)
    (htag : ∀ p, ws.who = .client p → ws.tag = .client) : Matched ⟨{ s with sockets := s.sockets ++ [ws] }, failed⟩ := by
  have hcases : ∀ {j : SocketId} {ws' : Socket}, (s.sockets ++ [ws])[j]? = some ws' → s.sockets[j]? = some ws' ∨ ws' = ws := by
    intro j ws' hj
    rw [List.getElem?_append] at hj
    split at hj
    · exact .inl hj
    · rw [List.getElem?_singleton] at hj
      split at hj
      · exact .inr (Option.some.inj hj).symm
      · cases hj
  constructor
  · intro j a p hj hopen hp
    rcases hcases hj with hold | rfl
    · exact h.entry j a p hold hopen hp
    · rw [hnone] at hp
      cases hp
  · intro p hp
    obtain ⟨j, old, hj, hpair, hlive⟩ := h.owner p hp
    exact ⟨j, old, List.getElem?_append_left (List.getElem?_eq_some_iff.mp hj).1 ▸ hj, hpair, hlive⟩
  · intro j a p hj hwho
    rcases hcases hj with hold | rfl
    · exact h.tag j a p hold hwho
    · exact htag p hwho
  · intro j a hj hopen
    rcases hcases hj with hold | rfl
    · exact h.gone j a hold hopen
    · exact hgone
  · intro j k a b p hj hk ha hb
    rcases hcases hj with holdj | rfl
    · rcases hcases hk with holdk | rfl
      · exact h.unique j k a b p holdj holdk ha hb
      · rw [hnone] at hb
        cases hb
    · rw [hnone] at ha
      cases ha

theorem Matched.fetch (h : Matched ⟨s, failed⟩) (role : SocketRole) (server : Option ServerId) (authorized : Bool)
    (now : Nat) : Matched ⟨s.fetch role server authorized now, failed⟩ := by
  unfold RelaySession.fetch
  split
  · split
    · exact h.accept rfl rfl fun _ hwho => (nomatch hwho)
    · exact h
  · exact h.accept rfl rfl fun _ _ => rfl
  · exact h

theorem Matched.step {h h' : Hosted} {move : Move} (hm : h.Matched) (hspared : h.Spared move)
    (hs : h.step move = some h') : h'.Matched := by
  unfold Hosted.step at hs
  cases move with
  | fetch role server authorized now =>
    cases hs
    exact hm.fetch ..
  | message i message now p =>
    dsimp only at hs
    cases hi : h.session.sockets[i]? with
    | none =>
      rw [hi] at hs
      cases hs
    | some ws =>
      rw [hi] at hs
      dsimp only at hs
      split at hs
      · cases hs
      · next hcan =>
        cases hs
        simp only [not_or, Bool.not_eq_true, not_not] at hcan
        exact Matched.webSocketMessage hm hi hcan.1 hcan.2.1 hcan.2.2 message now
  | close i =>
    dsimp only at hs
    cases hi : h.session.sockets[i]? with
    | none =>
      rw [hi] at hs
      cases hs
    | some ws =>
      rw [hi] at hs
      dsimp only at hs
      split at hs
      · cases hs
      · cases hs
        exact Matched.webSocketClose hm hi
  | error i =>
    dsimp only at hs
    cases hi : h.session.sockets[i]? with
    | none =>
      rw [hi] at hs
      cases hs
    | some ws =>
      rw [hi] at hs
      dsimp only at hs
      split at hs
      · cases hs
      · cases hs
        refine ⟨hm.entry, fun p hp => ?_, hm.tag, hm.gone, hm.unique⟩
        obtain ⟨j, old, hj, hpair, htag, hgone, hfailed⟩ := hm.owner p hp
        refine ⟨j, old, hj, hpair, htag, hgone, fun hmem => ?_⟩
        rcases List.mem_cons.mp hmem with rfl | hold
        · have hlookup : h.session.pairs.lookup p = none := hspared old hj p hpair
          have hp' : (h.session.pairs.lookup p).isSome := hp
          rw [hlookup] at hp'
          cases hp'
        · exact hfailed hold
  | sweep now =>
    cases hs
    exact Matched.sweepIdlePairs hm now
  | reconstruct =>
    cases hs
    refine ⟨fun i ws p hi hopen hp => ?_, fun p hp => (nomatch hp), hm.tag, hm.gone, hm.unique⟩
    rw [hspared ws (List.mem_of_getElem? hi) hopen] at hp
    cases hp

/-! ## What follows -/

/-- A socket is not given `x`. -/
def Quiet (x : Outgoing) (ws ws' : Socket) : Prop := ws'.out.count x = ws.out.count x

theorem quiet_push {x message : Outgoing} (hne : message ≠ x) (ws : Socket) : Quiet x ws (ws.push message) := by
  unfold Quiet Socket.push
  split
  · rw [List.count_append, List.count_singleton, if_neg (by simpa using hne), Nat.add_zero]
  · rfl

theorem quiet_close {x : Outgoing} {code : Nat} {reason : String} (hne : .close code reason ≠ x) (ws : Socket) :
    Quiet x ws (ws.close code reason) := by
  unfold Quiet Socket.close
  split
  · rw [List.count_append, List.count_singleton, if_neg (by simpa using hne), Nat.add_zero]
  · rfl

theorem quiet_send {x : Outgoing} {message : RelayMessage} (hne : ∀ bytes, encodeRelay message = .ok bytes → .binary bytes ≠ x)
    (ws : Socket) : Quiet x ws (ws.send message) := by
  unfold Socket.send
  split
  · next bytes hbytes => exact quiet_push (hne bytes hbytes) ws
  · rfl

theorem quiet_refl (x : Outgoing) (ws : Socket) : Quiet x ws ws := rfl

theorem quiet_trans (x : Outgoing) (a b c : Socket) (h : Quiet x a b) (h' : Quiet x b c) : Quiet x a c := h'.trans h

/-- `closePair` tells nobody that a pair is not known. -/
theorem quiet_closePair (s : RelaySession) (p : PairId) (reason : CloseReason) :
    Each (Quiet unknownPairId) s (s.closePair p reason) := by
  refine Each.closePair (quiet_refl _) (quiet_trans _) (fun ws _ => ?_) fun ws _ => ?_
  · exact quiet_trans _ _ _ _ (quiet_send (fun _ _ => Outgoing.noConfusion) ws) (quiet_close (by simp [unknownPairId]) _)
  · exact quiet_send (fun _ _ => Outgoing.noConfusion) ws

theorem quiet_insert (s : RelaySession) (p : PairId) (pair : PairState) :
    Each (Quiet unknownPairId) s { s with pairs := s.pairs.insert p pair } :=
  List.forall₂_same.mpr fun ws _ => quiet_refl _ ws

theorem quiet_clientPayload (s : RelaySession) (i : SocketId) (target : ServerId) (p : PairId) (pair : PairState)
    (bytes : List UInt8) (now : Nat) : Each (Quiet unknownPairId) s (s.clientPayload i target p pair bytes now) := by
  unfold RelaySession.clientPayload
  split
  · exact quiet_closePair ..
  · split
    · exact forall₂_trans (quiet_trans _) (quiet_insert ..) (quiet_closePair ..)
    · split
      · exact forall₂_trans (quiet_trans _) (quiet_insert ..) (quiet_closePair ..)
      · next bumped _ _ =>
        refine forall₂_trans (quiet_trans _) (quiet_insert s p bumped) ?_
        refine forall₂_trans (m := (RelaySession.mapSocket { s with pairs := s.pairs.insert p bumped } i
          fun ws => ws.touch now).sockets) (quiet_trans _) ?_ ?_
        · exact Each.mapSocket (quiet_refl _) fun ws _ => rfl
        · refine Each.mapSocket (quiet_refl _) fun ws _ => ?_
          exact quiet_send (fun _ _ => Outgoing.noConfusion) (ws.touch now)

theorem Matched.known (h : Matched ⟨s, failed⟩) {ws ws' : Socket} {p : PairId} (hi : s.sockets[i]? = some ws)
    (hopen : ws.isOpen = true) (hpair : ws.pair = some p) {message : Message} {now : Nat} {newPairId : PairId}
    (hi' : (s.webSocketMessage i message now newPairId).sockets[i]? = some ws') :
    ws'.out.count unknownPairId = ws.out.count unknownPairId := by
  have hquiet : Each (Quiet unknownPairId) s (s.webSocketMessage i message now newPairId) := by
    have hwho := who_of_pair hpair
    unfold Socket.who at hwho
    split at hwho
    · cases hwho
    · next target pairId connectedAt last hattachment =>
      cases hwho
      unfold RelaySession.webSocketMessage
      rw [hi]
      dsimp only [Option.bind_some]
      rw [hattachment]
      cases message with
      | text text => exact Each.mapSocket (quiet_refl _) fun ws _ => quiet_close (by simp [unknownPairId]) ws
      | binary bytes =>
        dsimp only
        obtain ⟨pair, hlookup⟩ := Option.isSome_iff_exists.mp (h.entry i ws p hi hopen hpair)
        have hlookup' : s.pairs.lookup p = some pair := hlookup
        unfold RelaySession.clientFrame
        rw [hlookup']
        dsimp only
        split
        · exact quiet_closePair ..
        · exact quiet_clientPayload ..
    · cases hwho
  obtain ⟨old, hold, hsame⟩ := hquiet.back hi'
  cases hold.symm.trans hi
  exact hsame

/-- A server is not given `x`. -/
def Spares (x : Outgoing) (ws ws' : Socket) : Prop := ws.who = .server → ws'.who = .server ∧ Quiet x ws ws'

theorem spares_refl (x : Outgoing) (ws : Socket) : Spares x ws ws := fun hwho => ⟨hwho, rfl⟩

theorem spares_trans (x : Outgoing) (a b c : Socket) (h : Spares x a b) (h' : Spares x b c) : Spares x a c := by
  intro hwho
  obtain ⟨hb, hquiet⟩ := h hwho
  obtain ⟨hc, hquiet'⟩ := h' hb
  exact ⟨hc, quiet_trans x _ _ _ hquiet hquiet'⟩

/-- A pair that is refused is not closed as one whose client has gone. -/
theorem encode_rejected_ne {p : PairId} {reason : String} {bytes frame : List UInt8}
    (hbytes : encodeRelay (.pairClose p (.rejected reason)) = .ok bytes)
    (hframe : encodeRelay (.pairClose p .clientGone) = .ok frame) : bytes ≠ frame := by
  rintro rfl
  unfold encodeRelay at hbytes hframe
  dsimp only at hbytes hframe
  obtain ⟨kind, hkind, hbytes⟩ := Wire.bind_eq_ok.mp hbytes
  obtain ⟨uuid, huuid, hbytes⟩ := Wire.bind_eq_ok.mp hbytes
  obtain ⟨why, hwhy, hbytes⟩ := Wire.bind_eq_ok.mp hbytes
  obtain ⟨kind', hkind', hframe⟩ := Wire.bind_eq_ok.mp hframe
  obtain ⟨uuid', huuid', hframe⟩ := Wire.bind_eq_ok.mp hframe
  obtain ⟨why', hwhy', hframe⟩ := Wire.bind_eq_ok.mp hframe
  cases hkind.symm.trans hkind'
  cases huuid.symm.trans huuid'
  cases hbytes
  have hsame := List.append_cancel_left (List.cons.inj (Except.ok.inj hframe)).2
  unfold encodePairCloseReason at hwhy hwhy'
  dsimp only at hwhy hwhy'
  obtain ⟨tag, htag, hwhy⟩ := Wire.bind_eq_ok.mp hwhy
  obtain ⟨text, _, hwhy⟩ := Wire.bind_eq_ok.mp hwhy
  have htwo : why' = [2] := (Except.ok.inj (hwhy'.symm.trans (by rfl : encodeVarint 2 = .ok [2])))
  have hfive : tag = [5] := (Except.ok.inj (htag.symm.trans (by rfl : encodeVarint 5 = .ok [5])))
  cases hwhy
  rw [htwo, hfive] at hsame
  cases hsame

theorem Matched.present (h : Matched ⟨s, failed⟩) {j : SocketId} {server server' client : Socket} {p : PairId}
    {bytes payload frame : List UInt8} {now : Nat} {newPairId : PairId} (hi : s.sockets[i]? = some server)
    (hserver : server.who = .server) (hj : s.sockets[j]? = some client) (hopen : client.isOpen = true)
    (hpair : client.pair = some p) (hdecode : decodeRelay bytes = .ok (.dataForward p payload))
    (hframe : encodeRelay (.pairClose p .clientGone) = .ok frame)
    (hi' : (s.webSocketMessage i (.binary bytes) now newPairId).sockets[i]? = some server') :
    server'.out.count (.binary frame) = server.out.count (.binary frame) := by
  obtain ⟨pair, hlookup⟩ := Option.isSome_iff_exists.mp (h.entry j client p hj hopen hpair)
  have hlookup' : s.pairs.lookup p = some pair := hlookup
  have hspares : Each (Spares (.binary frame)) s (s.webSocketMessage i (.binary bytes) now newPairId) := by
    have hclose : ∀ (t : RelaySession) (reason : String),
        Each (Spares (.binary frame)) t (t.closePair p (.rejected reason)) := by
      intro t reason
      refine Each.closePair (spares_refl _) (spares_trans _) (fun ws hof hwho => ?_) fun ws hwho _ => ?_
      · rw [who_of_isClientOf hof] at hwho
        cases hwho
      · refine ⟨(SameSocket.send ..).who.trans hwho, quiet_send (fun sent hsent heq => ?_) ws⟩
        exact encode_rejected_ne hsent hframe (Outgoing.binary.inj heq)
    have htouch : ∀ ws : Socket, Spares (.binary frame) ws (ws.touch now) :=
      fun ws hwho => ⟨(SameSocket.touch ..).who.trans hwho, rfl⟩
    have hwho := hserver
    unfold Socket.who at hwho
    split at hwho
    · next registered serverId connectedAt last hattachment =>
      unfold RelaySession.webSocketMessage
      rw [hi]
      dsimp only [Option.bind_some]
      rw [hattachment]
      dsimp only
      rw [hdecode]
      dsimp only
      split
      · unfold RelaySession.serverFrame
        dsimp only
        have hmid : Each (Spares (.binary frame)) s (s.mapSocket i fun ws => ws.touch now) :=
          Each.mapSocket (spares_refl _) fun ws _ => htouch ws
        have hlookup'' : (s.mapSocket i fun ws => ws.touch now).pairs.lookup p = some pair := hlookup'
        rw [hlookup'']
        dsimp only
        refine forall₂_trans (spares_trans _) hmid ?_
        split
        · next bumped reason _ => exact hclose { s.mapSocket i fun ws => ws.touch now with pairs := s.pairs.insert p bumped } reason
        · refine Each.map fun ws => ?_
          split
          · next hof =>
            intro hwho
            rw [who_of_isClientOf hof] at hwho
            cases hwho
          · exact spares_refl _ ws
      · refine Each.mapSocket (spares_refl _) fun ws _ hwho => ?_
        exact ⟨(SameSocket.close ..).who.trans hwho, quiet_close (by simp) ws⟩
    · cases hwho
    · cases hwho
  obtain ⟨old, hold, hsame⟩ := hspares.back hi'
  cases hold.symm.trans hi
  exact (hsame hserver).2

/-- Each entry has a live client of its own. -/
theorem Matched.counted {h : Hosted} (hm : h.Matched) : h.session.pairs.entries.length ≤ h.liveClients := by
  have howner : ∀ p ∈ h.session.pairs.keys, ∃ i ws, h.session.sockets[i]? = some ws ∧ ws.pair = some p ∧ h.Live i ws :=
    fun p hp => hm.owner p (AList.lookup_isSome.mpr hp)
  choose! place hplace using howner
  have hnodup : (h.session.pairs.keys.map place).Nodup := by
    refine List.Nodup.map_on (fun p hp q hq heq => ?_) h.session.pairs.keys_nodup
    obtain ⟨ws, hi, hpair, _⟩ := hplace p hp
    obtain ⟨ws', hj, hpair', _⟩ := hplace q hq
    rw [heq] at hi
    cases hi.symm.trans hj
    rw [hpair] at hpair'
    exact Option.some.inj hpair'
  have hsub : ∀ i ∈ h.session.pairs.keys.map place,
      i ∈ (List.range h.session.sockets.length).filter fun i =>
        h.session.sockets[i]?.any fun ws => decide (h.Live i ws) := by
    intro i hi
    obtain ⟨p, hp, rfl⟩ := List.mem_map.mp hi
    obtain ⟨ws, hget, _, hlive⟩ := hplace p hp
    rw [List.mem_filter, List.mem_range, hget]
    exact ⟨(List.getElem?_eq_some_iff.mp hget).1, by simpa using hlive⟩
  have hlength := (List.Nodup.subperm hnodup hsub).length_le
  have hkeys : h.session.pairs.entries.length = (h.session.pairs.keys.map place).length := by
    rw [List.length_map]
    exact (List.length_map _).symm
  rw [hkeys]
  unfold liveClients
  rw [List.countP_eq_length_filter]
  exact hlength

theorem Matched.table {h : Hosted} (hm : h.Matched) : h.TableMatches where
  entry := hm.entry
  owner := hm.owner
  known _ _ _ _ _ _ _ hi hopen hpair hi' := Matched.known hm hi hopen hpair hi'
  present _ _ _ _ _ _ _ _ _ _ _ hi hserver hj hopen hpair hdecode hframe hi' :=
    Matched.present hm hi hserver hj hopen hpair hdecode hframe hi'
  counted := hm.counted

/-- **In every run in which the object is not built anew while a client with a pair is open, and no client fails whose
pair is in the table, the table and the sockets match.** -/
theorem table_matches {limits : RelayLimits} {moves : List Move} {h : Hosted}
    (hmeets : Steps.Meets step Spared { session := { limits } } moves)
    (hrun : Steps.run step { session := { limits } } moves = some h) : h.TableMatches :=
  (Steps.run_invariant (I := Matched) (fun _ _ _ hm hspared hs => hm.step hspared hs) hmeets hrun
    (matched_init limits)).table

instance (h : Hosted) (move : Move) : Decidable (h.Spared move) := by
  unfold Spared
  split <;> infer_instance

end Hosted

/-! ## An object that is built anew -/

/-- A server registers, a client connects to it and is told of its pair. -/
def openMoves : List Hosted.Move :=
  [.fetch .server (some serverA) true 0,
    .message 0 (.binary (encodeRelayCtrl (.serverRegister serverA [] []))) 0 pairA,
    .fetch .client (some serverA) true 0,
    .message 1 (.binary (encodeRelayCtrl (.clientConnect serverA))) 0 pairA]

def smallLimits : RelayLimits := ⟨256, 2048, 4194304, 8388608, 120⟩

/-- The client goes, and the object is built anew behind that. -/
theorem table_matches_sample : ∃ h, Steps.run Hosted.step { session := { limits := smallLimits } }
    (openMoves ++ [.sweep 1, .close 1, .reconstruct]) = some h ∧ h.TableMatches := by
  have hmeets : Steps.Meets Hosted.step Hosted.Spared { session := { limits := smallLimits } }
      (openMoves ++ [.sweep 1, .close 1, .reconstruct]) := by decide +kernel
  have hruns : (Steps.run Hosted.step { session := { limits := smallLimits } }
    (openMoves ++ [.sweep 1, .close 1, .reconstruct])).isSome = true := by decide +kernel
  obtain ⟨h, hh⟩ := Option.isSome_iff_exists.mp hruns
  exact ⟨h, hh, Hosted.table_matches hmeets hh⟩

/-- The object is built anew while its client is open. -/
theorem table_is_lost : ∃ h, Steps.run Hosted.step { session := { limits := smallLimits } }
    (openMoves ++ [.reconstruct]) = some h ∧ ¬h.TableMatches := by
  have hruns : (Steps.run Hosted.step { session := { limits := smallLimits } }
    (openMoves ++ [.reconstruct])).any (fun h => h.session.sockets[1]?.any (fun ws => ws.isOpen && ws.pair = some pairA) &&
      !(h.session.pairs.lookup pairA).isSome) = true := by decide +kernel
  obtain ⟨h, hh, hlost⟩ := (Option.any_eq_true _ _).mp hruns
  refine ⟨h, hh, fun hmatches => ?_⟩
  simp only [Bool.and_eq_true, Bool.not_eq_true'] at hlost
  obtain ⟨hopen, hnone⟩ := hlost
  obtain ⟨ws, hws, hclient⟩ := (Option.any_eq_true _ _).mp hopen
  simp only [Bool.and_eq_true, decide_eq_true_eq] at hclient
  rw [hmatches.entry 1 ws pairA hws hclient.1 hclient.2] at hnone
  cases hnone

end Worker

end CliPocket
