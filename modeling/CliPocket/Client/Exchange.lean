import CliPocket.Client.Replies

/-!
# Requests and responses over the runs of a session

- `Exchange.Books.step`: kept by every step that frames no command under an identifier that is outstanding
  (`Exchange.Fresh`);
- `requests_and_responses`: **requests and replies in every run** whose steps all do so;
- `identifiers_run_out`: what happens when the counter has come to its end.
-/

namespace CliPocket

open Saturating (u32Max)
open Steps (run Meets)

namespace Exchange

variable {x y : Exchange}

/-- A command is framed only under an identifier that is not outstanding. -/
def Fresh (x : Exchange) : Move → Prop
  | .session (.conn move) => (x.session.framed move).isSome → x.session.Spare
  | _ => True

instance (x : Exchange) : (move : Move) → Decidable (x.Fresh move)
  | .session (.conn move) => inferInstanceAs (Decidable ((x.session.framed move).isSome → x.session.Spare))
  | .session (.caller _) | .session (.loop _) | .session (.setup _) | .answer _ _ => isTrue trivial

structure Books (x : Exchange) : Prop where
  books : x.session.Books x.asked
  live : x.session.live = false → x.asked = []

theorem books_of_onward {s t : Session} {asked : List Ask} (h : s.Onward asked t (t.stillAsked asked)) :
    Books { session := t, asked := t.stillAsked asked } :=
  ⟨h.books, fun hdead => by
    show t.stillAsked asked = []
    unfold Session.stillAsked
    rw [hdead]
    rfl⟩

/-- **A step that frames no command under an outstanding identifier** keeps the books. -/
theorem Books.step {move : Move} (h : x.Books) (hc : x.Fresh move) (hs : x.step move = some y) :
    y.Books ∧ x.session.Onward x.asked y.session y.asked := by
  obtain ⟨hbooks, hlive⟩ := h
  have hstill : ∀ {move t}, x.askedAfter move t = t.stillAsked x.asked →
      x.session.Onward x.asked t (t.stillAsked x.asked) →
      Books { session := t, asked := x.askedAfter move t } ∧ x.session.Onward x.asked t (x.askedAfter move t) := by
    intro move t heq honward
    rw [heq]
    exact ⟨books_of_onward honward, honward⟩
  cases move with
  | session move =>
    unfold Exchange.step at hs
    split at hs
    · cases hs
    · next move' hmove heq =>
      cases heq
      obtain ⟨t, ht, rfl⟩ := Option.map_eq_some_iff.mp hs
      cases move with
      | caller move =>
        have honward := hbooks.callerStep ht
        have hsame : t.live = x.session.live := by
          unfold Session.live
          rw [(Session.callerStep_link ht).2]
        have hasked : t.stillAsked x.asked = x.asked := by
          unfold Session.stillAsked
          rw [hsame]
          split
          · rfl
          · next hdead => exact (hlive (Bool.eq_false_iff.mpr hdead)).symm
        refine hstill rfl ?_
        rw [hasked]
        exact honward
      | loop move => exact hstill rfl (hbooks.loopStep hlive ht)
      | setup move => exact hstill rfl (hbooks.setupStep hlive ht)
      | conn move =>
        by_cases hsent : move = .sent
        · subst hsent
          obtain ⟨honward, ht'⟩ := hbooks.sent ht
          have hasked : x.askedAfter (.conn .sent) t = x.asked ++ x.session.sendingAsk.toList := if_pos ht'
          rw [hasked]
          refine ⟨⟨honward.books, fun hdead => ?_⟩, honward⟩
          cases ht'.symm.trans hdead
        · refine hstill ?_ (hbooks.connStep ?_ hsent hc ht)
          · cases move with
            | sent => exact absurd rfl hsent
            | _ => rfl
          · unfold Session.Unasked
            split
            · exact hmove _ _ rfl
            · trivial
    · contradiction
  | answer result nowMs =>
    unfold Exchange.step at hs
    split at hs
    · contradiction
    · contradiction
    · next heq =>
      cases heq
      split at hs
      · cases hs
      · next ask rest hasked =>
        rw [hasked] at hbooks ⊢
        split at hs
        · next hconforms =>
          obtain ⟨t, ht, rfl⟩ := Option.map_eq_some_iff.mp hs
          obtain ⟨honward, ht'⟩ := hbooks.answer hconforms ht
          dsimp only
          rw [if_pos ht']
          refine ⟨⟨honward.books, fun hdead => ?_⟩, honward⟩
          cases ht'.symm.trans hdead
        · cases hs

theorem books_new (resumeToken : Option ResumeToken) : Books { session := .new resumeToken } :=
  ⟨⟨desk_new, rfl⟩, fun _ => rfl⟩

/-- What holds of the requests that are outstanding, and of the replies that have been sent. -/
structure Correlated (x : Exchange) : Prop where
  distinct : (x.outstanding.map Ask.id).Nodup
  /-- A request is outstanding for the caller who asked for it. -/
  caller : ∀ a ∈ x.outstanding, ∀ r, a.txn.reply = some r →
    ∃ cmd ∈ x.session.accepted, cmd.reply = some r ∧ cmd.request = some a.request.body
  callers : (x.session.accepted.map SessionCommand.reply).Nodup
  /-- Nobody is told twice. -/
  once : (x.session.client.replies.map Prod.fst).Nodup
  /-- Every response a caller has been told answers its request. -/
  own : ∀ r body, (r, .ok body) ∈ x.session.client.replies → ∃ cmd ∈ x.session.accepted, ∃ request,
    cmd.reply = some r ∧ cmd.request = some request ∧ Conforms request (.ok body) = true
  /-- The next response that conforms is handled, and told the caller of its request alone. -/
  handled : ∀ a rest result, x.asked = a :: rest → Conforms a.request.body result = true → ∃ d action,
    x.session.client.handleInboundFrame (.response ⟨a.id, result⟩) = .ok (d, action) ∧
      d.replies = x.session.client.replies ++ a.txn.reply.toList.map fun r => (r, ClientConn.told result)

/-- At the end of a connection every outstanding reply is got, as an error, or its command is queued; never both. -/
def EndsClean (x : Exchange) : Prop :=
  ∀ move y, x.Fresh move → x.step move = some y → y.session.live = false →
    ∀ a ∈ x.outstanding, ∀ r, a.txn.reply = some r →
      ((∃ e, y.session.Got r (.error e)) ∧ ¬y.session.Queued r) ∨
        (y.session.Queued r ∧ ∀ result, ¬y.session.Got r result)

/-- What a caller has got is one result, and it stays. -/
def Resolves (x : Exchange) : Prop :=
  ∀ r, some r ∈ x.session.accepted.map SessionCommand.reply → ∀ result, x.session.Got r result →
    (∀ result', x.session.Got r result' → result' = result) ∧
      ∀ is y, Meets step Fresh x is → run step x is = some y → y.session.Got r result

theorem Books.correlated (h : x.Books) : x.Correlated where
  distinct := h.books.desk.agree.nodup
  caller := fun a ha => (h.books.desk.asks a ha).2
  callers := h.books.desk.distinct
  once := (List.nodup_append.mp (List.nodup_append.mp h.books.desk.nodup).1).1
  own := h.books.desk.answered
  handled := fun a rest result hasked hconforms => by
    have hdesk := h.books.desk
    rw [hasked] at hdesk
    have hlookup := PendingTable.Agree.lookup_of_mem (r := a) hdesk.agree (by simp)
    obtain ⟨d, action, hhandle, hanswered, _⟩ :=
      x.session.client.handleResponseFrame_spec (hdesk.asks a (by simp)).1 hconforms hlookup
    exact ⟨d, action, hhandle, hdesk.replies_of_answered hanswered⟩

theorem Books.endsClean (h : x.Books) : x.EndsClean := by
  intro move y hc hs hdead a ha r hreply
  obtain ⟨hbooks', hbooks, hflow⟩ := h.step hc hs
  have hplace : r ∈ x.session.replyPlaces x.asked := by
    refine (h.books.mem_replyPlaces_iff r).mpr (.inr (.inr (.inr ⟨a.id, a.txn, ?_, hreply⟩)))
    exact h.books.desk.agree.lookup_of_mem ha
  have hknown := h.books.desk.known r hplace
  have hnodup := h.books.desk.nodup
  unfold places at hnodup
  obtain ⟨hfront, _, hasked⟩ := List.nodup_append.mp hnodup
  obtain ⟨_, hqueue, hapart⟩ := List.nodup_append.mp hfront
  obtain ⟨_, _, hcmds⟩ := List.nodup_append.mp hqueue
  -- a reply that waits for a response has neither been sent nor is it in the channel
  have hnew : r ∉ x.session.client.replies.map Prod.fst ∧ r ∉ repliesOf x.session.sessionCmds := by
    rcases List.mem_append.mp ha with ha | ha
    · have hmem : r ∈ askedReplies x.asked := List.mem_filterMap.mpr ⟨a, ha, hreply⟩
      exact ⟨fun hr => hasked r (List.mem_append_left _ hr) r hmem rfl,
        fun hr => hasked r (List.mem_append_right _ (List.mem_append_left _ hr)) r hmem rfl⟩
    · have hmem : r ∈ repliesOf x.session.pendingSessionCmds :=
        h.books.queued_of_sending (Option.mem_toList.mp ha) hreply
      exact ⟨fun hr => hapart r hr r (List.mem_append_right _ hmem) rfl, fun hr => hcmds r hr r hmem rfl⟩
  have hcmds' : r ∉ repliesOf y.session.sessionCmds := fun hr => hnew.2 (hflow.cmds r hr hknown)
  have hdesk' : y.session.AtDesk [] none := by
    have hnil := hbooks'.live hdead
    rw [hnil] at hbooks
    exact hbooks.idle hdead
  by_cases hqueued : y.session.Queued r
  · have hnodup' := hdesk'.nodup
    unfold places at hnodup'
    have hsent : r ∉ y.session.client.replies.map Prod.fst := fun hr =>
      (List.nodup_append.mp (List.nodup_append.mp hnodup').1).2.2 r hr r (List.mem_append_right _ hqueued) rfl
    refine .inr ⟨hqueued, ?_⟩
    rintro result (hgot | ⟨_, hheld, _⟩)
    · exact hsent (List.mem_map_of_mem hgot)
    · exact hheld (.inr (.inl hqueued))
  · refine .inl ⟨?_, hqueued⟩
    by_cases hsent : r ∈ y.session.client.replies.map Prod.fst
    · obtain ⟨⟨_, result⟩, hmem, rfl⟩ := List.mem_map.mp hsent
      cases result with
      | error e => exact ⟨e, .inl hmem⟩
      | ok body => exact absurd (List.mem_map_of_mem (hflow.errors hdead _ _ hmem)) hnew.1
    · refine ⟨.closed, .inr ⟨hsent, ?_, rfl⟩⟩
      rintro (hr | hr | ⟨id, txn, hlookup, _⟩)
      · exact hcmds' hr
      · exact hqueued hr
      · obtain ⟨_, hmem, _⟩ := (hdesk'.agree.lookup id txn).mp hlookup
        cases hmem

/-- What a caller has got stays through a run. -/
theorem Books.got_run (h : x.Books) {r : ReplyId} {result : Except ClientError ResponseBody} {is : List Move}
    (hmeets : Meets Exchange.step Fresh x is) (hs : run Exchange.step x is = some y)
    (hknown : some r ∈ x.session.accepted.map SessionCommand.reply) (hgot : x.session.Got r result) :
    y.session.Got r result := by
  refine (Steps.run_invariant (I := fun z => z.Books ∧ some r ∈ z.session.accepted.map SessionCommand.reply ∧
    z.session.Got r result) ?_ hmeets hs ⟨h, hknown, hgot⟩).2.2
  rintro z move w ⟨hz, hknown, hgot⟩ hc hs
  obtain ⟨hw, honward⟩ := hz.step hc hs
  exact ⟨hw, (honward.flow.accepted.map _).subset hknown, hgot.flow hz.books honward hknown⟩

/-- **Requests and responses.** In every run that frames no command under an identifier that is still outstanding,
requests and replies are correlated, every connection ends clean, and a caller gets one result. -/
theorem requests_and_responses (resumeToken : Option ResumeToken) {is : List Move} {x : Exchange}
    (hmeets : Meets step Fresh { session := .new resumeToken } is)
    (hs : run step { session := .new resumeToken } is = some x) : x.Correlated ∧ x.EndsClean ∧ x.Resolves := by
  have hbooks : x.Books :=
    Steps.run_invariant (fun _ _ _ h hc hs => (h.step hc hs).1) hmeets hs (books_new resumeToken)
  refine ⟨hbooks.correlated, hbooks.endsClean, fun r hknown result hgot => ⟨fun result' hgot' => ?_, ?_⟩⟩
  · exact hgot'.unique hbooks.books hgot
  · intro js y hmeets' hs'
    exact hbooks.got_run hmeets' hs' hknown hgot

/-- A list of the terminals is asked for. -/
def askMoves (n : Nat) : List Move :=
  [.session (.caller (.command (.listTerminals n))), .session (.conn .sessionCmd), .session (.conn .sent),
    .session (.conn (.turn 0 0))]

/-- It is answered. -/
def answerMoves : List Move :=
  [.session (.conn (.poll 0 0)), .answer (.ok (.listTerminals [])) 0, .session (.conn (.turn 0 0))]

/-- Terminals are listed, and the response comes. -/
theorem requests_and_responses_sample :
    ∃ x : Exchange, x.session.client.replies = [(7, .ok (.listTerminals []))] ∧ x.Correlated ∧ x.EndsClean ∧ x.Resolves := by
  obtain ⟨x, hs, hreplies⟩ : ∃ x, run step { session := .new none }
      (Session.toSelect.map .session ++ askMoves 7 ++ answerMoves) = some x ∧
        x.session.client.replies = [(7, .ok (.listTerminals []))] := ⟨_, rfl, rfl⟩
  exact ⟨x, hreplies, requests_and_responses none (by decide) hs⟩

/-! ## The end of the counter -/

theorem step_session {x : Exchange} {move : Session.Move} {t : Session}
    (hmove : ∀ response nowMs, move ≠ .conn (.frame (.response response) nowMs)) (h : x.session.step move = some t) :
    x.step (.session move) = some { session := t, asked := x.askedAfter move t } := by
  unfold Exchange.step
  split
  · next heq => exact absurd (Move.session.inj heq) (hmove _ _)
  · next heq =>
    cases heq
    rw [h]
    rfl
  · contradiction

theorem step_answer {x : Exchange} {ask : Ask} {rest : List Ask} {result : Except ResponseError ResponseBody} {nowMs : Nat}
    {t : Session} (hasked : x.asked = ask :: rest) (hconforms : Conforms ask.request.body result = true)
    (h : x.session.step (.conn (.frame (.response ⟨ask.id, result⟩) nowMs)) = some t) :
    x.step (.answer result nowMs) = some { session := t, asked := if t.live then rest else [] } := by
  unfold Exchange.step
  dsimp only
  rw [hasked]
  dsimp only
  rw [if_pos hconforms, h]
  rfl

/-- A connection over which terminals are listed, at a wait. -/
def listing (accepted sessionCmds pending : List SessionCommand) (client : ClientConn) (link : Link) (wait : Wait)
    (asked : List Ask) : Exchange where
  session := { Session.new none with
    accepted, sessionCmds, client, link
    pendingSessionCmds := pending
    phase := .connected { heartbeat := { lastInboundAtMs := 0 }, wait }
    events := [.connecting, .connected ⟨.splat 1⟩ none]
    attempts := 1 }
  asked

theorem fitsNoise_listTerminals {id : Nat} (h : id ≤ u32Max) : fitsNoise (.request ⟨id, .listTerminals⟩) := by
  have hid : (Wire.putVarint id).length ≤ 5 := Wire.length_putVarint_le (by unfold u32Max at h; omega) (by decide)
  have hlen : (encodeFrame ⟨.request ⟨id, .listTerminals⟩⟩).length = 1 + ((Wire.putVarint id).length + 1) := by
    show (Wire.putVarint 5 ++ (Wire.putVarint id ++ Wire.putVarint 0)).length = _
    rw [List.length_append, List.length_append]
    rfl
  unfold fitsNoise noiseTagLen noiseMaxMsgLen
  rw [hlen]
  omega

variable {accepted : List SessionCommand} {client : ClientConn} {link : Link} {n : Nat} {asked : List Ask} {wait : Wait}

theorem step_command (h : some n ∉ accepted.map SessionCommand.reply) :
    step (listing accepted [] [] client link wait asked) (.session (.caller (.command (.listTerminals n)))) =
      some (listing (accepted ++ [.listTerminals n]) [.listTerminals n] [] client link wait asked) := by
  have hok : ¬((false : Bool) = true ∨ some n ∈ accepted.map SessionCommand.reply) := by simpa using h
  have hstep : Session.step (listing accepted [] [] client link wait asked).session (.caller (.command (.listTerminals n))) =
      some (listing (accepted ++ [.listTerminals n]) [.listTerminals n] [] client link wait asked).session := if_neg hok
  exact step_session nofun hstep

def asking (client : ClientConn) (n : Nat) : Ask := ⟨⟨client.nextRequestId, .listTerminals⟩, .listTerminals n⟩

/-- The request goes out. -/
theorem step_sessionCmd (accepted : List SessionCommand) (n : Nat) (asked : List Ask)
    (hid : client.nextRequestId ≤ u32Max) (hnonce : link.noise.sendNonce < Saturating.u64Max) :
    ∃ ciphertext, ciphertext.frame = .request (asking client n).request ∧
    step (listing accepted [.listTerminals n] [] client link (.selecting .start) asked) (.session (.conn .sessionCmd)) =
      some (listing accepted [] [.listTerminals n] (client.record (.listTerminals n))
        { noise := { sendNonce := link.noise.sendNonce + 1 }, encrypted := link.encrypted ++ [ciphertext], handed := link.handed }
        (.sending ciphertext .popSessionCmd) asked) := by
  refine ⟨⟨link.noise.sendNonce, .request (asking client n).request⟩, rfl, ?_⟩
  have he := (NoiseSession.encrypt_eq_ok (s := link.noise)).mpr
    ⟨fitsNoise_listTerminals hid, Nat.ne_of_lt hnonce, rfl, rfl⟩
  have hstep : Session.step (listing accepted [.listTerminals n] [] client link (.selecting .start) asked).session
      (.conn .sessionCmd) = some (Session.startSend
        (listing accepted [] [.listTerminals n] (client.record (.listTerminals n)) link (.selecting .start) asked).session
        { heartbeat := { lastInboundAtMs := 0 }, wait := .selecting .start }
        (.request (asking client n).request) .popSessionCmd) := rfl
  have hsend : Session.startSend
      (listing accepted [] [.listTerminals n] (client.record (.listTerminals n)) link (.selecting .start) asked).session
      { heartbeat := { lastInboundAtMs := 0 }, wait := .selecting .start }
      (.request (asking client n).request) .popSessionCmd =
      (listing accepted [] [.listTerminals n] (client.record (.listTerminals n))
        { noise := { sendNonce := link.noise.sendNonce + 1 }
          encrypted := link.encrypted ++ [⟨link.noise.sendNonce, .request (asking client n).request⟩]
          handed := link.handed }
        (.sending ⟨link.noise.sendNonce, .request (asking client n).request⟩ .popSessionCmd) asked).session := by
    unfold Session.startSend Session.encrypt
    dsimp only [listing, asking]
    rw [he]
  rw [hsend] at hstep
  exact step_session nofun hstep

/-- It has gone. -/
theorem step_sent {ciphertext : Ciphertext} (hframe : ciphertext.frame = .request (asking client n).request) :
    step (listing accepted [] [.listTerminals n] (client.record (.listTerminals n)) link
      (.sending ciphertext .popSessionCmd) asked) (.session (.conn .sent)) =
      some (listing accepted [] [] (client.record (.listTerminals n)) { link with handed := link.handed ++ [ciphertext] }
        .top (asked ++ [asking client n])) := by
  have hsending : (listing accepted [] [.listTerminals n] (client.record (.listTerminals n)) link
      (.sending ciphertext .popSessionCmd) asked).session.sendingAsk = some (asking client n) := by
    obtain ⟨nonce, frame⟩ := ciphertext
    cases hframe
    show Option.map _ ((client.runtime.pendingRequests.insert client.nextRequestId _).lookup client.nextRequestId) = _
    rw [AList.lookup_insert]
    rfl
  have hstep : Session.step (listing accepted [] [.listTerminals n] (client.record (.listTerminals n)) link
      (.sending ciphertext .popSessionCmd) asked).session (.conn .sent) =
      some (listing accepted [] [] (client.record (.listTerminals n)) { link with handed := link.handed ++ [ciphertext] }
        .top (asked ++ [asking client n])).session := rfl
  rw [step_session (by nofun) hstep]
  unfold askedAfter
  rw [hsending]
  rfl

theorem run_ask (asked : List Ask) (haccepted : some n ∉ accepted.map SessionCommand.reply) (hid : client.nextRequestId ≤ u32Max)
    (hnonce : link.noise.sendNonce < Saturating.u64Max) :
    ∃ link' : Link, link'.noise.sendNonce = link.noise.sendNonce + 1 ∧
      run step (listing accepted [] [] client link (.selecting .start) asked) (askMoves n) =
        some (listing (accepted ++ [.listTerminals n]) [] [] (client.record (.listTerminals n)) link' (.selecting .start)
          (asked ++ [asking client n])) := by
  obtain ⟨ciphertext, hframe, hsend⟩ := step_sessionCmd (accepted ++ [.listTerminals n]) n asked hid hnonce
  refine ⟨⟨⟨link.noise.sendNonce + 1⟩, link.encrypted ++ [ciphertext], link.handed ++ [ciphertext]⟩, rfl, ?_⟩
  unfold askMoves
  rw [Steps.run_cons, step_command haccepted, Option.bind_some, Steps.run_cons, hsend, Option.bind_some,
    Steps.run_cons, step_sent hframe, Option.bind_some, Steps.run_cons]
  rfl

theorem run_answer (accepted : List SessionCommand) (link : Link) (txn : RequestTxn) (asked : List Ask) {id r : Nat}
    (hlookup : client.runtime.pendingRequests.lookup id = some (.listTerminals r)) :
    run step (listing accepted [] [] client link (.selecting .start) (⟨⟨id, .listTerminals⟩, txn⟩ :: asked)) answerMoves =
      some (listing accepted [] [] ((client.forgetRequest id).reply r (.ok (.listTerminals []))) link (.selecting .start)
        asked) := by
  have hpoll : step (listing accepted [] [] client link (.selecting .start) (⟨⟨id, .listTerminals⟩, txn⟩ :: asked))
      (.session (.conn (.poll 0 0))) =
      some (listing accepted [] [] client link (.selecting .receiving) (⟨⟨id, .listTerminals⟩, txn⟩ :: asked)) := rfl
  have hhandle : client.handleInboundFrame (.response ⟨id, .ok (.listTerminals [])⟩) =
      .ok ((client.forgetRequest id).reply r (.ok (.listTerminals [])), .none) := by
    unfold ClientConn.handleInboundFrame ClientConn.handleResponseFrame
    dsimp only
    rw [hlookup]
    rfl
  have hanswer : step (listing accepted [] [] client link (.selecting .receiving) (⟨⟨id, .listTerminals⟩, txn⟩ :: asked))
      (.answer (.ok (.listTerminals [])) 0) =
      some (listing accepted [] [] ((client.forgetRequest id).reply r (.ok (.listTerminals []))) link .top asked) := by
    have hstep : Session.step (listing accepted [] [] client link (.selecting .receiving)
        (⟨⟨id, .listTerminals⟩, txn⟩ :: asked)).session (.conn (.frame (.response ⟨id, .ok (.listTerminals [])⟩) 0)) =
        some (listing accepted [] [] ((client.forgetRequest id).reply r (.ok (.listTerminals []))) link .top asked).session := by
      show some (Session.inbound (listing accepted [] [] client link (.selecting .receiving) asked).session
          { heartbeat := { lastInboundAtMs := 0 }, wait := .selecting .receiving }
          (.response ⟨id, .ok (.listTerminals [])⟩)) = _
      unfold Session.inbound
      dsimp only [listing]
      rw [hhandle]
      rfl
    exact step_answer rfl rfl hstep
  unfold answerMoves
  rw [Steps.run_cons, hpoll, Option.bind_some, Steps.run_cons, hanswer, Option.bind_some, Steps.run_cons]
  rfl

/-- Any number of lists, as far as the counter goes. -/
theorem run_rounds : ∀ n, n + 1 ≤ u32Max → ∃ is accepted client link,
    run step { session := .new none } is = some (listing accepted [] [] client link (.selecting .start) []) ∧
      client.nextRequestId = n + 1 ∧ link.noise.sendNonce = n + 1 ∧
      ∀ r, some r ∈ accepted.map SessionCommand.reply → r < n
  | 0, _ => ⟨Session.toSelect.map .session, [], {}, _, rfl, rfl, rfl, nofun⟩
  | n + 1, hn => by
    obtain ⟨is, accepted, client, link, hrun, hid, hnonce, haccepted⟩ := run_rounds n (Nat.le_of_lt hn)
    obtain ⟨link', hnonce', hask⟩ := run_ask []
      (fun h => Nat.lt_irrefl n (haccepted n h)) (by rw [hid]; exact Nat.le_of_lt hn) (by
        rw [hnonce]
        unfold Saturating.u64Max
        unfold u32Max at hn
        omega)
    have hlookup : (client.record (.listTerminals n)).runtime.pendingRequests.lookup client.nextRequestId =
        some (.listTerminals n) := AList.lookup_insert _
    have hanswer := run_answer (accepted ++ [.listTerminals n]) link' (.listTerminals n) [] hlookup
    have hall := (Steps.run_append ((Steps.run_append hrun).trans hask)).trans hanswer
    refine ⟨_, _, _, _, hall, ?_, by rw [hnonce', hnonce], ?_⟩
    · rw [(ClientConn.reply_runtime _ _ _).2]
      show Saturating.add u32Max client.nextRequestId 1 = n + 1 + 1
      rw [hid]
      unfold Saturating.add
      omega
    · intro r hr
      rw [List.map_append] at hr
      rcases List.mem_append.mp hr with hold | hnew
      · exact Nat.lt_succ_of_lt (haccepted r hold)
      · cases List.mem_singleton.mp hnew
        exact Nat.lt_succ_self n

/-- Behind the last identifier two requests share it, and the second response is for no request the client knows. -/
theorem identifiers_run_out : ∃ is x js y a,
    run step { session := .new none } is = some x ∧ x.outstanding.map Ask.id = [u32Max, u32Max] ∧
      run step x js = some y ∧ y.asked = [a] ∧ Conforms a.request.body (.ok (.listTerminals [])) = true ∧
      y.session.client.handleInboundFrame (.response ⟨a.id, .ok (.listTerminals [])⟩) =
        .error (ClientConn.unknownRequest "terminal list response" u32Max) := by
  obtain ⟨is, accepted, client, link, hrun, hid, hnonce, haccepted⟩ := run_rounds (u32Max - 1) (by decide)
  have hmax : client.nextRequestId = u32Max := hid
  have hnew : some (u32Max - 1) ∉ accepted.map SessionCommand.reply := fun h => Nat.lt_irrefl _ (haccepted _ h)
  obtain ⟨link₁, hnonce₁, hask₁⟩ := @run_ask accepted client link (u32Max - 1) [] hnew (Nat.le_of_eq hmax) (by
    rw [hnonce]
    decide)
  have hmax₁ : (client.record (.listTerminals (u32Max - 1))).nextRequestId = u32Max := by
    show Saturating.add u32Max client.nextRequestId 1 = u32Max
    rw [hmax]
    rfl
  obtain ⟨link₂, hnonce₂, hask₂⟩ := @run_ask (accepted ++ [.listTerminals (u32Max - 1)])
    (client.record (.listTerminals (u32Max - 1))) link₁ u32Max ([] ++ [asking client (u32Max - 1)]) (by
      intro h
      rw [List.map_append] at h
      rcases List.mem_append.mp h with h | h
      · exact absurd (haccepted _ h) (by decide)
      · exact absurd (Option.some.inj (List.mem_singleton.mp h)) (by decide)) (Nat.le_of_eq hmax₁) (by
    rw [hnonce₁, hnonce]
    decide)
  have hids : [client.nextRequestId, (client.record (.listTerminals (u32Max - 1))).nextRequestId] = [u32Max, u32Max] := by
    rw [hmax, hmax₁]
  generalize hc : client.record (.listTerminals (u32Max - 1)) = c₁ at *
  have hlookup : (c₁.record (.listTerminals u32Max)).runtime.pendingRequests.lookup client.nextRequestId =
      some (.listTerminals u32Max) := by
    rw [hmax, ← hmax₁]
    exact AList.lookup_insert _
  have hanswer := run_answer (accepted ++ [.listTerminals (u32Max - 1)] ++ [.listTerminals u32Max]) link₂
    (.listTerminals (u32Max - 1)) [asking c₁ u32Max] hlookup
  refine ⟨_, _, _, _, _, (Steps.run_append ((Steps.run_append hrun).trans hask₁)).trans hask₂, hids, hanswer, rfl, rfl, ?_⟩
  have hgone : (((c₁.record (.listTerminals u32Max)).forgetRequest client.nextRequestId).reply u32Max
      (.ok (.listTerminals []))).runtime.pendingRequests.lookup u32Max = none := by
    rw [(ClientConn.reply_runtime _ _ _).1, hmax]
    exact AList.lookup_erase _ _
  rw [show (asking c₁ u32Max).id = u32Max from hmax₁]
  unfold ClientConn.handleInboundFrame ClientConn.handleResponseFrame
  dsimp only [listing]
  rw [hgone]

end Exchange

end CliPocket
