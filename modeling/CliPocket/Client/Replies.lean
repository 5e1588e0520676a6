import CliPocket.Client.Correlation

/-!
# Replies in the runs of a session

- `Session.Books`: the desk of a session, with what its wait says of the request on its way;
- `Session.Flow`: where replies go in a step;
- `Books.connStep`, `Books.sent`, `Books.answer`, `Books.setupStep`, `Books.loopStep`, `Books.callerStep`: **every move
  keeps the books**, if no command is framed under an identifier that is outstanding (`Session.Spare`).
-/

namespace CliPocket

open Saturating (u32Max)

namespace Session

variable {s t u : Session} {c : Connection} {asked asked' asked'' : List Ask} {sending : Option Ask}

/-! ## Books -/

/-- What a wait says of the request on its way, and of the front of the queue. -/
def Front (s : Session) : Wait → Prop
  | .sending _ .popSessionCmd => ∃ cmd rest a, s.pendingSessionCmds = cmd :: rest ∧ s.sendingAsk = some a ∧
      a.txn.reply = cmd.reply
  | .sending _ .popCmd => ∃ a, s.sendingAsk = some a ∧ a.txn.reply = none
  | .selecting _ => s.pendingSessionCmds = [] ∧ s.sendingAsk = none
  | _ => s.sendingAsk = none

/-- The desk of the session, as it stands. -/
def AtDesk (s : Session) (asked : List Ask) (sending : Option Ask) : Prop :=
  Desk s.client s.accepted s.sessionCmds s.pendingSessionCmds asked sending

def replyPlaces (s : Session) (asked : List Ask) : List ReplyId :=
  places s.client s.sessionCmds s.pendingSessionCmds asked

structure Books (s : Session) (asked : List Ask) : Prop where
  desk : s.AtDesk asked s.sendingAsk
  front : match s.phase with
    | .connected c => s.Front c.wait
    | _ => s.sendingAsk = none

theorem Books.front_connected (h : s.Books asked) (hphase : s.phase = .connected c) : s.Front c.wait := by
  have hfront := h.front
  rw [hphase] at hfront
  exact hfront

/-- From `s` to `t`: replies stay told, those told at the end of a connection are errors, and the replies of commands
accepted before have not come back to a place they had left, or to the channel. -/
structure Flow (s : Session) (asked : List Ask) (t : Session) (asked' : List Ask) : Prop where
  accepted : s.accepted <+: t.accepted
  replies : s.client.replies <+: t.client.replies
  errors : t.live = false → ∀ r body, (r, .ok body) ∈ t.client.replies → (r, .ok body) ∈ s.client.replies
  places : ∀ r ∈ t.replyPlaces asked', some r ∈ s.accepted.map SessionCommand.reply → r ∈ s.replyPlaces asked
  cmds : ∀ r ∈ repliesOf t.sessionCmds, some r ∈ s.accepted.map SessionCommand.reply → r ∈ repliesOf s.sessionCmds

/-- Nobody is told. -/
theorem flow_of (haccepted : t.accepted = s.accepted) (hreplies : t.client.replies = s.client.replies)
    (hplaces : ∀ r ∈ t.replyPlaces asked', r ∈ s.replyPlaces asked)
    (hcmds : ∀ r ∈ repliesOf t.sessionCmds, r ∈ repliesOf s.sessionCmds) : Flow s asked t asked' where
  accepted := haccepted ▸ List.prefix_rfl
  replies := hreplies ▸ List.prefix_rfl
  errors := fun _ r body hr => by rwa [hreplies] at hr
  places := fun r hr _ => hplaces r hr
  cmds := fun r hr _ => hcmds r hr

theorem Flow.trans (h : Flow s asked u asked')
    (herrors : ∀ r body, (r, .ok body) ∈ u.client.replies → (r, .ok body) ∈ s.client.replies)
    (h' : Flow u asked' t asked'') : Flow s asked t asked'' where
  accepted := h.accepted.trans h'.accepted
  replies := h.replies.trans h'.replies
  errors := fun hlive r body hr => herrors r body (h'.errors hlive r body hr)
  places := fun r hr hknown => h.places r (h'.places r hr ((h.accepted.map _).subset hknown)) hknown
  cmds := fun r hr hknown => h.cmds r (h'.cmds r hr ((h.accepted.map _).subset hknown)) hknown

/-- `asked`, as long as the connection lives. -/
def stillAsked (t : Session) (asked : List Ask) : List Ask := if t.live then asked else []

/-- What is kept from `s` to `t`. -/
structure Onward (s : Session) (asked : List Ask) (t : Session) (asked' : List Ask) : Prop where
  books : t.Books asked'
  flow : Flow s asked t asked'

/-- What was done before, and told nobody. -/
theorem Onward.from (h : Onward u asked t asked') (haccepted : u.accepted = s.accepted)
    (hreplies : u.client.replies = s.client.replies) (hplaces : ∀ r ∈ u.replyPlaces asked, r ∈ s.replyPlaces asked)
    (hcmds : ∀ r ∈ repliesOf u.sessionCmds, r ∈ repliesOf s.sessionCmds) : Onward s asked t asked' :=
  ⟨h.books, (flow_of haccepted hreplies hplaces hcmds).trans (fun _ _ hr => hreplies ▸ hr) h.flow⟩

/-! ## Ends -/

theorem onward_stop (h : s.AtDesk [] none) : Onward s [] s.stop [] where
  books := ⟨Desk.sublist h (List.nil_sublist _) (List.nil_sublist _), rfl⟩
  flow := by
    refine flow_of rfl rfl (fun r hr => ?_) nofun
    have hsub : (s.stop.replyPlaces []).Sublist (s.replyPlaces []) :=
      ((List.Sublist.refl _).append ((List.nil_sublist _).append (List.nil_sublist _))).append (List.Sublist.refl _)
    exact hsub.subset hr

theorem onward_report {willRetry checkStop : Bool} {reason : String} (h : s.AtDesk [] none) :
    Onward s [] (s.report willRetry checkStop reason) [] :=
  ⟨⟨h, rfl⟩, flow_of rfl rfl (fun _ hr => hr) fun _ hr => hr⟩

theorem finish_live (s : Session) (reached : Bool) (outcome : Except ClientError Unit) :
    (s.finish reached outcome).live = false := by
  unfold finish
  dsimp only
  split
  · rfl
  · split <;> rfl

/-- What is left of a session when its connection has ended. -/
def unlinked (s : Session) : Session := { s with client := { replies := s.client.replies } }

theorem onward_unlinked (reached : Bool) (outcome : Except ClientError Unit) (h : s.unlinked.AtDesk [] none) :
    Onward s.unlinked [] (s.finish reached outcome) [] := by
  unfold finish
  dsimp only
  split
  · exact onward_stop h
  · split
    · exact ⟨⟨h, rfl⟩, flow_of rfl rfl (fun _ hr => hr) fun _ hr => hr⟩
    · exact ⟨⟨h, rfl⟩, flow_of rfl rfl (fun _ hr => hr) fun _ hr => hr⟩

/-- The connection has ended, and nobody has been told. -/
theorem onward_finish {reached : Bool} {outcome : Except ClientError Unit} (h : s.AtDesk asked sending) :
    Onward s asked (s.finish reached outcome) [] := by
  have hrest := onward_unlinked reached outcome (Desk.reset h : s.unlinked.AtDesk [] none)
  have hflow : Flow s asked s.unlinked [] :=
    flow_of rfl rfl (fun r hr => (places_reset _ _ _ _).subset hr) fun _ hr => hr
  exact ⟨hrest.books, hflow.trans (fun _ _ hr => hr) hrest.flow⟩

/-- **The connection has ended in order**: the callers that waited for a response are told the error. -/
theorem onward_breakWith {reached : Bool} {outcome : Except ClientError Unit} (h : s.AtDesk asked none) :
    Onward s asked (s.breakWith reached outcome) [] := by
  obtain ⟨error, heq⟩ : ∃ error, s.breakWith reached outcome =
      finish { s with client := s.client.failAllPendingRequests error } reached outcome := ⟨_, rfl⟩
  rw [heq]
  obtain ⟨hdesk, hreplies, herrors, hplaces⟩ := Desk.failAll h error
  have hrest := onward_unlinked (s := { s with client := s.client.failAllPendingRequests error }) reached outcome hdesk
  have hflow : Flow s asked (unlinked { s with client := s.client.failAllPendingRequests error }) [] :=
    ⟨List.prefix_rfl, hreplies, fun _ => herrors, fun r hr _ => hplaces r hr, fun _ hr _ => hr⟩
  exact ⟨hrest.books, hflow.trans herrors hrest.flow⟩

/-! ## A live connection -/

theorem sendingAsk_of_frame {ciphertext : Ciphertext} (hflight : s.inFlight = some ciphertext)
    (hframe : ∀ request, ciphertext.frame ≠ .request request) : s.sendingAsk = none := by
  unfold sendingAsk
  rw [hflight]
  split
  · next heq => exact absurd (congrArg Ciphertext.frame (Option.some.inj heq)) (hframe _)
  · rfl

theorem stillAsked_finish (s : Session) (reached : Bool) (outcome : Except ClientError Unit) (asked : List Ask) :
    (s.finish reached outcome).stillAsked asked = [] := by
  unfold stillAsked
  rw [finish_live]
  rfl

/-- The loop waits, and nothing is on its way. -/
theorem onward_wait (h : s.AtDesk asked none) (hphase : t.phase = .connected c) (hsending : t.sendingAsk = none)
    (hfront : t.Front c.wait) (hclient : t.client = s.client) (haccepted : t.accepted = s.accepted)
    (hcmds : t.sessionCmds = s.sessionCmds) (hpending : t.pendingSessionCmds = s.pendingSessionCmds) :
    Onward s asked t (t.stillAsked asked) := by
  have hlive : t.stillAsked asked = asked := by
    unfold stillAsked live
    rw [hphase]
    rfl
  have hplaces : t.replyPlaces asked = s.replyPlaces asked := by
    unfold replyPlaces
    rw [hclient, hcmds, hpending]
  rw [hlive]
  refine ⟨⟨?_, ?_⟩, flow_of haccepted (by rw [hclient]) (fun r hr => hplaces ▸ hr) fun r hr => hcmds ▸ hr⟩
  · rw [hsending]
    unfold AtDesk
    rw [hclient, haccepted, hcmds, hpending]
    exact h
  · rw [hphase]
    exact hfront

/-- **A request goes out**: it is on its way, with what is recorded for it. -/
theorem onward_startSend_request {a : Ask} {after : AfterSend} (h : s.AtDesk asked (some a))
    (hfront : (after = .popSessionCmd ∧ ∃ cmd rest, s.pendingSessionCmds = cmd :: rest ∧ a.txn.reply = cmd.reply) ∨
      (after = .popCmd ∧ a.txn.reply = none)) :
    Onward s asked (s.startSend c (.request a.request) after)
      ((s.startSend c (.request a.request) after).stillAsked asked) := by
  unfold startSend
  split
  · rw [stillAsked_finish]
    exact onward_finish h
  · next u ciphertext he =>
    obtain ⟨rfl, _, rfl⟩ := encrypt_eq_ok he
    have hlookup := PendingTable.Agree.lookup_of_mem (r := a) h.agree (by simp)
    have hsending : ∀ {link : Link} {nonce : Nat}, sendingAsk { s with
        link, phase := .connected { c with wait := .sending ⟨nonce, .request a.request⟩ after } } = some a := by
      intro link nonce
      show Option.map _ (s.client.runtime.pendingRequests.lookup a.id) = some a
      rw [hlookup]
      rfl
    refine ⟨⟨?_, ?_⟩, flow_of rfl rfl (fun _ hr => hr) fun _ hr => hr⟩
    · rw [hsending]
      exact h
    · rcases hfront with ⟨rfl, cmd, rest, hpending, hreply⟩ | ⟨rfl, hreply⟩
      · exact ⟨cmd, rest, a, hpending, hsending, hreply⟩
      · exact ⟨a, hsending, hreply⟩

/-- Something else goes out. -/
theorem onward_startSend {frame : FrameBody} (h : s.AtDesk asked none) (hframe : ∀ request, frame ≠ .request request) :
    Onward s asked (s.startSend c frame .nothing) ((s.startSend c frame .nothing).stillAsked asked) := by
  unfold startSend
  split
  · rw [stillAsked_finish]
    exact onward_finish h
  · next u ciphertext he =>
    obtain ⟨rfl, _, rfl⟩ := encrypt_eq_ok he
    have hsending : ∀ {link : Link} {nonce : Nat}, sendingAsk { s with
        link, phase := .connected { c with wait := .sending ⟨nonce, frame⟩ .nothing } } = none :=
      sendingAsk_of_frame rfl hframe
    exact onward_wait h rfl hsending hsending rfl rfl rfl rfl

/-- **A request is framed** under an identifier that is not outstanding. -/
theorem atDesk_record {client : ClientConn} {a : Ask} (h : s.AtDesk asked none)
    (hrecord : ClientConn.Recorded s.client client a)
    (hfresh : s.client.nextRequestId = u32Max → s.client.runtime.pendingRequests.lookup u32Max = none)
    (howner : ∀ r, a.txn.reply = some r → ∃ cmd ∈ s.accepted, cmd.reply = some r ∧ cmd.request = some a.request.body) :
    AtDesk { s with client } asked (some a) := by
  refine Desk.record h hrecord ?_ howner
  have hagree := h.agree
  have hcounted := h.counted
  rw [Option.toList_none, List.append_nil] at hagree hcounted
  rcases Nat.lt_or_ge s.client.nextRequestId u32Max with hlt | hge
  · have hnew := hcounted.fresh hlt
    cases hlookup : s.client.runtime.pendingRequests.lookup s.client.nextRequestId with
    | none => rfl
    | some txn =>
      obtain ⟨b, hb, hid, _⟩ := (hagree.lookup _ _).mp hlookup
      exact absurd (List.mem_map.mpr ⟨b, hb, hid⟩) hnew
  · have hmax := Nat.le_antisymm hcounted.next_le hge
    rw [hmax]
    exact hfresh hmax

/-- The identifier that comes next is not outstanding: below its largest value it never is. -/
def Spare (s : Session) : Prop :=
  s.client.nextRequestId = u32Max → s.client.runtime.pendingRequests.lookup u32Max = none

instance (s : Session) : Decidable s.Spare :=
  inferInstanceAs (Decidable (s.client.nextRequestId = u32Max → s.client.runtime.pendingRequests.lookup u32Max = none))

theorem replyPlaces_client {client : ClientConn} (h : client.replies = s.client.replies) (asked : List Ask) :
    ({ s with client } : Session).replyPlaces asked = s.replyPlaces asked := by
  unfold replyPlaces places
  rw [h]

theorem onward_framed {client : ClientConn} {a : Ask} {after : AfterSend} (h : s.AtDesk asked none) (hspare : s.Spare)
    (hrecord : ClientConn.Recorded s.client client a)
    (howner : ∀ r, a.txn.reply = some r → ∃ cmd ∈ s.accepted, cmd.reply = some r ∧ cmd.request = some a.request.body)
    (hfront : (after = .popSessionCmd ∧ ∃ cmd rest, s.pendingSessionCmds = cmd :: rest ∧ a.txn.reply = cmd.reply) ∨
      (after = .popCmd ∧ a.txn.reply = none))
    (ht : startSend { s with client } c (.request a.request) after = t) : Onward s asked t (t.stillAsked asked) := by
  subst ht
  have hsend := onward_startSend_request (c := c) (atDesk_record h hrecord hspare howner) hfront
  exact hsend.from rfl hrecord.replies (fun r hr => replyPlaces_client hrecord.replies asked ▸ hr) fun _ hr => hr

theorem onward_sendSessionCmd {cmd : SessionCommand} {rest : List SessionCommand} (h : s.AtDesk asked none)
    (hspare : s.Spare) (hpending : s.pendingSessionCmds = cmd :: rest) (hs : s.sendSessionCmd c cmd = some t) :
    Onward s asked t (t.stillAsked asked) := by
  obtain ⟨⟨client, request⟩, hframed, ht⟩ := Option.map_eq_some_iff.mp hs
  obtain ⟨txn, hrecord, hrequest, hreply⟩ := ClientConn.frameForSessionCommand_spec hframed
  refine onward_framed (a := ⟨request, txn⟩) h hspare hrecord ?_ (.inl ⟨rfl, cmd, rest, hpending, hreply⟩) ht
  intro r hr
  have hcmd : cmd.reply = some r := hreply.symm.trans hr
  refine ⟨cmd, h.queued cmd ?_ (by simp [hcmd]), hcmd, hrequest⟩
  rw [hpending]
  exact List.mem_append_right _ List.mem_cons_self

theorem onward_sendCmd {cmd : TerminalCmd} (h : s.AtDesk asked none)
    (hspare : (s.client.frameForCommand cmd).isSome → s.Spare) :
    Onward s asked (s.sendCmd c cmd) ((s.sendCmd c cmd).stillAsked asked) := by
  unfold sendCmd
  split
  · next client request hframed =>
    obtain ⟨txn, hrecord, hreply⟩ := ClientConn.frameForCommand_spec hframed
    refine onward_framed (a := ⟨request, txn⟩) h (hspare (by rw [hframed]; rfl)) hrecord ?_ (.inr ⟨rfl, hreply⟩) rfl
    intro r hr
    cases hreply.symm.trans hr
  · exact onward_wait h rfl rfl rfl rfl rfl rfl rfl

/-! ## Moves -/

/-- The request that a move is going to send. -/
def framed (s : Session) (move : ConnMove) : Option RequestFrame :=
  match s.phase, move with
  | .connected c, .turn nowMs nonce =>
    match (c.heartbeat.poll nowMs nonce).2 with
    | .wait =>
      match s.pendingSessionCmds with
      | cmd :: _ => (s.client.frameForSessionCommand cmd).map Prod.snd
      | [] => (coalescePendingInputFront s.pendingCmds).head?.bind fun cmd => (s.client.frameForCommand cmd).map Prod.snd
    | _ => none
  | .connected _, .sessionCmd => s.sessionCmds.head?.bind fun cmd => (s.client.frameForSessionCommand cmd).map Prod.snd
  | .connected _, .cmd => s.cmds.head?.bind fun cmd =>
    match cmd with
    | .input _ _ => none
    | cmd => (s.client.frameForCommand cmd).map Prod.snd
  | .connected c, .batched =>
    match c.wait with
    | .batching cmd _ => (s.client.frameForCommand cmd).map Prod.snd
    | _ => none
  | _, _ => none

theorem onward_turn (h : s.AtDesk asked none) (hphase : s.phase = .connected c) {nowMs nonce : Nat}
    (hspare : (s.framed (.turn nowMs nonce)).isSome → s.Spare) (hs : s.turn c nowMs nonce = some t) :
    Onward s asked t (t.stillAsked asked) := by
  unfold framed at hspare
  rw [hphase] at hspare
  dsimp only at hspare
  unfold turn at hs
  rcases c.heartbeat.poll_cases nowMs nonce with hpoll | hpoll | hpoll
  all_goals rw [hpoll] at hs hspare; dsimp only at hs hspare
  · split at hs
    all_goals cases hs
    · rw [stillAsked_finish]
      exact onward_finish h
    · next u ciphertext he =>
      obtain ⟨rfl, _, rfl⟩ := encrypt_eq_ok he
      exact onward_wait h rfl rfl rfl rfl rfl rfl rfl
  · cases hs
    exact ⟨⟨h, rfl⟩, flow_of rfl rfl (fun _ hr => hr) fun _ hr => hr⟩
  · split at hs
    · next cmd rest hpending =>
      rw [hpending] at hspare
      refine onward_sendSessionCmd h (hspare ?_) hpending hs
      obtain ⟨framed, hframed, _⟩ := Option.map_eq_some_iff.mp hs
      dsimp only
      rw [hframed]
      rfl
    · next hpending =>
      rw [hpending] at hspare
      split at hs
      all_goals cases hs
      · next cmd rest hcmds =>
        rw [hcmds] at hspare
        refine Onward.from (onward_sendCmd h fun hsome => hspare ?_) rfl rfl (fun _ hr => hr) fun _ hr => hr
        simpa using hsome
      · exact onward_wait h rfl rfl ⟨hpending, rfl⟩ rfl rfl rfl rfl

theorem onward_act {action : Action} (h : s.AtDesk asked none)
    (hsend : ∀ out, action = .send out → ∃ nonce, out = .pong nonce) :
    Onward s asked (s.act c action) ((s.act c action).stillAsked asked) := by
  cases action with
  | send out =>
    obtain ⟨nonce, rfl⟩ := hsend out rfl
    exact onward_startSend h nofun
  | emit event => exact onward_wait h rfl rfl rfl rfl rfl rfl rfl
  | «return» result =>
    have hdead : (s.breakWith true result).stillAsked asked = [] := stillAsked_finish _ _ _ _
    show Onward s asked (s.breakWith true result) ((s.breakWith true result).stillAsked asked)
    rw [hdead]
    exact onward_breakWith h
  | none => exact onward_wait h rfl rfl rfl rfl rfl rfl rfl

theorem onward_inbound {frame : FrameBody} (h : s.AtDesk asked none) (hframe : ∀ response, frame ≠ .response response) :
    Onward s asked (s.inbound c frame) ((s.inbound c frame).stillAsked asked) := by
  unfold inbound
  split
  · rw [stillAsked_finish]
    exact onward_finish h
  · next client action hhandle =>
    have hkeeps := ClientConn.handleInboundFrame_keeps hhandle hframe
    have hact : Onward { s with client } asked (act { s with client } c action)
        ((act { s with client } c action).stillAsked asked) := by
      refine onward_act (Desk.keep h hkeeps) ?_
      rintro out rfl
      exact ClientConn.handleInboundFrame_send hhandle hframe
    exact hact.from rfl hkeeps.replies (fun r hr => replyPlaces_client hkeeps.replies asked ▸ hr) fun _ hr => hr

theorem onward_pollRecv (h : s.AtDesk asked none) (hpending : s.pendingSessionCmds = []) {nowMs nonce : Nat} :
    Onward s asked (s.pollRecv c nowMs nonce) ((s.pollRecv c nowMs nonce).stillAsked asked) := by
  unfold pollRecv
  rcases c.heartbeat.poll_cases nowMs nonce with hpoll | hpoll | hpoll
  all_goals rw [hpoll]; dsimp only
  · split
    · rw [stillAsked_finish]
      exact onward_finish h
    · next u ciphertext he =>
      obtain ⟨rfl, _, rfl⟩ := encrypt_eq_ok he
      exact onward_wait h rfl rfl ⟨hpending, rfl⟩ rfl rfl rfl rfl
  · exact onward_wait h rfl rfl ⟨hpending, rfl⟩ rfl rfl rfl rfl
  · exact onward_wait h rfl rfl ⟨hpending, rfl⟩ rfl rfl rfl rfl

/-- Frames that are not responses. -/
def Unasked : ConnMove → Prop
  | .frame (.response _) _ => False
  | _ => True

theorem onward_selectStep {recv : RecvFuture} {move : ConnMove} (h : s.AtDesk asked none)
    (hpending : s.pendingSessionCmds = []) (hphase : s.phase = .connected c) (hmove : Unasked move)
    (hspare : (s.framed move).isSome → s.Spare) (hs : s.selectStep c recv move = some t) :
    Onward s asked t (t.stillAsked asked) := by
  unfold framed at hspare
  rw [hphase] at hspare
  unfold selectStep at hs
  split at hs
  · split at hs
    · cases hs
    · next rest hcmds =>
      cases hs
      have hrest : AtDesk { s with sessionCmds := rest } asked none := by
        refine Desk.sublist h ?_ (List.Sublist.refl _)
        rw [hcmds]
        exact List.sublist_cons_self _ _
      have hend : Onward { s with sessionCmds := rest } asked (finish { s with sessionCmds := rest } true (.ok ())) [] :=
        onward_finish hrest
      have hcmd : repliesOf s.sessionCmds = repliesOf rest := by
        rw [hcmds]
        rfl
      rw [stillAsked_finish]
      refine hend.from rfl rfl (fun r hr => ?_) fun r hr => hcmd ▸ hr
      unfold replyPlaces places at hr ⊢
      rw [hcmd]
      exact hr
    · next cmd rest hne hcmds =>
      rw [hcmds] at hspare
      have htaken : AtDesk { s with sessionCmds := rest, pendingSessionCmds := s.pendingSessionCmds ++ [cmd] } asked none := by
        refine Desk.takeUp ?_
        rw [← hcmds]
        exact h
      have hframed : (s.client.frameForSessionCommand cmd).isSome := by
        obtain ⟨framed, hframed, _⟩ := Option.map_eq_some_iff.mp hs
        exact Option.isSome_iff_exists.mpr ⟨framed, hframed⟩
      have hsend := onward_sendSessionCmd htaken (fun hmax => hspare (by simpa using hframed) hmax)
        (show s.pendingSessionCmds ++ [cmd] = cmd :: [] by rw [hpending]; rfl) hs
      refine hsend.from rfl rfl (fun r hr => ?_) fun r hr => ?_
      · unfold replyPlaces
        rw [hcmds]
        exact (places_takeUp _ _ _ _ _).mem_iff.mpr hr
      · rw [hcmds]
        exact (List.sublist_cons_self cmd rest).filterMap _ |>.subset hr
  · split at hs
    · cases hs
      rw [stillAsked_finish]
      exact onward_finish h
    · cases hs
  · split at hs
    · cases hs
    · split at hs
      · cases hs
      · cases hs
        exact onward_wait h rfl rfl rfl rfl rfl rfl rfl
      · next cmd cmds hne hcmds =>
        cases hs
        rw [hcmds] at hspare
        refine Onward.from (onward_sendCmd h fun hsome => hspare ?_) rfl rfl (fun _ hr => hr) fun _ hr => hr
        cases cmd with
        | input terminal bytes => exact (hne _ _ rfl).elim
        | resize terminal cols rows | kill terminal => simpa using hsome
  · split at hs
    · cases hs
    · unfold recvMove at hs
      split at hs
      all_goals cases hs
      · exact onward_pollRecv h hpending
      · exact onward_wait h rfl rfl ⟨hpending, rfl⟩ rfl rfl rfl rfl
      · rw [stillAsked_finish]
        exact (onward_finish (s := s.hand _) h).from rfl rfl (fun _ hr => hr) fun _ hr => hr
      · exact onward_wait h rfl rfl ⟨hpending, rfl⟩ rfl rfl rfl rfl
      · next frame nowMs => 
        refine onward_inbound h ?_
        rintro response rfl
        exact hmove
      all_goals
        rw [stillAsked_finish]
        exact onward_finish h

/-- **The transport has taken what was on its way**: from now on the daemon has the request. -/
theorem Books.sent (h : s.Books asked) (hs : s.connStep .sent = some t) :
    Onward s asked t (asked ++ s.sendingAsk.toList) ∧ t.live = true := by
  unfold connStep at hs
  split at hs
  · next c hphase =>
    have hfront := h.front_connected hphase
    split at hs
    all_goals first | contradiction | skip
    · next ciphertext after hwait _ =>
      rw [hwait] at hfront
      have hdesk := h.desk
      cases hs
      refine ⟨?_, rfl⟩
      cases after with
      | nothing =>
        have hnone : s.sendingAsk = none := hfront
        rw [hnone] at hdesk ⊢
        rw [Option.toList_none, List.append_nil]
        exact ⟨⟨hdesk, rfl⟩, flow_of rfl rfl (fun _ hr => hr) fun _ hr => hr⟩
      | popCmd =>
        obtain ⟨a, hsending, hreply⟩ := hfront
        rw [hsending] at hdesk ⊢
        refine ⟨⟨Desk.sentForNobody hdesk hreply, rfl⟩, flow_of rfl rfl (fun r hr => ?_) fun _ hr => hr⟩
        rw [replyPlaces, ← places_sentForNobody _ _ _ _ hreply]
        exact hr
      | popSessionCmd =>
        obtain ⟨cmd, rest, a, hpending, hsending, hreply⟩ := hfront
        rw [hsending] at hdesk ⊢
        unfold AtDesk at hdesk
        rw [hpending] at hdesk
        have htail : s.pendingSessionCmds.tail = rest := by rw [hpending]; rfl
        refine ⟨⟨?_, rfl⟩, flow_of rfl rfl (fun r hr => ?_) fun _ hr => hr⟩
        · show Desk s.client s.accepted s.sessionCmds s.pendingSessionCmds.tail (asked ++ [a]) none
          rw [htail]
          exact Desk.sent hdesk hreply
        · change r ∈ places s.client s.sessionCmds s.pendingSessionCmds.tail (asked ++ [a]) at hr
          unfold replyPlaces
          rw [htail] at hr
          rw [hpending]
          exact (places_sent _ _ _ _ hreply).mem_iff.mpr hr
    · unfold selectStep recvMove at hs
      dsimp only at hs
      split at hs
      · cases hs
      · split at hs <;> contradiction
  · cases hs

/-- **Other moves of a live connection**, but for responses. -/
theorem Books.connStep {move : ConnMove} (h : s.Books asked) (hmove : Unasked move) (hsent : move ≠ .sent)
    (hspare : (s.framed move).isSome → s.Spare) (hs : s.connStep move = some t) :
    Onward s asked t (t.stillAsked asked) := by
  unfold Session.connStep at hs
  split at hs
  · next c hphase =>
    have hfront := h.front_connected hphase
    have hdesk := h.desk
    split at hs
    · next hwait =>
      rw [hwait] at hfront
      rw [show s.sendingAsk = none from hfront] at hdesk
      exact onward_turn hdesk hphase hspare hs
    · exact absurd rfl hsent
    · next ciphertext after e hwait =>
      cases hs
      rw [stillAsked_finish]
      have hhand : (s.hand ciphertext).AtDesk asked s.sendingAsk := hdesk
      exact Onward.from (onward_finish hhand) rfl rfl (fun _ hr => hr) fun _ hr => hr
    · next hwait =>
      cases hs
      rw [hwait] at hfront
      rw [show s.sendingAsk = none from hfront] at hdesk
      exact onward_wait hdesk rfl rfl rfl rfl rfl rfl rfl
    · next cmd deferred hwait =>
      rw [hwait] at hfront
      rw [show s.sendingAsk = none from hfront] at hdesk
      split at hs
      · cases hs
      · split at hs
        all_goals cases hs
        · exact onward_wait hdesk rfl rfl rfl rfl rfl rfl rfl
        · exact onward_wait hdesk rfl rfl rfl rfl rfl rfl rfl
    · next cmd deferred hwait =>
      rw [hwait] at hfront
      rw [show s.sendingAsk = none from hfront] at hdesk
      unfold framed at hspare
      rw [hphase] at hspare
      dsimp only at hspare
      rw [hwait] at hspare
      cases hs
      refine Onward.from (onward_sendCmd hdesk fun hsome => hspare ?_) rfl rfl (fun _ hr => hr) fun _ hr => hr
      simpa using hsome
    · next recv hwait =>
      rw [hwait] at hfront
      obtain ⟨hpending, hnone⟩ := hfront
      rw [hnone] at hdesk
      exact onward_selectStep hdesk hpending hphase hmove hspare hs
    · cases hs
  · cases hs

/-- **A conforming response to the oldest request** is handled. -/
theorem Books.answer {a : Ask} {rest : List Ask} {result : Except ResponseError ResponseBody} {nowMs : Nat}
    (h : s.Books (a :: rest)) (hconforms : Conforms a.request.body result = true)
    (hs : s.connStep (.frame (.response ⟨a.id, result⟩) nowMs) = some t) : Onward s (a :: rest) t rest ∧ t.live = true := by
  have hphase : ∃ c, s.phase = .connected c := by
    unfold Session.connStep at hs
    split at hs
    · exact ⟨_, by assumption⟩
    · cases hs
  obtain ⟨c, hphase⟩ := hphase
  obtain ⟨recv, hwait, hrecv⟩ := recvMove_of_connStep hphase hs rfl
  have hfront := h.front_connected hphase
  rw [hwait] at hfront
  have hdesk := h.desk
  rw [hfront.2] at hdesk
  have hlookup := PendingTable.Agree.lookup_of_mem (r := a) hdesk.agree (by simp)
  obtain ⟨d, action, hhandle, hanswered, haction⟩ :=
    s.client.handleResponseFrame_spec (hdesk.asks a (by simp)).1 hconforms hlookup
  have hnext := Desk.answer hdesk hconforms hanswered
  cases recv with
  | receiving =>
    cases hrecv
    have hinbound : ∀ c, s.inbound c (.response ⟨a.id, result⟩) = act { s with client := d } c action := by
      intro c
      unfold inbound ClientConn.handleInboundFrame
      dsimp only
      rw [hhandle]
    rw [hinbound]
    have hplaces : ∀ r ∈ replyPlaces { s with client := d } rest, r ∈ s.replyPlaces (a :: rest) := fun r hr =>
      (places_answer (hdesk.replies_of_answered hanswered) _ _ _).mem_iff.mpr hr
    have hprefix : s.client.replies <+: d.replies := hdesk.replies_of_answered hanswered ▸ List.prefix_append _ _
    rcases haction with rfl | ⟨event, rfl⟩
    · exact ⟨⟨⟨hnext, rfl⟩, ⟨List.prefix_rfl, hprefix, fun hdead => Bool.noConfusion hdead, fun r hr _ => hplaces r hr,
        fun _ hr _ => hr⟩⟩, rfl⟩
    · exact ⟨⟨⟨hnext, rfl⟩, ⟨List.prefix_rfl, hprefix, fun hdead => Bool.noConfusion hdead, fun r hr _ => hplaces r hr,
        fun _ hr _ => hr⟩⟩, rfl⟩
  | start | pinging | closing => cases hrecv

theorem stillAsked_nil (t : Session) : t.stillAsked [] = [] := ite_self _

/-- Without a connection. -/
theorem onward_idle (ht : t.Books []) (hclient : t.client = s.client)
    (haccepted : t.accepted = s.accepted) (hcmds : t.sessionCmds = s.sessionCmds)
    (hpending : t.pendingSessionCmds = s.pendingSessionCmds) : Onward s [] t (t.stillAsked []) := by
  rw [stillAsked_nil]
  refine ⟨ht, flow_of haccepted (by rw [hclient]) (fun r hr => ?_) fun r hr => hcmds ▸ hr⟩
  unfold replyPlaces at hr ⊢
  rw [hclient, hcmds, hpending] at hr
  exact hr

theorem Books.setupStep {move : SetupMove} (h : s.Books asked) (hlive : s.live = false → asked = [])
    (hs : s.setupStep move = some t) : Onward s asked t (t.stillAsked asked) := by
  unfold Session.setupStep at hs
  split at hs
  · next setup hphase =>
    unfold live at hlive
    rw [hphase] at hlive
    obtain rfl := hlive rfl
    have hfront := h.front
    have hdesk := h.desk
    rw [hphase] at hfront
    rw [show s.sendingAsk = none from hfront] at hdesk
    split at hs
    · split at hs
      · cases hs
        rw [stillAsked_finish]
        exact onward_finish hdesk
      · next u ciphertext he =>
        obtain ⟨rfl, _, rfl⟩ := encrypt_eq_ok he
        cases hs
        exact onward_idle ⟨hdesk, rfl⟩ rfl rfl rfl rfl
    all_goals cases hs
    · exact onward_idle ⟨hdesk, rfl⟩ rfl rfl rfl rfl
    · rw [stillAsked_finish]
      exact Onward.from (onward_finish hdesk) rfl rfl (fun _ hr => hr) fun _ hr => hr
    · exact onward_idle ⟨hdesk, rfl⟩ rfl rfl rfl rfl
    · rw [stillAsked_finish]
      exact onward_finish hdesk
    · exact onward_idle ⟨hdesk, rfl⟩ rfl rfl rfl rfl
  · cases hs

theorem onward_top (h : s.AtDesk [] none) : Onward s [] s.top (s.top.stillAsked []) := by
  unfold top
  split
  · rw [stillAsked_nil]
    exact onward_stop h
  · exact onward_idle ⟨h, rfl⟩ rfl rfl rfl rfl

theorem stillAsked_breakWith (s : Session) (reached : Bool) (outcome : Except ClientError Unit) (asked : List Ask) :
    (s.breakWith reached outcome).stillAsked asked = [] := stillAsked_finish _ _ _ _

theorem Books.idle (h : s.Books []) (hdead : s.live = false) : s.AtDesk [] none := by
  have hfront := h.front
  have hdesk := h.desk
  unfold live at hdead
  split at hfront
  · next hphase =>
    rw [hphase] at hdead
    cases hdead
  · rw [hfront] at hdesk
    exact hdesk

theorem Books.loopStep {move : LoopMove} (h : s.Books asked) (hlive : s.live = false → asked = [])
    (hs : s.loopStep move = some t) : Onward s asked t (t.stillAsked asked) := by
  have hidle : s.live = false → asked = [] ∧ s.AtDesk [] none := by
    intro hdead
    obtain rfl := hlive hdead
    exact ⟨rfl, h.idle hdead⟩
  unfold live at hidle
  unfold Session.loopStep at hs
  split at hs
  · next hphase =>
    rw [hphase] at hidle
    obtain ⟨rfl, hdesk⟩ := hidle rfl
    cases hs
    exact onward_top hdesk
  · next hphase =>
    rw [hphase] at hidle
    obtain ⟨rfl, hdesk⟩ := hidle rfl
    cases hs
    exact onward_idle ⟨hdesk, rfl⟩ rfl rfl rfl rfl
  · next hphase =>
    rw [hphase] at hidle
    obtain ⟨rfl, hdesk⟩ := hidle rfl
    cases hs
    exact onward_idle ⟨hdesk, rfl⟩ rfl rfl rfl rfl
  · next hphase =>
    rw [hphase] at hidle
    obtain ⟨rfl, hdesk⟩ := hidle rfl
    rw [stillAsked_nil]
    split at hs
    all_goals cases hs
    · exact onward_stop hdesk
    · exact onward_report hdesk
  · next hphase =>
    have hfront := h.front
    have hdesk := h.desk
    rw [hphase] at hfront
    rw [show s.sendingAsk = none from hfront] at hdesk
    cases hs
    rw [stillAsked_breakWith]
    exact onward_breakWith hdesk
  · next hphase =>
    rw [hphase] at hidle
    obtain ⟨rfl, hdesk⟩ := hidle rfl
    cases hs
    exact onward_idle ⟨hdesk, rfl⟩ rfl rfl rfl rfl
  · next hphase =>
    rw [hphase] at hidle
    obtain ⟨rfl, hdesk⟩ := hidle rfl
    split at hs
    all_goals cases hs
    · rw [stillAsked_nil]
      exact onward_stop hdesk
    · exact onward_idle ⟨hdesk, rfl⟩ rfl rfl rfl rfl
  · next hphase =>
    rw [hphase] at hidle
    obtain ⟨rfl, hdesk⟩ := hidle rfl
    cases hs
    exact onward_top hdesk
  · cases hs

/-- The callers' calls. -/
theorem Books.callerStep {move : CallerMove} (h : s.Books asked) (hs : s.callerStep move = some t) :
    Onward s asked t asked := by
  have hfront := h.front
  have hdesk := h.desk
  unfold Session.callerStep at hs
  split at hs
  · cases hs
  · split at hs
    · next cmd =>
      split at hs
      · cases hs
      · next r hr =>
        split at hs
        · cases hs
        next hok =>
        cases hs
        rw [not_or] at hok
        have hperm := places_accept s.client s.sessionCmds s.pendingSessionCmds asked hr
        refine ⟨⟨Desk.accept hdesk hr hok.2, hfront⟩,
          ⟨List.prefix_append _ _, List.prefix_rfl, fun _ _ _ hr => hr, fun r' hr' hknown => ?_, fun r' hr' hknown => ?_⟩⟩
        · rcases List.mem_cons.mp (hperm.mem_iff.mp hr') with rfl | hold
          · exact absurd hknown hok.2
          · exact hold
        · obtain ⟨cmd', hcmd', hreply⟩ := List.mem_filterMap.mp hr'
          rcases List.mem_append.mp hcmd' with hold | hnew
          · exact List.mem_filterMap.mpr ⟨cmd', hold, hreply⟩
          · rw [List.mem_singleton.mp hnew, hr] at hreply
            rw [← hreply] at hknown
            exact absurd hknown hok.2
    · cases hs
      exact ⟨⟨hdesk, hfront⟩, flow_of rfl rfl (fun _ hr => hr) fun _ hr => hr⟩
    · split at hs <;> cases hs
      refine ⟨⟨Desk.shutdown hdesk, hfront⟩, flow_of rfl rfl (fun r hr => ?_) fun r hr => ?_⟩
      · unfold replyPlaces places at hr ⊢
        rw [repliesOf_shutdown] at hr
        exact hr
      · exact repliesOf_shutdown _ ▸ hr
    · split at hs <;> cases hs
      exact ⟨⟨hdesk, hfront⟩, flow_of rfl rfl (fun _ hr => hr) fun _ hr => hr⟩

/-! ## Who holds a reply -/

/-- The caller of the request on its way still has its command in the queue. -/
theorem Books.queued_of_sending (h : s.Books asked) {a : Ask} {r : ReplyId} (hsending : s.sendingAsk = some a)
    (hreply : a.txn.reply = some r) : s.Queued r := by
  have hfront := h.front
  have hnone : s.sendingAsk ≠ none := by
    rw [hsending]
    nofun
  split at hfront
  · next c hphase =>
    unfold Front at hfront
    split at hfront
    · obtain ⟨cmd, rest, b, hpending, hb, hcmd⟩ := hfront
      cases hsending.symm.trans hb
      unfold Queued repliesOf
      rw [hpending, List.filterMap_cons_some (hcmd.symm.trans hreply)]
      exact List.mem_cons_self
    · obtain ⟨b, hb, hcmd⟩ := hfront
      cases hsending.symm.trans hb
      cases hcmd.symm.trans hreply
    · exact absurd hfront.2 hnone
    · exact absurd hfront hnone
  · exact absurd hfront hnone

/-- A reply that has not been sent is held just when it has a place. -/
theorem Books.mem_replyPlaces_iff (h : s.Books asked) (r : ReplyId) :
    r ∈ s.replyPlaces asked ↔ r ∈ s.client.replies.map Prod.fst ∨ s.Holds r := by
  have hagree := h.desk.agree
  unfold replyPlaces places
  simp only [List.mem_append]
  constructor
  · rintro ((hr | hr | hr) | hr)
    · exact .inl hr
    · exact .inr (.inl hr)
    · exact .inr (.inr (.inl hr))
    · obtain ⟨a, ha, hreply⟩ := List.mem_filterMap.mp hr
      exact .inr (.inr (.inr ⟨a.id, a.txn, hagree.lookup_of_mem (List.mem_append_left _ ha), hreply⟩))
  · rintro (hr | hr | hr | ⟨id, txn, hlookup, hreply⟩)
    · exact .inl (.inl hr)
    · exact .inl (.inr (.inl hr))
    · exact .inl (.inr (.inr hr))
    · obtain ⟨a, ha, _, rfl⟩ := (hagree.lookup id txn).mp hlookup
      rcases List.mem_append.mp ha with ha | ha
      · exact .inr (List.mem_filterMap.mpr ⟨a, ha, hreply⟩)
      · exact .inl (.inr (.inr (h.queued_of_sending (Option.mem_toList.mp ha) hreply)))

/-- **What a caller has got it keeps.** -/
theorem Got.flow {r : ReplyId} {result : Except ClientError ResponseBody} (hgot : s.Got r result) (h : s.Books asked)
    (h' : Onward s asked t asked') (hknown : some r ∈ s.accepted.map SessionCommand.reply) : t.Got r result := by
  rcases hgot with hsent | ⟨hnew, hheld, rfl⟩
  · exact .inl (h'.flow.replies.subset hsent)
  · have hplaces : r ∉ t.replyPlaces asked' := by
      intro hr
      rcases (h.mem_replyPlaces_iff r).mp (h'.flow.places r hr hknown) with hr | hr
      · exact hnew hr
      · exact hheld hr
    rw [h'.books.mem_replyPlaces_iff] at hplaces
    exact .inr ⟨fun hr => hplaces (.inl hr), fun hr => hplaces (.inr hr), rfl⟩

/-- It has got one result. -/
theorem Got.unique {r : ReplyId} {result result' : Except ClientError ResponseBody} (h : s.Books asked)
    (hgot : s.Got r result) (hgot' : s.Got r result') : result = result' := by
  have hnodup : (s.client.replies.map Prod.fst).Nodup := (List.nodup_append.mp (List.nodup_append.mp h.desk.nodup).1).1
  rcases hgot with hsent | ⟨hnew, _, rfl⟩
  · rcases hgot' with hsent' | ⟨hnew', _⟩
    · exact congrArg Prod.snd (List.inj_on_of_nodup_map hnodup hsent hsent' rfl)
    · exact absurd (List.mem_map_of_mem hsent) hnew'
  · rcases hgot' with hsent' | ⟨_, _, rfl⟩
    · exact absurd (List.mem_map_of_mem hsent') hnew
    · rfl

end Session

end CliPocket
