import CliPocket.Client.Requests
import CliPocket.Lib.Steps

/-!
# A session and a daemon that answers in order

- `Exchange`: a session with the requests the daemon has not answered; each is answered once, in order, by a response
  that conforms;
- `Desk`: the requests outstanding are those the client has recorded, and every caller's reply is in one place;
- `requests_and_responses`: **what holds of requests and replies in every run**, as long as the counter is fresh.
-/

namespace CliPocket

open Saturating (u32Max)
open Steps (run Meets)
open PendingTable (Agree Counted)

/-! ## The exchange -/

namespace Session

/-- The request on its way to the daemon, with what is recorded for it. -/
def sendingAsk (s : Session) : Option Ask :=
  match s.inFlight with
  | some { frame := .request request, .. } =>
    (s.client.runtime.pendingRequests.lookup request.id).map fun txn => { request, txn }
  | _ => none

/-- A connection that may still have requests. -/
def live (s : Session) : Bool :=
  match s.phase with
  | .connected _ | .closing true _ => true
  | _ => false

end Session

/-- A session, and the requests of its connection that the daemon has and the client has no response to. -/
structure Exchange where
  session : Session
  asked : List Ask := []

namespace Exchange

/-- Only `answer` brings responses. -/
inductive Move
  | session (move : Session.Move)
  | answer (result : Except ResponseError ResponseBody) (nowMs : Nat)

/-- What the daemon has to answer after a move of the session. -/
def askedAfter (x : Exchange) (move : Session.Move) (t : Session) : List Ask :=
  if t.live then
    match move with
    | .conn .sent => x.asked ++ x.session.sendingAsk.toList
    | _ => x.asked
  else []

def step (x : Exchange) : Move → Option Exchange
  | .session (.conn (.frame (.response _) _)) => none
  | .session move => (x.session.step move).map fun t => { session := t, asked := x.askedAfter move t }
  | .answer result nowMs =>
    match x.asked with
    | [] => none
    | ask :: rest =>
      if Conforms ask.request.body result then
        (x.session.step (.conn (.frame (.response ⟨ask.id, result⟩) nowMs))).map fun t =>
          { session := t, asked := if t.live then rest else [] }
      else none

def outstanding (x : Exchange) : List Ask := x.asked ++ x.session.sendingAsk.toList

end Exchange

/-! ## Callers -/

def repliesOf (cmds : List SessionCommand) : List ReplyId := cmds.filterMap SessionCommand.reply

def askedReplies (asked : List Ask) : List ReplyId := asked.filterMap fun a => a.txn.reply

theorem askedReplies_cons_some {a : Ask} {asked : List Ask} {r : ReplyId} (h : a.txn.reply = some r) :
    askedReplies (a :: asked) = r :: askedReplies asked := List.filterMap_cons_some h

namespace Session

/-- Where the sender of a reply is held: in the channel, in the queue for resending, or in the table. -/
def Holds (s : Session) (r : ReplyId) : Prop :=
  r ∈ repliesOf s.sessionCmds ∨ r ∈ repliesOf s.pendingSessionCmds ∨
    ∃ id txn, s.client.runtime.pendingRequests.lookup id = some txn ∧ txn.reply = some r

/-- What the caller has got: what has been sent to it, or `Closed` when the sender has been dropped. -/
def Got (s : Session) (r : ReplyId) (result : Except ClientError ResponseBody) : Prop :=
  (r, result) ∈ s.client.replies ∨ (r ∉ s.client.replies.map Prod.fst ∧ ¬s.Holds r ∧ result = .error .closed)

/-- The command is kept for the next connection. -/
def Queued (s : Session) (r : ReplyId) : Prop := r ∈ repliesOf s.pendingSessionCmds

end Session

/-! ## The desk -/

/-- The places of the callers' replies: told, waiting to be framed, or waiting for a response. -/
def places (c : ClientConn) (cmds pending : List SessionCommand) (asked : List Ask) : List ReplyId :=
  c.replies.map Prod.fst ++ (repliesOf cmds ++ repliesOf pending) ++ askedReplies asked

/-- The client's books on `asked`, and on `sending` that is on its way, whose command is still queued. -/
structure Desk (c : ClientConn) (accepted cmds pending : List SessionCommand) (asked : List Ask) (sending : Option Ask) :
    Prop where
  agree : Agree Ask.id Ask.txn c.runtime.pendingRequests (asked ++ sending.toList)
  counted : Counted u32Max c.nextRequestId ((asked ++ sending.toList).map Ask.id)
  asks : ∀ a ∈ asked ++ sending.toList, Asks a.request.body a.txn = true ∧
    ∀ r, a.txn.reply = some r → ∃ cmd ∈ accepted, cmd.reply = some r ∧ cmd.request = some a.request.body
  nodup : (places c cmds pending asked).Nodup
  known : ∀ r ∈ places c cmds pending asked, some r ∈ accepted.map SessionCommand.reply
  queued : ∀ cmd ∈ cmds ++ pending, cmd.reply ≠ none → cmd ∈ accepted
  distinct : (accepted.map SessionCommand.reply).Nodup
  answered : ∀ r body, (r, .ok body) ∈ c.replies →
    ∃ cmd ∈ accepted, ∃ request, cmd.reply = some r ∧ cmd.request = some request ∧ Conforms request (.ok body) = true

variable {c d : ClientConn} {accepted cmds pending : List SessionCommand} {asked : List Ask} {sending : Option Ask}

theorem desk_new : Desk {} [] [] [] [] none where
  agree := PendingTable.agree_nil
  counted := ⟨by decide, by simp⟩
  asks := by simp
  nodup := List.nodup_nil
  known := by simp [places, repliesOf, askedReplies]
  queued := by simp
  distinct := List.nodup_nil
  answered := nofun

/-- Frames that neither ask nor answer. -/
theorem Desk.keep (h : Desk c accepted cmds pending asked sending) (hk : ClientConn.Keeps c d) :
    Desk d accepted cmds pending asked sending := by
  have hplaces : places d cmds pending asked = places c cmds pending asked := by
    unfold places
    rw [hk.replies]
  refine ⟨?_, ?_, h.asks, ?_, ?_, h.queued, h.distinct, ?_⟩
  · rw [hk.pending]
    exact h.agree
  · rw [hk.next]
    exact h.counted
  · rw [hplaces]
    exact h.nodup
  · rw [hplaces]
    exact h.known
  · rw [hk.replies]
    exact h.answered

/-- Commands are dropped. -/
theorem Desk.sublist (h : Desk c accepted cmds pending asked sending) {cmds' pending' : List SessionCommand}
    (hcmds : cmds'.Sublist cmds) (hpending : pending'.Sublist pending) :
    Desk c accepted cmds' pending' asked sending := by
  have hsub : (places c cmds' pending' asked).Sublist (places c cmds pending asked) := by
    unfold places repliesOf
    refine List.Sublist.append ?_ (List.Sublist.refl _)
    exact (List.Sublist.refl _).append ((hcmds.filterMap _).append (hpending.filterMap _))
  exact ⟨h.agree, h.counted, h.asks, h.nodup.sublist hsub, fun r hr => h.known r (hsub.subset hr),
    fun cmd hcmd => h.queued cmd ((hcmds.append hpending).subset hcmd), h.distinct, h.answered⟩

theorem places_reset (c : ClientConn) (cmds pending : List SessionCommand) (asked : List Ask) :
    (places { replies := c.replies } cmds pending []).Sublist (places c cmds pending asked) :=
  (List.Sublist.refl _).append (List.nil_sublist _)

/-- Nothing is outstanding behind the end of a connection. -/
theorem Desk.reset (h : Desk c accepted cmds pending asked sending) :
    Desk { replies := c.replies } accepted cmds pending [] none := by
  have hsub := places_reset c cmds pending asked
  exact ⟨PendingTable.agree_nil, desk_new.counted, by simp, h.nodup.sublist hsub, fun r hr => h.known r (hsub.subset hr),
    h.queued, h.distinct, h.answered⟩

/-- **A request is framed** under a fresh identifier, from the front of the queue or for nobody. -/
theorem Desk.record (h : Desk c accepted cmds pending asked none) {a : Ask} (hrecord : ClientConn.Recorded c d a)
    (hfresh : c.runtime.pendingRequests.lookup c.nextRequestId = none)
    (howner : ∀ r, a.txn.reply = some r → ∃ cmd ∈ accepted, cmd.reply = some r ∧ cmd.request = some a.request.body) :
    Desk d accepted cmds pending asked (some a) := by
  have hagree := h.agree
  have hcounted := h.counted
  rw [Option.toList_none, List.append_nil] at hagree hcounted
  have hid : a.id = c.nextRequestId := hrecord.id
  have hplaces : places d cmds pending asked = places c cmds pending asked := by
    unfold places
    rw [hrecord.replies]
  refine ⟨?_, ?_, ?_, ?_, ?_, h.queued, h.distinct, ?_⟩
  · rw [hrecord.pending]
    exact hagree.ask (by rw [hid]; exact hfresh)
  · rw [hrecord.next, Option.toList_some, List.map_append, List.map_singleton, hid]
    exact hcounted.ask
  · intro b hb
    rcases List.mem_append.mp hb with hold | hnew
    · exact h.asks b (List.mem_append_left _ hold)
    · rw [Option.toList_some, List.mem_singleton] at hnew
      subst hnew
      exact ⟨hrecord.asks, howner⟩
  · rw [hplaces]
    exact h.nodup
  · rw [hplaces]
    exact h.known
  · rw [hrecord.replies]
    exact h.answered

theorem places_takeUp (c : ClientConn) (cmd : SessionCommand) (cmds pending : List SessionCommand) (asked : List Ask) :
    (places c (cmd :: cmds) pending asked).Perm (places c cmds (pending ++ [cmd]) asked) := by
  have hhead : repliesOf (cmd :: cmds) = repliesOf [cmd] ++ repliesOf cmds := List.filterMap_append (l := [cmd])
  have hlast : repliesOf (pending ++ [cmd]) = repliesOf pending ++ repliesOf [cmd] := List.filterMap_append
  have hqueue : (repliesOf (cmd :: cmds) ++ repliesOf pending).Perm (repliesOf cmds ++ repliesOf (pending ++ [cmd])) := by
    rw [hhead, hlast, List.append_assoc, ← List.append_assoc (repliesOf cmds)]
    exact List.perm_append_comm
  exact (hqueue.append_left _).append_right _

/-- A command is taken from the channel to the queue. -/
theorem Desk.takeUp {cmd : SessionCommand} (h : Desk c accepted (cmd :: cmds) pending asked sending) :
    Desk c accepted cmds (pending ++ [cmd]) asked sending := by
  have hperm := places_takeUp c cmd cmds pending asked
  refine ⟨h.agree, h.counted, h.asks, hperm.nodup_iff.mp h.nodup, fun r hr => h.known r (hperm.mem_iff.mpr hr), ?_,
    h.distinct, h.answered⟩
  intro cmd' hcmd'
  refine h.queued cmd' ?_
  simp only [List.mem_append, List.mem_cons, List.not_mem_nil, or_false] at hcmd' ⊢
  rcases hcmd' with hc | hc | hc
  · exact .inl (.inr hc)
  · exact .inr hc
  · exact .inl (.inl hc)

theorem places_sent (c : ClientConn) (cmds pending : List SessionCommand) (asked : List Ask) {cmd : SessionCommand} {a : Ask}
    (hreply : a.txn.reply = cmd.reply) :
    (places c cmds (cmd :: pending) asked).Perm (places c cmds pending (asked ++ [a])) := by
  unfold places repliesOf askedReplies
  rw [List.filterMap_append]
  cases hr : cmd.reply with
  | none => simp [hr, hreply]
  | some r =>
    have hlast : [a].filterMap (fun a => a.txn.reply) = [r] := by simp [hreply, hr]
    rw [List.filterMap_cons_some hr, hlast]
    simp only [List.append_assoc]
    refine List.Perm.append_left _ (List.Perm.append_left _ ?_)
    rw [← List.append_assoc]
    exact (List.perm_append_singleton r _).symm

/-- **A request has gone**: the caller of the command at the front waits for the response. -/
theorem Desk.sent {cmd : SessionCommand} {a : Ask} (h : Desk c accepted cmds (cmd :: pending) asked (some a))
    (hreply : a.txn.reply = cmd.reply) : Desk c accepted cmds pending (asked ++ [a]) none := by
  have hperm := places_sent c cmds pending asked hreply
  refine ⟨?_, ?_, ?_, hperm.nodup_iff.mp h.nodup, fun r hr => h.known r (hperm.mem_iff.mpr hr), ?_, h.distinct, h.answered⟩
  · simpa using h.agree
  · simpa using h.counted
  · simpa using h.asks
  · intro cmd' hcmd'
    refine h.queued cmd' ?_
    rcases List.mem_append.mp hcmd' with hc | hp
    · exact List.mem_append_left _ hc
    · exact List.mem_append_right _ (List.mem_cons_of_mem _ hp)

theorem places_sentForNobody (c : ClientConn) (cmds pending : List SessionCommand) (asked : List Ask) {a : Ask}
    (hreply : a.txn.reply = none) : places c cmds pending (asked ++ [a]) = places c cmds pending asked := by
  unfold places askedReplies
  rw [List.filterMap_append]
  simp [hreply]

/-- A request for nobody has gone. -/
theorem Desk.sentForNobody {a : Ask} (h : Desk c accepted cmds pending asked (some a)) (hreply : a.txn.reply = none) :
    Desk c accepted cmds pending (asked ++ [a]) none := by
  have hplaces := places_sentForNobody c cmds pending asked hreply
  refine ⟨?_, ?_, ?_, ?_, ?_, h.queued, h.distinct, h.answered⟩
  · simpa using h.agree
  · simpa using h.counted
  · simpa using h.asks
  · rw [hplaces]
    exact h.nodup
  · rw [hplaces]
    exact h.known

/-- The caller of the oldest request is told, who had not been told before. -/
theorem Desk.replies_of_answered {a : Ask} {rest : List Ask} {result : Except ClientError ResponseBody}
    (h : Desk c accepted cmds pending (a :: rest) sending) (hd : ClientConn.Answered c d a result) :
    d.replies = c.replies ++ a.txn.reply.toList.map fun r => (r, result) := by
  rw [hd.replies]
  cases hr : a.txn.reply with
  | none => simp [ClientConn.replyTo]
  | some r =>
    have hfresh : r ∉ c.replies.map Prod.fst := by
      intro hmem
      have hnodup := h.nodup
      unfold places at hnodup
      rw [askedReplies_cons_some hr] at hnodup
      exact (List.nodup_append.mp hnodup).2.2 r (List.mem_append_left _ hmem) r List.mem_cons_self rfl
    show (c.reply r _).replies = _
    unfold ClientConn.reply
    rw [if_neg hfresh]
    rfl

theorem places_answer {a : Ask} {result : Except ClientError ResponseBody}
    (hreplies : d.replies = c.replies ++ a.txn.reply.toList.map fun r => (r, result)) (cmds pending : List SessionCommand)
    (rest : List Ask) : (places c cmds pending (a :: rest)).Perm (places d cmds pending rest) := by
  unfold places
  rw [hreplies]
  cases hr : a.txn.reply with
  | none => simp [askedReplies, hr]
  | some r =>
    rw [askedReplies_cons_some hr]
    simp only [Option.toList_some, List.map_append, List.map_cons, List.map_nil, List.append_assoc]
    refine List.Perm.append_left _ ?_
    simp only [List.singleton_append, ← List.append_assoc]
    exact List.perm_middle

/-- **A response to the oldest request**: its caller is told, and nobody else. -/
theorem Desk.answer {a : Ask} {rest : List Ask} {result : Except ResponseError ResponseBody}
    (h : Desk c accepted cmds pending (a :: rest) none) (hconforms : Conforms a.request.body result = true)
    (hd : ClientConn.Answered c d a (ClientConn.told result)) : Desk d accepted cmds pending rest none := by
  have hask := h.asks a (by simp)
  have hreplies := h.replies_of_answered hd
  have hperm := places_answer hreplies cmds pending rest
  have hagree := h.agree
  have hcounted := h.counted
  rw [Option.toList_none, List.append_nil] at hagree hcounted
  refine ⟨?_, ?_, ?_, hperm.nodup_iff.mp h.nodup, fun r hr => h.known r (hperm.mem_iff.mpr hr), h.queued, h.distinct, ?_⟩
  · rw [hd.pending, Option.toList_none, List.append_nil]
    exact hagree.answer
  · rw [hd.next, Option.toList_none, List.append_nil]
    exact hcounted.sublist (by simp)
  · intro b hb
    rw [Option.toList_none, List.append_nil] at hb
    exact h.asks b (by simp [hb])
  · intro r body hmem
    rw [hreplies] at hmem
    rcases List.mem_append.mp hmem with hold | hnew
    · exact h.answered r body hold
    · obtain ⟨r', hr', heq⟩ := List.mem_map.mp hnew
      rw [Prod.mk.injEq] at heq
      obtain ⟨rfl, htold⟩ := heq
      obtain ⟨cmd, hcmd, hreply, hrequest⟩ := hask.2 r' (Option.mem_toList.mp hr')
      cases result with
      | error error => cases htold
      | ok body' =>
        cases htold
        exact ⟨cmd, hcmd, _, hreply, hrequest, hconforms⟩

/-- **An end in order**: the callers that wait for a response are told the error. -/
theorem Desk.failAll (h : Desk c accepted cmds pending asked none) (error : ClientError) :
    Desk { replies := (c.failAllPendingRequests error).replies } accepted cmds pending [] none ∧
      c.replies <+: (c.failAllPendingRequests error).replies ∧
      (∀ r body, (r, .ok body) ∈ (c.failAllPendingRequests error).replies → (r, .ok body) ∈ c.replies) ∧
      ∀ r ∈ places { replies := (c.failAllPendingRequests error).replies } cmds pending [],
        r ∈ places c cmds pending asked := by
  obtain ⟨told, hreplies, htold, hnodup, _⟩ := c.failAllPendingRequests_spec error
  have hagree := h.agree
  rw [Option.toList_none, List.append_nil] at hagree
  have hasked : ∀ r ∈ told.map Prod.fst, r ∈ askedReplies asked := by
    intro r hr
    obtain ⟨p, hp, rfl⟩ := List.mem_map.mp hr
    obtain ⟨_, _, id, txn, hlookup, hreply⟩ := htold p hp
    obtain ⟨a, ha, _, rfl⟩ := (hagree.lookup id txn).mp hlookup
    exact List.mem_filterMap.mpr ⟨a, ha, hreply⟩
  have hplaces : places { replies := (c.failAllPendingRequests error).replies } cmds pending [] =
      (c.replies.map Prod.fst ++ told.map Prod.fst) ++ (repliesOf cmds ++ repliesOf pending) := by
    unfold places askedReplies
    rw [hreplies]
    simp
  have hsub : ∀ r ∈ places { replies := (c.failAllPendingRequests error).replies } cmds pending [],
      r ∈ places c cmds pending asked := by
    intro r hr
    rw [hplaces] at hr
    unfold places
    rcases List.mem_append.mp hr with hr | hr
    · rcases List.mem_append.mp hr with hold | hnew
      · exact List.mem_append_left _ (List.mem_append_left _ hold)
      · exact List.mem_append_right _ (hasked r hnew)
    · exact List.mem_append_left _ (List.mem_append_right _ hr)
  have hold := h.nodup
  unfold places at hold
  obtain ⟨hfront, _, hdisjoint⟩ := List.nodup_append.mp hold
  obtain ⟨hreplied, hqueue, hapart⟩ := List.nodup_append.mp hfront
  have herrors : ∀ r body, (r, .ok body) ∈ (c.failAllPendingRequests error).replies → (r, .ok body) ∈ c.replies := by
    intro r body hmem
    rw [hreplies] at hmem
    rcases List.mem_append.mp hmem with hmem | hmem
    · exact hmem
    · cases (htold _ hmem).1
  refine ⟨?_, hreplies ▸ List.prefix_append _ _, herrors, hsub⟩
  refine ⟨PendingTable.agree_nil, desk_new.counted, by simp, ?_, fun r hr => h.known r (hsub r hr), h.queued, h.distinct,
    fun r body hmem => h.answered r body (herrors r body hmem)⟩
  rw [hplaces, List.nodup_append, List.nodup_append]
  refine ⟨⟨hreplied, hnodup, ?_⟩, hqueue, ?_⟩
  · rintro r hr _ hr' rfl
    obtain ⟨p, hp, rfl⟩ := List.mem_map.mp hr'
    exact (htold p hp).2.1 hr
  · rintro r hr _ hr' rfl
    rcases List.mem_append.mp hr with hr | hr
    · exact hapart r hr r hr' rfl
    · exact hdisjoint r (List.mem_append_right _ hr') r (hasked r hr) rfl

theorem places_accept (c : ClientConn) (cmds pending : List SessionCommand) (asked : List Ask) {cmd : SessionCommand}
    {r : ReplyId} (hcmd : cmd.reply = some r) :
    (places c (cmds ++ [cmd]) pending asked).Perm (r :: places c cmds pending asked) := by
  unfold places repliesOf
  rw [List.filterMap_append, List.filterMap_cons_some hcmd, List.filterMap_nil]
  simp only [List.append_assoc, List.nil_append, List.cons_append]
  rw [← List.append_assoc]
  refine List.perm_middle.trans ?_
  rw [List.append_assoc]

/-- **A command is accepted** with a reply of its own. -/
theorem Desk.accept (h : Desk c accepted cmds pending asked sending) {cmd : SessionCommand} {r : ReplyId}
    (hcmd : cmd.reply = some r) (hfresh : some r ∉ accepted.map SessionCommand.reply) :
    Desk c (accepted ++ [cmd]) (cmds ++ [cmd]) pending asked sending := by
  have hmem : ∀ {cmd'}, cmd' ∈ accepted → cmd' ∈ accepted ++ [cmd] := List.mem_append_left _
  have hperm := places_accept c cmds pending asked hcmd
  have hnew : r ∉ places c cmds pending asked := fun hr => hfresh (h.known r hr)
  refine ⟨h.agree, h.counted, ?_, ?_, ?_, ?_, ?_, ?_⟩
  · intro a ha
    obtain ⟨hasks, howner⟩ := h.asks a ha
    refine ⟨hasks, fun r' hr' => ?_⟩
    obtain ⟨cmd', hcmd', hrest⟩ := howner r' hr'
    exact ⟨cmd', hmem hcmd', hrest⟩
  · exact hperm.nodup_iff.mpr (List.nodup_cons.mpr ⟨hnew, h.nodup⟩)
  · intro r' hr'
    rw [List.map_append]
    rcases List.mem_cons.mp (hperm.mem_iff.mp hr') with rfl | hr'
    · exact List.mem_append_right _ (by simp [hcmd])
    · exact List.mem_append_left _ (h.known r' hr')
  · intro cmd' hcmd' hne
    rw [List.append_assoc] at hcmd'
    rcases List.mem_append.mp hcmd' with hc | hc
    · exact hmem (h.queued cmd' (List.mem_append_left _ hc) hne)
    · rcases List.mem_append.mp hc with hc | hc
      · rw [List.mem_singleton.mp hc]
        exact List.mem_append_right _ List.mem_cons_self
      · exact hmem (h.queued cmd' (List.mem_append_right _ hc) hne)
  · rw [List.map_append, List.map_singleton, List.nodup_append]
    refine ⟨h.distinct, List.nodup_singleton _, ?_⟩
    rintro o ho _ ho' rfl
    rw [List.mem_singleton.mp ho', hcmd] at ho
    exact hfresh ho
  · intro r' body hr'
    obtain ⟨cmd', hcmd', hrest⟩ := h.answered r' body hr'
    exact ⟨cmd', hmem hcmd', hrest⟩

theorem repliesOf_shutdown (cmds : List SessionCommand) : repliesOf (cmds ++ [.shutdown]) = repliesOf cmds := by
  unfold repliesOf
  rw [List.filterMap_append]
  exact List.append_nil _

/-- A shutdown has no caller that waits. -/
theorem Desk.shutdown (h : Desk c accepted cmds pending asked sending) :
    Desk c accepted (cmds ++ [.shutdown]) pending asked sending := by
  have hplaces : places c (cmds ++ [.shutdown]) pending asked = places c cmds pending asked := by
    unfold places
    rw [repliesOf_shutdown]
  refine ⟨h.agree, h.counted, h.asks, hplaces ▸ h.nodup, hplaces ▸ h.known, ?_, h.distinct, h.answered⟩
  intro cmd hcmd hreply
  refine h.queued cmd ?_ hreply
  simp only [List.mem_append, List.mem_singleton] at hcmd ⊢
  rcases hcmd with (hc | rfl) | hc
  · exact .inl hc
  · exact absurd rfl hreply
  · exact .inr hc

end CliPocket
