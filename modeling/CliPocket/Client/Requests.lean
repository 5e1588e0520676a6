import CliPocket.Client.Nonces
import CliPocket.Lib.Pending

/-!
# Requests of a client and their responses

What commands and frames do to the table of pending requests and to the replies.

- `frameForSessionCommand_spec`, `frameForCommand_spec`: a command is recorded under the next identifier;
- `handleResponseFrame_spec`: **a conforming response is handled**, and tells the caller of its request alone;
- `handleInboundFrame_keeps`: other frames leave the table and the replies alone;
- `failAllPendingRequests_spec`: what the callers are told at an end in order.
-/

namespace CliPocket

open Saturating (u32Max)

/-! ## Requests and what is recorded for them -/

/-- What a command asks for. -/
def SessionCommand.request : SessionCommand → Option RequestBody
  | .createTerminal params _ => some (.createTerminal params)
  | .openTerminal terminal _ => some (.openTerminal terminal)
  | .listTerminals _ => some .listTerminals
  | .readHistory terminal before maxBytes _ => some (.readHistory terminal before maxBytes)
  | .getServerConfig _ => some .getServerConfig
  | .setServerConfig config _ => some (.setServerConfig config)
  | .killTerminal terminal _ => some (.killTerminal terminal)
  | .shutdown => none

/-- A result that answers a request: an error, or a body of its kind and for its terminal. -/
def Conforms : RequestBody → Except ResponseError ResponseBody → Bool
  | _, .error _ => true
  | .listTerminals, .ok (.listTerminals _) => true
  | .createTerminal _, .ok (.createTerminal _) => true
  | .openTerminal terminalId, .ok (.openTerminal ack) => ack.info.terminal = terminalId
  | .readHistory terminalId _ _, .ok (.readHistory page) => page.terminalId = terminalId
  | .killTerminal _, .ok .killTerminal => true
  | .getServerConfig, .ok (.getServerConfig _) => true
  | .setServerConfig _, .ok (.setServerConfig _) => true
  | .sendInput _ _, .ok .sendInput => true
  | .resizeTerminal _ _ _, .ok .resizeTerminal => true
  | _, _ => false

/-- What a request is recorded as. -/
def Asks : RequestBody → RequestTxn → Bool
  | .listTerminals, .listTerminals _ => true
  | .createTerminal _, .createTerminal _ => true
  | .openTerminal terminalId, .openTerminal target _ => target = terminalId
  | .readHistory terminalId _ _, .readHistory target _ => target = terminalId
  | .killTerminal _, .killTerminal _ => true
  | .getServerConfig, .getConfig _ => true
  | .setServerConfig _, .setConfig _ => true
  | .sendInput _ _, .sendInputAck => true
  | .resizeTerminal _ _ _, .resizeAck => true
  | _, _ => false

/-- A request with what the client knows of it. -/
structure Ask where
  request : RequestFrame
  txn : RequestTxn

def Ask.id (a : Ask) : Nat := a.request.id

/-! ## Commands -/

namespace ClientConn

variable {c d : ClientConn}

theorem clearActive_pendingRequests (r : RuntimeState) : r.clearActive.pendingRequests = r.pendingRequests := by
  unfold RuntimeState.clearActive
  split <;> rfl

/-- `c` with one more request, under the next identifier. -/
structure Recorded (c d : ClientConn) (a : Ask) : Prop where
  id : a.request.id = c.nextRequestId
  asks : Asks a.request.body a.txn = true
  pending : d.runtime.pendingRequests = c.runtime.pendingRequests.insert a.id a.txn
  next : d.nextRequestId = Saturating.add u32Max c.nextRequestId 1
  replies : d.replies = c.replies

theorem Recorded.clear {a : Ask} (h : Recorded c d a) : Recorded c d.clearActiveTerminal a where
  id := h.id
  asks := h.asks
  pending := (clearActive_pendingRequests _).trans h.pending
  next := h.next
  replies := h.replies

theorem recorded_record (c : ClientConn) {body : RequestBody} {txn : RequestTxn} (h : Asks body txn = true) :
    Recorded c (c.record txn) ⟨⟨c.nextRequestId, body⟩, txn⟩ := ⟨rfl, h, rfl, rfl, rfl⟩

/-- **A command of the session is recorded** as what it asks for, for its caller. -/
theorem frameForSessionCommand_spec {cmd : SessionCommand} {request : RequestFrame}
    (h : c.frameForSessionCommand cmd = some (d, request)) :
    ∃ txn, Recorded c d ⟨request, txn⟩ ∧ cmd.request = some request.body ∧ txn.reply = cmd.reply := by
  cases cmd with
  | createTerminal params reply =>
    cases h
    exact ⟨_, recorded_record c rfl, rfl, rfl⟩
  | openTerminal target reply =>
    cases h
    refine ⟨.openTerminal target reply, ?_, rfl, rfl⟩
    have hrecord : Recorded c (c.record (.openTerminal target reply))
        ⟨⟨c.nextRequestId, .openTerminal target⟩, .openTerminal target reply⟩ := recorded_record c (by simp [Asks])
    split
    · exact hrecord.clear
    · exact hrecord
  | listTerminals reply =>
    cases h
    exact ⟨_, recorded_record c rfl, rfl, rfl⟩
  | readHistory terminal before maxBytes reply =>
    cases h
    exact ⟨_, recorded_record c (by simp [Asks]), rfl, rfl⟩
  | getServerConfig reply =>
    cases h
    exact ⟨_, recorded_record c rfl, rfl, rfl⟩
  | setServerConfig config reply =>
    cases h
    exact ⟨_, recorded_record c rfl, rfl, rfl⟩
  | killTerminal terminal reply =>
    cases h
    refine ⟨.killTerminal (some reply), ?_, rfl, rfl⟩
    have hrecord : Recorded c (c.record (.killTerminal (some reply)))
        ⟨⟨c.nextRequestId, .killTerminal terminal⟩, .killTerminal (some reply)⟩ := recorded_record c rfl
    split
    · exact hrecord.clear
    · exact hrecord
  | shutdown => cases h

/-- A command of a terminal is recorded for nobody. -/
theorem frameForCommand_spec {cmd : TerminalCmd} {request : RequestFrame}
    (h : c.frameForCommand cmd = some (d, request)) : ∃ txn, Recorded c d ⟨request, txn⟩ ∧ txn.reply = none := by
  cases cmd with
  | input terminal bytes =>
    obtain ⟨handle, _, heq⟩ := Option.map_eq_some_iff.mp h
    cases heq
    exact ⟨_, recorded_record c rfl, rfl⟩
  | resize terminal cols rows =>
    obtain ⟨handle, _, heq⟩ := Option.map_eq_some_iff.mp h
    cases heq
    exact ⟨_, recorded_record c rfl, rfl⟩
  | kill terminal =>
    obtain ⟨handle, _, heq⟩ := Option.map_eq_some_iff.mp h
    cases heq
    exact ⟨_, recorded_record c rfl, rfl⟩

/-! ## Frames -/

/-- `c` without one request, whose caller has been told. -/
structure Answered (c d : ClientConn) (a : Ask) (result : Except ClientError ResponseBody) : Prop where
  pending : d.runtime.pendingRequests = c.runtime.pendingRequests.erase a.id
  next : d.nextRequestId = c.nextRequestId
  replies : d.replies = (c.replyTo a.txn.reply result).replies

@[simp] theorem reply_runtime (c : ClientConn) (r : ReplyId) (result : Except ClientError ResponseBody) :
    (c.reply r result).runtime = c.runtime ∧ (c.reply r result).nextRequestId = c.nextRequestId := by
  unfold reply
  split <;> exact ⟨rfl, rfl⟩

theorem replyTo_runtime (c : ClientConn) (caller : Option ReplyId) (result : Except ClientError ResponseBody) :
    (c.replyTo caller result).runtime = c.runtime ∧ (c.replyTo caller result).nextRequestId = c.nextRequestId := by
  cases caller with
  | none => exact ⟨rfl, rfl⟩
  | some r => exact reply_runtime c r result

/-- The replies depend on those there were alone. -/
theorem reply_replies (h : d.replies = c.replies) (r : ReplyId) (result : Except ClientError ResponseBody) :
    (d.reply r result).replies = (c.reply r result).replies := by
  unfold reply
  rw [h]
  split
  · exact h
  · rfl

theorem replyTo_replies (h : d.replies = c.replies) (caller : Option ReplyId) (result : Except ClientError ResponseBody) :
    (d.replyTo caller result).replies = (c.replyTo caller result).replies := by
  cases caller with
  | none => exact h
  | some r => exact reply_replies h r result

theorem answered_of_forget (h : d.runtime.pendingRequests = c.runtime.pendingRequests) (hn : d.nextRequestId = c.nextRequestId)
    (hr : d.replies = c.replies) (a : Ask) (result : Except ClientError ResponseBody) :
    Answered c ((d.forgetRequest a.id).replyTo a.txn.reply result) a result where
  pending := by
    rw [(replyTo_runtime _ _ _).1]
    exact congrArg (AList.erase a.id) h
  next := by
    rw [(replyTo_runtime _ _ _).2]
    exact hn
  replies := replyTo_replies (show (d.forgetRequest a.id).replies = c.replies from hr) _ _

/-- What the caller of a request is told. -/
def told : Except ResponseError ResponseBody → Except ClientError ResponseBody
  | .ok body => .ok body
  | .error error => .error (.proto error.message)

/-- **A conforming response is handled**: it is taken off the table, and the caller of its request is told. -/
theorem handleResponseFrame_spec (c : ClientConn) {a : Ask} {result : Except ResponseError ResponseBody}
    (hasks : Asks a.request.body a.txn = true) (hconforms : Conforms a.request.body result = true)
    (hlookup : c.runtime.pendingRequests.lookup a.id = some a.txn) :
    ∃ d action, c.handleResponseFrame ⟨a.id, result⟩ = .ok (d, action) ∧ Answered c d a (told result) ∧
      (action = .none ∨ ∃ event, action = .emit event) := by
  obtain ⟨⟨id, body⟩, txn⟩ := a
  have hforget := fun result => answered_of_forget (c := c) (d := c) rfl rfl rfl ⟨⟨id, body⟩, txn⟩ result
  change c.runtime.pendingRequests.lookup id = some txn at hlookup
  unfold handleResponseFrame
  cases result with
  | error error =>
    refine ⟨_, _, ?_, hforget _, .inl rfl⟩
    simp only [Ask.id, failRequest, hlookup]
    rfl
  | ok response =>
    cases response with
    | openTerminal ack =>
      cases body <;> simp [Conforms] at hconforms
      cases txn <;> simp [Asks] at hasks
      subst hasks
      simp only [Ask.id, hlookup, completeOpenTerminal, RuntimeState.setActive, forgetRequest, hconforms, ne_eq,
        not_true_eq_false, if_false]
      refine ⟨_, _, rfl, ⟨?_, ?_, ?_⟩, .inl rfl⟩
      · rw [(reply_runtime _ _ _).1]
        rfl
      · rw [(reply_runtime _ _ _).2]
      · refine reply_replies ?_ _ _
        rfl
    | readHistory page =>
      cases body <;> simp [Conforms] at hconforms
      cases txn <;> simp [Asks] at hasks
      refine ⟨_, _, ?_, hforget _, .inl rfl⟩
      simp only [Ask.id, hlookup, hasks, hconforms, ne_eq, not_true_eq_false, if_false]
      rfl
    | createTerminal info =>
      cases body <;> simp [Conforms] at hconforms
      cases txn <;> simp [Asks] at hasks
      refine ⟨_, .emit (.terminalCreated info), ?_, hforget _, .inr ⟨_, rfl⟩⟩
      simp only [Ask.id, hlookup]
      rfl
    | listTerminals terminals =>
      cases body <;> simp [Conforms] at hconforms
      cases txn <;> simp [Asks] at hasks
      refine ⟨_, _, ?_, hforget _, .inl rfl⟩
      simp only [Ask.id, hlookup]
      rfl
    | killTerminal | getServerConfig config | setServerConfig config =>
      cases body <;> simp [Conforms] at hconforms
      cases txn <;> simp [Asks] at hasks
      refine ⟨_, _, ?_, hforget _, .inl rfl⟩
      simp only [Ask.id, hlookup]
      rfl
    | sendInput | resizeTerminal =>
      cases body <;> simp [Conforms] at hconforms
      cases txn <;> simp [Asks] at hasks
      refine ⟨_, _, ?_, hforget _, .inl rfl⟩
      simp only [Ask.id, hlookup]
      rfl

/-- What neither asks nor answers. -/
structure Keeps (c d : ClientConn) : Prop where
  pending : d.runtime.pendingRequests = c.runtime.pendingRequests
  next : d.nextRequestId = c.nextRequestId
  replies : d.replies = c.replies

theorem acceptOutput_keeps (c : ClientConn) (stream : StreamDataFrame) (terminalId : TerminalId) :
    Keeps c (c.acceptOutput stream terminalId).1 := by
  unfold acceptOutput
  dsimp only
  split <;> exact ⟨rfl, rfl, rfl⟩

theorem handleStreamDataFrame_keeps {stream : StreamDataFrame} {action : Action}
    (h : c.handleStreamDataFrame stream = .ok (d, action)) : Keeps c d := by
  have haccept : ∀ {terminalId}, Except.ok (c.acceptOutput stream terminalId) = Except.ok (ε := ClientError) (d, action) →
      Keeps c d := by
    intro terminalId heq
    have hkeeps := acceptOutput_keeps c stream terminalId
    rw [Except.ok.inj heq] at hkeeps
    exact hkeeps
  unfold handleStreamDataFrame at h
  split at h
  · split at h
    · cases h
    · split at h
      · cases h
        exact ⟨rfl, rfl, rfl⟩
      · split at h
        · split at h
          · cases h
          · split at h
            · cases h
            · exact haccept h
        · exact haccept h
  · cases h

/-- Frames that are not responses leave requests and replies alone. -/
theorem handleInboundFrame_keeps {frame : FrameBody} {action : Action} (h : c.handleInboundFrame frame = .ok (d, action))
    (hframe : ∀ response, frame ≠ .response response) : Keeps c d := by
  unfold handleInboundFrame at h
  split at h
  · exact absurd rfl (hframe _)
  · exact handleStreamDataFrame_keeps h
  all_goals
    cases h
    exact ⟨rfl, rfl, rfl⟩

theorem handleStreamDataFrame_send {stream : StreamDataFrame} {out : FrameBody}
    (h : c.handleStreamDataFrame stream = .ok (d, .send out)) : False := by
  have haccept : ∀ terminalId, (c.acceptOutput stream terminalId).2 ≠ .send out := by
    intro terminalId
    unfold acceptOutput
    dsimp only
    split <;> nofun
  unfold handleStreamDataFrame at h
  split at h
  · split at h
    · cases h
    · split at h
      · cases h
      · split at h
        · split at h
          · cases h
          · split at h
            · cases h
            · exact haccept _ (congrArg Prod.snd (Except.ok.inj h))
        · exact haccept _ (congrArg Prod.snd (Except.ok.inj h))
  · cases h

/-- They are answered by pongs alone. -/
theorem handleInboundFrame_send {frame out : FrameBody} (h : c.handleInboundFrame frame = .ok (d, .send out))
    (hframe : ∀ response, frame ≠ .response response) : ∃ nonce, out = .pong nonce := by
  unfold handleInboundFrame at h
  split at h
  · exact absurd rfl (hframe _)
  · exact (handleStreamDataFrame_send h).elim
  · next event =>
    obtain ⟨body⟩ := event
    cases body <;> cases h
  · cases h
  · cases h
    exact ⟨_, rfl⟩
  · cases h

/-- Callers that are told the error, of those of `txns`. -/
theorem foldl_replyTo_spec (error : ClientError) : ∀ (txns : List RequestTxn) (c : ClientConn),
    ∃ told : List (ReplyId × Except ClientError ResponseBody),
      (txns.foldl (fun c txn => c.replyTo txn.reply (.error error)) c).replies = c.replies ++ told ∧
        (∀ p ∈ told, p.2 = .error error ∧ p.1 ∈ txns.filterMap RequestTxn.reply ∧ p.1 ∉ c.replies.map Prod.fst) ∧
        (told.map Prod.fst).Nodup ∧
        ∀ r ∈ txns.filterMap RequestTxn.reply, r ∈ (c.replies ++ told).map Prod.fst
  | [], c => ⟨[], by simp, by simp, List.nodup_nil, by simp⟩
  | txn :: txns, c => by
    obtain ⟨told, hreplies, htold, hnodup, hall⟩ := foldl_replyTo_spec error txns (c.replyTo txn.reply (.error error))
    rw [List.foldl_cons, hreplies]
    cases hreply : txn.reply with
    | none =>
      rw [hreply] at hreplies htold hall
      refine ⟨told, rfl, ?_, hnodup, ?_⟩
      · intro p hp
        obtain ⟨herror, hmem, hnew⟩ := htold p hp
        exact ⟨herror, by simpa [hreply] using hmem, hnew⟩
      · intro r hr
        exact hall r (by simpa [hreply] using hr)
    | some caller =>
      rw [hreply] at hreplies htold hall
      by_cases hknown : caller ∈ c.replies.map Prod.fst
      · have hsame : c.replyTo (some caller) (.error error) = c := if_pos hknown
        rw [hsame] at htold hall ⊢
        refine ⟨told, rfl, ?_, hnodup, ?_⟩
        · intro p hp
          obtain ⟨herror, hmem, hnew⟩ := htold p hp
          exact ⟨herror, by simp [hreply, hmem], hnew⟩
        · intro r hr
          rw [List.filterMap_cons_some hreply] at hr
          rcases List.mem_cons.mp hr with rfl | hr
          · rw [List.map_append]
            exact List.mem_append_left _ hknown
          · exact hall r hr
      · have hadded : (c.replyTo (some caller) (.error error)).replies = c.replies ++ [(caller, .error error)] := by
          show (c.reply caller (.error error)).replies = _
          unfold reply
          rw [if_neg hknown]
        rw [hadded] at htold hall ⊢
        refine ⟨(caller, .error error) :: told, by simp, ?_, ?_, ?_⟩
        · intro p hp
          rcases List.mem_cons.mp hp with rfl | hp
          · exact ⟨rfl, by simp [hreply], hknown⟩
          · obtain ⟨herror, hmem, hnew⟩ := htold p hp
            refine ⟨herror, by simp [hreply, hmem], fun hold => hnew ?_⟩
            rw [List.map_append]
            exact List.mem_append_left _ hold
        · rw [List.map_cons, List.nodup_cons]
          refine ⟨fun hmem => ?_, hnodup⟩
          obtain ⟨p, hp, heq⟩ := List.mem_map.mp hmem
          refine (htold p hp).2.2 ?_
          rw [heq]
          simp
        · intro r hr
          rw [List.filterMap_cons_some hreply] at hr
          rcases List.mem_cons.mp hr with rfl | hr
          · simp
          · have := hall r hr
            simpa using this

/-- **An end in order**: every caller of a pending request is told, and nobody else. -/
theorem failAllPendingRequests_spec (c : ClientConn) (error : ClientError) :
    ∃ told : List (ReplyId × Except ClientError ResponseBody),
      (c.failAllPendingRequests error).replies = c.replies ++ told ∧
        (∀ p ∈ told, p.2 = .error error ∧ p.1 ∉ c.replies.map Prod.fst ∧
          ∃ id txn, c.runtime.pendingRequests.lookup id = some txn ∧ txn.reply = some p.1) ∧
        (told.map Prod.fst).Nodup ∧
        ∀ id txn r, c.runtime.pendingRequests.lookup id = some txn → txn.reply = some r →
          r ∈ (c.failAllPendingRequests error).replies.map Prod.fst := by
  obtain ⟨told, hreplies, htold, hnodup, hall⟩ :=
    foldl_replyTo_spec error (c.runtime.pendingRequests.entries.map Sigma.snd) c
  rw [List.foldl_map] at hreplies
  refine ⟨told, hreplies, ?_, hnodup, ?_⟩
  · intro p hp
    obtain ⟨herror, hmem, hnew⟩ := htold p hp
    obtain ⟨txn, htxn, hreply⟩ := List.mem_filterMap.mp hmem
    obtain ⟨⟨id, txn'⟩, hentry, rfl⟩ := List.mem_map.mp htxn
    exact ⟨herror, hnew, id, txn', AList.mem_lookup_iff.mpr hentry, hreply⟩
  · intro id txn r hlookup hreply
    rw [show (c.failAllPendingRequests error).replies = c.replies ++ told from hreplies]
    refine hall r (List.mem_filterMap.mpr ⟨txn, ?_, hreply⟩)
    exact List.mem_map.mpr ⟨⟨id, txn⟩, AList.mem_lookup_iff.mp hlookup, rfl⟩

end ClientConn

end CliPocket
