import CliPocket.App.Workspace
import CliPocket.Daemon.Work
import CliPocket.Stream.Talk

/-!
# Lists of terminals and new terminals

The front end over one connection. What a list of terminals is answered with comes to it when a promise settles, what the
session emits comes to it as an event: two ways, on which one overtakes the other. Behind them is one queue.

- `Front.step`: one move of the connection, of the two ways, of the loop that handles events, or of the user;
- `Listing.known`: the terminals that there were when the daemon answered;
- `Front.timely`: no event of a new terminal overtakes a list that is older than the terminal;
- `stale_lists_hide_nothing`: **then no list that is older than a terminal hides it.**
-/

namespace CliPocket.App

open Steps (run Meets)

/-- What `list_terminals` has returned; `known` are the terminals that there were when the daemon answered. -/
structure Listing where
  terminals : List TerminalInfo
  known : List TerminalId
  deriving DecidableEq

/-- What is in the queue of the session actor. -/
inductive FrontEvent
  | list (listing : Listing)
  | client (event : ClientEvent)
  deriving DecidableEq

structure Front where
  talk : Talk
  /-- For each frame on its way to the client, the terminals that there were when the daemon sent it. -/
  stamps : List (List TerminalId) := []
  /-- Lists whose promises have not settled. -/
  answered : List Listing := []
  /-- Events that have not reached the listener. -/
  emitted : List ClientEvent := []
  queue : List FrontEvent := []
  workspace : WorkspaceState
  /-- `run.closed`. -/
  closed : Bool := false
  /-- The terminals whose `TerminalCreated` has been handled. -/
  created : List TerminalId := []

namespace Front

inductive Move
  | talk (move : Talk.Move)
  | settle (i : Nat)
  | deliver
  | handle
  | setActiveSessionId (terminalId : Option String)
  | removeTerminal (terminalId : String)
  | updateTerminalSize (terminalId : String) (cols rows : Nat)

/-- The lists among some replies. -/
def listings (known : List TerminalId) (replies : List (ReplyId × Except ClientError ResponseBody)) : List Listing :=
  replies.filterMap fun (_, result) =>
    match result with
    | .ok (.listTerminals terminals) => some { terminals, known }
    | _ => none

/-- What the session emits on a frame. -/
def emits (client : ClientConn) (frame : FrameBody) : List ClientEvent :=
  match client.handleInboundFrame frame with
  | .ok (_, .emit event) => [event]
  | _ => []

/-- The connection has moved. -/
def follow (s : Front) (move : Talk.Move) (talk : Talk) : Front :=
  match move, s.talk.toClient with
  | .clientRecv, frame :: _ =>
    { s with
      talk
      stamps := s.stamps.tail
      answered := s.answered ++ listings (s.stamps.headD []) (talk.client.replies.drop s.talk.client.replies.length)
      emitted := s.emitted ++ emits s.talk.client frame }
  | _, _ =>
    { s with
      talk
      stamps := s.stamps ++ List.replicate (talk.toClient.length - s.talk.toClient.length) talk.daemon.terminals.keys }

/-- `finishRun`, of a run that failed. -/
def failRun (s : Front) (message : String) : Front :=
  { s with workspace := s.workspace.markConnectionFailed message, closed := true }

/-- `handleEvent`. Output is for the registry of the terminal on screen. -/
def handleEvent (s : Front) : FrontEvent → Front
  | .list listing =>
    { s with workspace := s.workspace.syncTerminalList (listing.terminals.map serializeTerminalInfo) }
  | .client (.terminalCreated info) =>
    let parsed := serializeTerminalInfo info
    { s with
      workspace := (s.workspace.upsertTerminal parsed).setActiveSessionId (some parsed.terminal)
      created := s.created ++ [info.terminal] }
  | .client (.connected _ _) => { s with workspace := s.workspace.markConnected }
  | .client (.disconnected willRetry reason) =>
    if willRetry then { s with workspace := s.workspace.markDisconnected true (some reason) }
    else if s.workspace.connectionState = .connecting then s.failRun reason
    else { s with workspace := s.workspace.markDisconnected false (some reason), closed := true }
  | .client (.error message) => s.failRun message
  | .client .connecting | .client (.terminalOutput _ _ _) => s

/-- The loop of `consumeEvents`. -/
def handle (s : Front) : Option Front :=
  match s.closed, s.queue with
  | false, event :: queue => some (handleEvent { s with queue } event)
  | _, _ => none

def step (s : Front) : Move → Option Front
  | .talk move => (s.talk.step move).map fun talk => s.follow move talk
  | .settle i => s.answered[i]?.map fun listing =>
    { s with answered := s.answered.eraseIdx i, queue := s.queue ++ [.list listing] }
  | .deliver =>
    match s.emitted with
    | event :: emitted => some { s with emitted, queue := s.queue ++ [.client event] }
    | [] => none
  | .handle => s.handle
  | .setActiveSessionId terminalId => some { s with workspace := s.workspace.setActiveSessionId terminalId }
  | .removeTerminal terminalId => some { s with workspace := s.workspace.removeTerminal terminalId }
  | .updateTerminalSize terminalId cols rows =>
    some { s with workspace := s.workspace.updateTerminalSize terminalId cols rows }

/-- A connection that has come through its handshake, and a workspace that has been told so. -/
def new (terminals : AList fun _ : TerminalId => Terminal) (maxTerminals scrollbackBytes : Nat) (workspace : WorkspaceState) :
    Front where
  talk := Talk.new terminals maxTerminals scrollbackBytes
  workspace := workspace.markConnected

/-- An event of a new terminal overtakes no list that is older than the terminal. -/
def timely (s : Front) : Move → Bool
  | .deliver =>
    match s.emitted with
    | .terminalCreated info :: _ => s.answered.all fun listing => info.terminal ∈ listing.known
    | _ => true
  | _ => true

/-- The list at the front of the queue takes no terminal off the table, or off the screen, whose creation has been handled
and that it is older than. -/
def HidesNothing (s : Front) : Prop :=
  ∀ t, s.step .handle = some t → ∀ listing rest, s.queue = .list listing :: rest → ∀ id ∈ s.created, id ∉ listing.known →
    (s.workspace.Shows id.uuid.display → t.workspace.Shows id.uuid.display) ∧
      (s.workspace.activeSessionId = some id.uuid.display → t.workspace.activeSessionId = some id.uuid.display)

end Front

/-! ## What a connection carries -/

section Carried

variable {d e : Daemon} {u v : Talk}

/-- The terminal whose creation the frame tells of. -/
def creates : FrameBody → Option TerminalId
  | .response ⟨_, .ok (.createTerminal info)⟩ => some info.terminal
  | .event ⟨.terminalCreated info⟩ => some info.terminal
  | _ => none

/-- `e` has the terminals of `d`, and each that the frame tells of. -/
structure Carries (d e : Daemon) (reply : Option FrameBody) : Prop where
  keys : d.terminals.keys ⊆ e.terminals.keys
  creates : ∀ frame, reply = some frame → ∀ id, App.creates frame = some id → id ∈ e.terminals.keys

theorem carries_same {reply : Option FrameBody} (hkeys : e.terminals = d.terminals)
    (hreply : ∀ frame, reply = some frame → App.creates frame = none) : Carries d e reply where
  keys := by rw [hkeys]; exact List.Subset.refl _
  creates frame hframe id hid := by
    rw [hreply frame hframe] at hid
    cases hid

theorem carries_silent (hkeys : e.terminals = d.terminals) : Carries d e none := carries_same hkeys nofun

theorem keys_setTerminal (d : Daemon) (id : TerminalId) (t : Terminal) :
    d.terminals.keys ⊆ (d.setTerminal id t).terminals.keys := by
  intro id' hid'
  exact AList.mem_keys.mp ((AList.mem_insert _).mpr (.inr (AList.mem_keys.mpr hid')))

theorem carries_setTerminal (d : Daemon) (id : TerminalId) (t : Terminal) {reply : Option FrameBody}
    (hreply : ∀ frame, reply = some frame → App.creates frame = none) : Carries d (d.setTerminal id t) reply where
  keys := keys_setTerminal d id t
  creates frame hframe id hid := by
    rw [hreply frame hframe] at hid
    cases hid

/-- A terminal is created. -/
theorem create_keys {params : TerminalCreateParams} {env : Env} {info : TerminalInfo}
    (h : d.create params env = .ok (e, info)) : d.terminals.keys ⊆ e.terminals.keys ∧ info.terminal ∈ e.terminals.keys := by
  unfold Daemon.create at h
  split at h
  · cases h
  · split at h
    · cases h
    · split at h
      · cases h
      · cases h
        refine ⟨fun id hid => ?_, ?_⟩
        · exact AList.mem_keys.mp ((AList.mem_insert _).mpr (.inr (AList.mem_keys.mpr hid)))
        · exact AList.mem_keys.mp ((AList.mem_insert _).mpr (.inl rfl))

/-- A request. -/
theorem carries_handleRequest (d : Daemon) (request : RequestFrame) (env : Env) :
    Carries d (d.handleRequest request env).1 (some (.response (d.handleRequest request env).2)) := by
  have hsame : ∀ {e : Daemon} {response : ResponseFrame}, e.terminals = d.terminals →
      App.creates (.response response) = none → Carries d e (some (.response response)) := by
    intro e response hkeys hnone
    refine carries_same hkeys ?_
    rintro _ ⟨⟩
    exact hnone
  unfold Daemon.handleRequest
  dsimp only
  split
  case h_2 =>
    split
    · next info hcreate =>
      obtain ⟨hkeys, hnew⟩ := create_keys hcreate
      refine ⟨hkeys, ?_⟩
      rintro _ ⟨⟩ _ ⟨⟩
      exact hnew
    · exact hsame rfl rfl
  case h_5 =>
    split
    · exact hsame rfl rfl
    · split
      · exact hsame rfl rfl
      · split <;> exact hsame rfl rfl
  case h_9 =>
    split
    · split
      · split
        · exact hsame rfl rfl
        · refine carries_setTerminal _ _ _ ?_
          rintro _ ⟨⟩
          rfl
      · exact hsame rfl rfl
    · exact hsame rfl rfl
  all_goals first
    | exact hsame rfl rfl
    | split <;> exact hsame rfl rfl

/-- A frame of the client's. -/
theorem carries_receiveFrame {frame : FrameBody} {env : Env} {reply : Option FrameBody}
    (h : d.receiveFrame frame env = some (e, reply)) : Carries d e reply := by
  unfold Daemon.receiveFrame at h
  split at h
  · split at h
    · next id terminalId =>
      unfold Daemon.openStart at h
      split at h
      · next hopen =>
        split at hopen
        · cases hopen
          cases h
          refine carries_same rfl ?_
          rintro _ ⟨⟩
          rfl
        · cases hopen
          cases h
          exact carries_silent rfl
    · cases h
      exact carries_handleRequest d _ env
    · cases h
      refine carries_same rfl ?_
      rintro _ ⟨⟩
      rfl
    · cases h
      exact carries_silent rfl
    · cases h
      exact carries_silent rfl
  · cases h

/-- What a move of a connection does to the frames on their way to the client. -/
inductive Traffic (u : Talk) (move : Talk.Move) (v : Talk) : Prop
  | recv (frame : FrameBody) (recv : move = .clientRecv) (toClient : u.toClient = frame :: v.toClient)
      (daemon : v.daemon = u.daemon)
  | sent (frame : Option FrameBody) (recv : move ≠ .clientRecv) (toClient : v.toClient = u.toClient ++ frame.toList)
      (carries : Carries u.daemon v.daemon frame)

theorem clientSend_toClient (u : Talk) (frame : FrameBody) :
    (u.clientSend frame).toClient = u.toClient ∧ (u.clientSend frame).daemon = u.daemon := by
  unfold Talk.clientSend
  split <;> exact ⟨rfl, rfl⟩

/-- The daemon sends a frame, or ends the connection. -/
theorem traffic_daemonSends {move : Talk.Move} {reply : Option FrameBody} {w : Talk} (hmove : move ≠ .clientRecv)
    (hw : w.toClient = u.toClient) (h : Carries u.daemon w.daemon reply) : Traffic u move (w.daemonSends reply) := by
  cases reply with
  | none => exact .sent none hmove (by rw [Option.toList_none, List.append_nil]; exact hw) h
  | some frame =>
    unfold Talk.daemonSends Talk.daemonSend
    dsimp only
    split
    · exact .sent (some frame) hmove (by rw [hw]; rfl) h
    · exact .sent none hmove (by rw [Option.toList_none, List.append_nil]; exact hw) ⟨h.keys, nofun⟩

theorem traffic_silent {move : Talk.Move} (hmove : move ≠ .clientRecv) (htoClient : v.toClient = u.toClient)
    (hkeys : u.daemon.terminals.keys ⊆ v.daemon.terminals.keys) : Traffic u move v :=
  .sent none hmove (by rw [htoClient, Option.toList_none, List.append_nil]) ⟨hkeys, nofun⟩

theorem traffic_ask {move : Talk.Move} (hmove : move ≠ .clientRecv) {framed : Option (ClientConn × RequestFrame)}
    (h : u.ask framed = some v) : Traffic u move v := by
  obtain ⟨⟨client, request⟩, _, rfl⟩ := Option.map_eq_some_iff.mp h
  dsimp only
  obtain ⟨htoClient, hdaemon⟩ := clientSend_toClient { u with client, forgotten := _ } (.request request)
  exact traffic_silent hmove htoClient (by rw [hdaemon]; exact List.Subset.refl _)

theorem traffic_clientRecv (h : u.clientRecv = some v) : Traffic u .clientRecv v := by
  unfold Talk.clientRecv at h
  split at h
  · cases h
  · next frame rest hframes =>
    split at h
    · cases h
      exact .recv frame rfl hframes rfl
    · next client action _ =>
      cases h
      have hnote : ∀ w : Talk, (w.note frame action).toClient = w.toClient ∧ (w.note frame action).daemon = w.daemon := by
        intro w
        unfold Talk.note
        split <;> exact ⟨rfl, rfl⟩
      have hact : ∀ w : Talk, (w.act action).toClient = w.toClient ∧ (w.act action).daemon = w.daemon := by
        intro w
        unfold Talk.act
        split
        · exact clientSend_toClient w _
        all_goals exact ⟨rfl, rfl⟩
      refine .recv frame rfl ?_ ?_
      · rw [(hact _).1, (hnote _).1]
        exact hframes
      · rw [(hact _).2, (hnote _).2]

/-- **One move of a connection.** -/
theorem traffic_step {move : Talk.Move} (h : u.step move = some v) : Traffic u move v := by
  unfold Talk.step at h
  split at h
  · cases h
  · cases move with
    | command cmd => exact traffic_ask nofun h
    | terminalCommand cmd => exact traffic_ask nofun h
    | ping nonce =>
      cases h
      obtain ⟨htoClient, hdaemon⟩ := clientSend_toClient u (.ping nonce)
      exact traffic_silent nofun htoClient (by rw [hdaemon]; exact List.Subset.refl _)
    | clientRecv => exact traffic_clientRecv h
    | daemonRecv env =>
      dsimp only at h
      unfold Talk.daemonRecv at h
      split at h
      · cases h
      · split at h
        · obtain ⟨⟨d, reply⟩, hreceive, rfl⟩ := Option.map_eq_some_iff.mp h
          exact traffic_daemonSends (w := { u with daemon := d, toDaemon := _ }) nofun rfl (carries_receiveFrame hreceive)
        · cases h
    | openStep =>
      obtain ⟨⟨d, reply⟩, hopen, rfl⟩ := Option.map_eq_some_iff.mp h
      refine traffic_daemonSends (w := { u with daemon := d }) nofun rfl ?_
      obtain ⟨_, _, _, _, _, _, rfl, rfl⟩ | ⟨_, _, _, _, _, _, _, rfl, rfl⟩ | ⟨_, _, _, _, _, _, ⟨rfl, rfl⟩ | ⟨_, _, rfl, rfl⟩⟩ |
        ⟨_, _, _, _, _, _, _, _, _, rfl, rfl⟩ := Daemon.openStep_cases hopen
      · exact carries_silent rfl
      · exact carries_silent rfl
      · refine carries_same rfl ?_
        rintro _ ⟨⟩
        rfl
      · exact carries_silent rfl
      · refine carries_same rfl ?_
        rintro _ ⟨⟩
        rfl
    | output =>
      obtain ⟨⟨d, data⟩, houtput, rfl⟩ := Option.map_eq_some_iff.mp h
      refine traffic_daemonSends (w := { u with daemon := d }) nofun rfl ?_
      obtain ⟨_, _, _, _, rfl, _⟩ := Daemon.output_cases houtput
      refine carries_same rfl ?_
      intro frame hframe
      obtain ⟨data, _, rfl⟩ := Option.map_eq_some_iff.mp hframe
      rfl
    | revoked =>
      dsimp only at h
      split at h
      · cases h
        unfold Talk.daemonSend
        split
        · refine .sent (some (.bye .revoked)) nofun rfl (carries_same rfl ?_)
          rintro _ ⟨⟩
          rfl
        · exact traffic_silent nofun rfl (List.Subset.refl _)
      · cases h
    | receive i =>
      obtain ⟨d, hreceive, rfl⟩ := Option.map_eq_some_iff.mp h
      obtain ⟨_, _, _, _, _, _, _, _, _, rfl⟩ := Daemon.forwarderReceive_cases hreceive
      exact traffic_silent nofun rfl (List.Subset.refl _)
    | enqueue i =>
      obtain ⟨d, henqueue, rfl⟩ := Option.map_eq_some_iff.mp h
      obtain ⟨_, _, _, _, _, _, rfl⟩ := Daemon.forwarderEnqueue_cases henqueue
      exact traffic_silent nofun rfl (List.Subset.refl _)
    | cancel i =>
      obtain ⟨d, hcancel, rfl⟩ := Option.map_eq_some_iff.mp h
      obtain ⟨_, _, _, rfl⟩ := Daemon.forwarderCancel_cases hcancel
      exact traffic_silent nofun rfl (List.Subset.refl _)
    | terminal id move =>
      dsimp only at h
      split at h
      · cases h
      · obtain ⟨t, _, rfl⟩ := Option.map_eq_some_iff.mp h
        exact traffic_silent nofun rfl (keys_setTerminal u.daemon id t)
    | create params env =>
      dsimp only at h
      split at h
      · split at h
        · next hcreate =>
          cases h
          exact traffic_silent nofun rfl (create_keys hcreate).1
        · cases h
      · cases h
    | configure scrollbackBytes =>
      cases h
      exact traffic_silent nofun rfl (List.Subset.refl _)

end Carried

/-! ## What has overtaken what -/

namespace Front

variable {s t : Front} {u v : Talk}

/-- The terminal whose creation the event tells of. -/
def created? : ClientEvent → Option TerminalId
  | .terminalCreated info => some info.terminal
  | _ => none

/-- The same of an event in the queue. -/
def queued? : FrontEvent → Option TerminalId
  | .client event => created? event
  | .list _ => none

/-- The terminals whose creation has been handled, or is in the queue. -/
def delivered (s : Front) : List TerminalId := s.created ++ s.queue.filterMap queued?

theorem filterMap_queued (event : FrontEvent) : [event].filterMap queued? = (queued? event).toList := by
  rw [List.filterMap_cons]
  cases queued? event <;> rfl

/-- No list stands behind an event of a terminal that is younger. -/
def Behind : List TerminalId → List FrontEvent → Prop
  | _, [] => True
  | seen, event :: rest =>
    (∀ listing, event = .list listing → ∀ id ∈ seen, id ∈ listing.known) ∧ Behind (seen ++ (queued? event).toList) rest

theorem behind_append {event : FrontEvent} : ∀ {seen : List TerminalId} {queue : List FrontEvent},
    Behind seen (queue ++ [event]) ↔ Behind seen queue ∧
      ∀ listing, event = .list listing → ∀ id ∈ seen ++ queue.filterMap queued?, id ∈ listing.known
  | seen, [] => by
    unfold Behind Behind
    simp
  | seen, first :: queue => by
    rw [List.cons_append]
    unfold Behind
    rw [behind_append, List.filterMap_cons, and_assoc]
    cases queued? first with
    | none => simp
    | some id => simp

/-- What the stamps say, and that nothing has been overtaken. -/
structure Told (s : Front) : Prop where
  length : s.stamps.length = s.talk.toClient.length
  grows : s.stamps.Pairwise (· ⊆ ·)
  now : ∀ known ∈ s.stamps, known ⊆ s.talk.daemon.terminals.keys
  frames : ∀ frame known, (frame, known) ∈ s.talk.toClient.zip s.stamps → ∀ id, creates frame = some id → id ∈ known
  announced : ∀ id ∈ s.delivered ++ s.emitted.filterMap created?, id ∈ s.talk.daemon.terminals.keys ∧
    ∀ known ∈ s.stamps, id ∈ known
  answered : ∀ listing ∈ s.answered, ∀ id ∈ s.delivered, id ∈ listing.known
  queue : Behind s.created s.queue

theorem told_new (terminals : AList fun _ : TerminalId => Terminal) (maxTerminals scrollbackBytes : Nat)
    (workspace : WorkspaceState) : Told (new terminals maxTerminals scrollbackBytes workspace) where
  length := rfl
  grows := .nil
  now _ h := by cases h
  frames _ _ h := by cases h
  announced _ h := by cases h
  answered _ h := by cases h
  queue := trivial

/-- The daemon has sent a frame, or nothing. -/
theorem Told.sent (h : Told s) {frame : Option FrameBody} (htoClient : v.toClient = s.talk.toClient ++ frame.toList)
    (hcarries : Carries s.talk.daemon v.daemon frame) :
    Told { s with
      talk := v
      stamps := s.stamps ++ List.replicate (v.toClient.length - s.talk.toClient.length) v.daemon.terminals.keys } := by
  have hstamps : List.replicate (v.toClient.length - s.talk.toClient.length) v.daemon.terminals.keys =
      frame.toList.map fun _ => v.daemon.terminals.keys := by
    rw [htoClient, List.length_append, Nat.add_sub_cancel_left]
    cases frame <;> rfl
  rw [hstamps]
  have hnow : ∀ known ∈ s.stamps, known ⊆ v.daemon.terminals.keys := fun known hknown =>
    List.Subset.trans (h.now known hknown) hcarries.keys
  have hnew : ∀ known ∈ frame.toList.map (fun _ => v.daemon.terminals.keys), known = v.daemon.terminals.keys := by
    intro known hknown
    obtain ⟨_, _, rfl⟩ := List.mem_map.mp hknown
    rfl
  refine ⟨?_, ?_, ?_, ?_, ?_, h.answered, h.queue⟩
  · dsimp only
    rw [htoClient, List.length_append, List.length_append, List.length_map, h.length]
  · refine List.pairwise_append.mpr ⟨h.grows, ?_, ?_⟩
    · cases frame with
      | none => exact .nil
      | some frame => exact List.pairwise_singleton _ _
    · intro known hknown known' hknown'
      rw [hnew known' hknown']
      exact hnow known hknown
  · intro known hknown
    rcases List.mem_append.mp hknown with hknown | hknown
    · exact hnow known hknown
    · rw [hnew known hknown]
      exact List.Subset.refl _
  · intro frame' known hmem id hid
    dsimp only at hmem
    rw [htoClient, List.zip_append h.length.symm] at hmem
    rcases List.mem_append.mp hmem with hmem | hmem
    · exact h.frames frame' known hmem id hid
    · cases frame with
      | none => cases hmem
      | some frame =>
        cases List.mem_singleton.mp hmem
        exact hcarries.creates frame' rfl id hid
  · intro id hid
    obtain ⟨hkeys, hall⟩ := h.announced id hid
    refine ⟨hcarries.keys hkeys, ?_⟩
    intro known hknown
    rcases List.mem_append.mp hknown with hknown | hknown
    · exact hall known hknown
    · rw [hnew known hknown]
      exact hcarries.keys hkeys

/-- Responses that only complete their request emit nothing. -/
theorem complete_action {client client' : ClientConn} {requestId : Nat} {reply : Option ReplyId} {body : ResponseBody}
    {action : Action} (h : client.complete requestId reply body = .ok (client', action)) : action = .none := by
  cases h
  rfl

/-- A response that creates a terminal says so. -/
theorem creates_of_response {client client' : ClientConn} {response : ResponseFrame} {info : TerminalInfo}
    (h : client.handleResponseFrame response = .ok (client', .emit (.terminalCreated info))) :
    creates (.response response) = some info.terminal := by
  obtain ⟨id, result⟩ := response
  unfold ClientConn.handleResponseFrame at h
  dsimp only at h
  cases result with
  | error error =>
    dsimp only at h
    cases hfail : client.failRequest id (.proto error.message) with
    | error e =>
      rw [hfail] at h
      cases h
    | ok c =>
      rw [hfail] at h
      cases h
  | ok body =>
    cases body with
    | createTerminal created =>
      dsimp only at h
      split at h
      · cases h
        rfl
      · cases h
    | openTerminal ack =>
      dsimp only at h
      split at h
      · split at h <;> cases h
      · cases h
    | readHistory page =>
      dsimp only at h
      split at h
      · split at h
        · cases h
        · cases complete_action h
      · cases h
    | _ =>
      dsimp only at h
      split at h
      all_goals first
        | cases complete_action h
        | cases h

/-- So does every frame. -/
theorem creates_of_emit {client client' : ClientConn} {frame : FrameBody} {info : TerminalInfo}
    (h : client.handleInboundFrame frame = .ok (client', .emit (.terminalCreated info))) :
    creates frame = some info.terminal := by
  cases frame with
  | response response => exact creates_of_response h
  | streamData stream =>
    have haccept : ∀ terminalId, client.acceptOutput stream terminalId ≠ (client', .emit (.terminalCreated info)) := by
      intro terminalId heq
      unfold ClientConn.acceptOutput at heq
      dsimp only at heq
      split at heq <;> cases heq
    unfold ClientConn.handleInboundFrame ClientConn.handleStreamDataFrame at h
    dsimp only at h
    split at h
    · split at h
      · cases h
      · split at h
        · cases h
        · split at h
          · split at h
            · cases h
            · split at h
              · cases h
              · exact absurd (Except.ok.inj h) (haccept _)
          · exact absurd (Except.ok.inj h) (haccept _)
    · cases h
  | event event =>
    obtain ⟨body⟩ := event
    cases body with
    | terminalCreated created =>
      cases h
      rfl
    | _ => cases h
  | _ => cases h

/-- An event is emitted on the frame that tells of it. -/
theorem created_of_emits {client : ClientConn} {frame : FrameBody} {id : TerminalId}
    (h : id ∈ (emits client frame).filterMap created?) : creates frame = some id := by
  unfold emits at h
  split at h
  · next event hhandle =>
    cases hcreated : created? event with
    | none =>
      rw [List.filterMap_cons_none hcreated] at h
      cases h
    | some id' =>
      rw [List.filterMap_cons_some hcreated] at h
      cases List.mem_singleton.mp h
      unfold created? at hcreated
      split at hcreated
      · cases hcreated
        exact creates_of_emit hhandle
      · cases hcreated
  · cases h

theorem known_of_listings {known : List TerminalId} {replies : List (ReplyId × Except ClientError ResponseBody)}
    {listing : Listing} (h : listing ∈ listings known replies) : listing.known = known := by
  obtain ⟨⟨_, result⟩, _, hlisting⟩ := List.mem_filterMap.mp h
  dsimp only at hlisting
  split at hlisting
  · cases hlisting
    rfl
  · cases hlisting

/-- The client has received a frame. -/
theorem Told.recv (h : Told s) {frame : FrameBody} (htoClient : s.talk.toClient = frame :: v.toClient)
    (hdaemon : v.daemon = s.talk.daemon) (replies : List (ReplyId × Except ClientError ResponseBody)) :
    Told { s with
      talk := v
      stamps := s.stamps.tail
      answered := s.answered ++ listings (s.stamps.headD []) replies
      emitted := s.emitted ++ emits s.talk.client frame } := by
  have hlength := h.length
  rw [htoClient] at hlength
  cases hstamps : s.stamps with
  | nil =>
    rw [hstamps] at hlength
    cases hlength
  | cons known stamps =>
    rw [hstamps] at hlength
    have hgrows := h.grows
    rw [hstamps] at hgrows
    obtain ⟨hfirst, hrest⟩ := List.pairwise_cons.mp hgrows
    have hmem : ∀ known' ∈ stamps, known' ∈ s.stamps := by
      intro known' hknown'
      rw [hstamps]
      exact List.mem_cons_of_mem _ hknown'
    have hhead : known ∈ s.stamps := by
      rw [hstamps]
      exact List.mem_cons_self
    refine ⟨Nat.succ.inj hlength, hrest, ?_, ?_, ?_, ?_, h.queue⟩
    · intro known' hknown'
      dsimp only
      rw [hdaemon]
      exact h.now known' (hmem known' hknown')
    · intro frame' known' hzip id hid
      refine h.frames frame' known' ?_ id hid
      rw [htoClient, hstamps]
      exact List.mem_cons_of_mem _ hzip
    · intro id hid
      dsimp only
      rw [hdaemon]
      dsimp only at hid
      rw [List.filterMap_append, ← List.append_assoc] at hid
      rcases List.mem_append.mp hid with hid | hid
      · obtain ⟨hkeys, hall⟩ := h.announced id hid
        exact ⟨hkeys, fun known' hknown' => hall known' (hmem known' hknown')⟩
      · have hknown : id ∈ known := by
          refine h.frames frame known ?_ id (created_of_emits hid)
          rw [htoClient, hstamps]
          exact List.mem_cons_self
        exact ⟨h.now known hhead hknown, fun known' hknown' => hfirst known' hknown' hknown⟩
    · intro listing hlisting id hid
      rcases List.mem_append.mp hlisting with hlisting | hlisting
      · exact h.answered listing hlisting id hid
      · rw [known_of_listings hlisting]
        exact (h.announced id (List.mem_append_left _ hid)).2 known hhead

/-- The connection moves. -/
theorem Told.follow (h : Told s) {move : Talk.Move} (hv : s.talk.step move = some v) : Told (s.follow move v) := by
  cases traffic_step hv with
  | recv frame hmove htoClient hdaemon =>
    subst hmove
    unfold Front.follow
    rw [htoClient]
    exact h.recv htoClient hdaemon _
  | sent frame hmove htoClient hcarries =>
    unfold Front.follow
    split
    · exact absurd rfl hmove
    · exact h.sent htoClient hcarries

/-- A promise settles. -/
theorem Told.settle (h : Told s) {i : Nat} {listing : Listing} (hlisting : s.answered[i]? = some listing) :
    Told { s with answered := s.answered.eraseIdx i, queue := s.queue ++ [.list listing] } := by
  have hdelivered : delivered { s with answered := s.answered.eraseIdx i, queue := s.queue ++ [.list listing] } =
      s.delivered := by
    unfold delivered
    rw [List.filterMap_append]
    exact congrArg _ (List.append_nil _)
  refine ⟨h.length, h.grows, h.now, h.frames, ?_, ?_, ?_⟩
  · rw [hdelivered]
    exact h.announced
  · rw [hdelivered]
    intro listing' hlisting'
    exact h.answered listing' (List.mem_of_mem_eraseIdx hlisting')
  · refine behind_append.mpr ⟨h.queue, ?_⟩
    rintro _ ⟨⟩
    exact h.answered listing (List.mem_of_getElem? hlisting)

/-- An event reaches the listener in time. -/
theorem Told.deliver (h : Told s) {event : ClientEvent} {emitted : List ClientEvent} (hemitted : s.emitted = event :: emitted)
    (htimely : s.timely .deliver = true) : Told { s with emitted, queue := s.queue ++ [.client event] } := by
  have hdelivered : delivered { s with emitted, queue := s.queue ++ [.client event] } =
      s.delivered ++ (created? event).toList := by
    unfold delivered
    rw [List.filterMap_append, filterMap_queued, List.append_assoc]
    rfl
  refine ⟨h.length, h.grows, h.now, h.frames, ?_, ?_, ?_⟩
  · rw [hdelivered]
    intro id hid
    refine h.announced id ?_
    rw [hemitted, List.filterMap_cons]
    cases hcreated : created? event with
    | none =>
      rw [hcreated, Option.toList_none, List.append_nil] at hid
      exact hid
    | some id' =>
      rw [hcreated, Option.toList_some, List.append_assoc] at hid
      exact hid
  · rw [hdelivered]
    intro listing hlisting id hid
    rcases List.mem_append.mp hid with hid | hid
    · exact h.answered listing hlisting id hid
    · cases event with
      | terminalCreated info =>
        cases List.mem_singleton.mp hid
        unfold timely at htimely
        rw [hemitted] at htimely
        exact of_decide_eq_true (List.all_eq_true.mp htimely listing hlisting)
      | _ => cases hid
  · refine behind_append.mpr ⟨h.queue, ?_⟩
    rintro _ ⟨⟩

/-- What an event changes. -/
theorem handleEvent_eq (s : Front) (event : FrontEvent) : ∃ workspace closed,
    s.handleEvent event = { s with workspace, closed, created := s.created ++ (queued? event).toList } := by
  have hsame : ∀ workspace closed, ({ s with workspace, closed } : Front) =
      { s with workspace, closed, created := s.created ++ [] } := by
    intro workspace closed
    rw [List.append_nil]
  cases event with
  | list listing => exact ⟨_, _, hsame _ _⟩
  | client event =>
    cases event with
    | terminalCreated info => exact ⟨_, _, rfl⟩
    | disconnected willRetry reason =>
      unfold handleEvent
      dsimp only
      split
      · exact ⟨_, _, hsame _ _⟩
      · split
        · exact ⟨_, _, hsame _ _⟩
        · exact ⟨_, _, hsame _ _⟩
    | _ => exact ⟨_, _, hsame _ _⟩

/-- An event is handled. -/
theorem Told.handled (h : Told s) {event : FrontEvent} {queue : List FrontEvent} (hqueue : s.queue = event :: queue) :
    Told (handleEvent { s with queue } event) := by
  obtain ⟨workspace, closed, heq⟩ := handleEvent_eq { s with queue } event
  rw [heq]
  have hdelivered : delivered { s with queue, workspace, closed, created := s.created ++ (queued? event).toList } =
      s.delivered := by
    unfold delivered
    rw [hqueue, ← List.singleton_append, List.filterMap_append, filterMap_queued, List.append_assoc]
  refine ⟨h.length, h.grows, h.now, h.frames, ?_, ?_, ?_⟩
  · rw [hdelivered]
    exact h.announced
  · rw [hdelivered]
    exact h.answered
  · have hbehind := h.queue
    rw [hqueue] at hbehind
    exact hbehind.2

/-- **One move.** -/
theorem told_step {move : Move} (h : Told s) (htimely : s.timely move = true) (ht : s.step move = some t) : Told t := by
  cases move with
  | talk move =>
    obtain ⟨v, hv, rfl⟩ := Option.map_eq_some_iff.mp ht
    exact h.follow hv
  | settle i =>
    obtain ⟨listing, hlisting, rfl⟩ := Option.map_eq_some_iff.mp ht
    exact h.settle hlisting
  | deliver =>
    simp only [step] at ht
    split at ht
    · next event emitted hemitted =>
      cases ht
      exact h.deliver hemitted htimely
    · cases ht
  | handle =>
    simp only [step] at ht
    unfold handle at ht
    split at ht
    · next event queue _ hqueue =>
      cases ht
      exact h.handled hqueue
    · cases ht
  | setActiveSessionId terminalId =>
    cases ht
    exact ⟨h.length, h.grows, h.now, h.frames, h.announced, h.answered, h.queue⟩
  | removeTerminal terminalId =>
    cases ht
    exact ⟨h.length, h.grows, h.now, h.frames, h.announced, h.answered, h.queue⟩
  | updateTerminalSize terminalId cols rows =>
    cases ht
    exact ⟨h.length, h.grows, h.now, h.frames, h.announced, h.answered, h.queue⟩

/-- The list at the front of the queue is no older than the terminals whose creation has been handled. -/
theorem Told.up_to_date (h : Told s) {listing : Listing} {rest : List FrontEvent} (hqueue : s.queue = .list listing :: rest) :
    ∀ id ∈ s.created, id ∈ listing.known := by
  have hbehind := h.queue
  rw [hqueue] at hbehind
  exact hbehind.1 listing rfl

/-- A list that is handled replaces the table. -/
theorem shows_handled {listing : Listing} {rest : List FrontEvent} (hqueue : s.queue = .list listing :: rest)
    (ht : s.step .handle = some t) (id : TerminalId) : t.workspace.Shows id.uuid.display ↔
      id.uuid.display ∈ listing.terminals.map fun info => info.terminal.uuid.display := by
  simp only [step, handle, hqueue] at ht
  split at ht
  · next heq =>
    cases heq
    cases ht
    refine (WorkspaceState.mem_syncTerminalList s.workspace _ _).trans ?_
    rw [List.map_map]
    rfl
  · cases ht

/-- **A list that is older than a terminal does not hide it**, in every run in which no event of a new terminal overtakes
such a list. -/
theorem stale_lists_hide_nothing (terminals : AList fun _ : TerminalId => Terminal) (maxTerminals scrollbackBytes : Nat)
    (workspace : WorkspaceState) {moves : List Move}
    (hm : Meets step (fun s move => s.timely move = true) (new terminals maxTerminals scrollbackBytes workspace) moves)
    (hr : run step (new terminals maxTerminals scrollbackBytes workspace) moves = some s) : HidesNothing s := by
  have htold : Told s := Steps.run_invariant (fun _ _ _ h hmove hs => told_step h hmove hs) hm hr
    (told_new terminals maxTerminals scrollbackBytes workspace)
  intro t _ listing rest hqueue id hid hunknown
  exact absurd (htold.up_to_date hqueue id hid) hunknown

/-- The terminals are asked for, and then a new one; both answers come in. -/
def askingBoth : List Move :=
  [.talk (.command (.listTerminals 0)), .talk (.command (.createTerminal ⟨80, 24, none, [], []⟩ 1)),
    .talk (.daemonRecv Talk.sampleEnv), .talk (.daemonRecv { Talk.sampleEnv with spawned := .ok (Talk.sampleId 1) }),
    .talk .clientRecv, .talk .clientRecv]

def sampleFront : Front := new ∅ 8 64 {}

/-- The list is handled before the event; then the event, and the terminals are asked for once more. -/
def askingAgain : List Move :=
  askingBoth ++ [.settle 0, .deliver, .handle, .handle, .talk (.command (.listTerminals 2)),
    .talk (.daemonRecv Talk.sampleEnv), .talk .clientRecv, .settle 0]

/-- The new terminal has been handled, is shown and is active, and a list of terminals is next. -/
theorem stale_lists_hide_nothing_sample :
    ∃ s t, run step sampleFront askingAgain = some s ∧ s.step .handle = some t ∧ s.created = [Talk.sampleId 1] ∧
      s.workspace.activeSessionId = some (Talk.sampleId 1).uuid.display ∧ s.queue.length = 1 ∧ HidesNothing s := by
  have hm : Meets step (fun s move => s.timely move = true) sampleFront askingAgain := by
    decide +kernel
  have hrun : (run step sampleFront askingAgain).map (fun s => decide (s.created = [Talk.sampleId 1] ∧
      s.workspace.activeSessionId = some (Talk.sampleId 1).uuid.display ∧ s.queue.length = 1 ∧
      (s.step .handle).isSome = true)) = some true := by
    decide +kernel
  obtain ⟨s, hs, hsample⟩ := Option.map_eq_some_iff.mp hrun
  obtain ⟨hcreated, hactive, hqueue, hhandle⟩ := of_decide_eq_true hsample
  obtain ⟨t, ht⟩ := Option.isSome_iff_exists.mp hhandle
  exact ⟨s, t, hs, ht, hcreated, hactive, hqueue, stale_lists_hide_nothing ∅ 8 64 {} hm hs⟩

/-- What a list hides. -/
def hides (s t : Front) (id : TerminalId) : Bool :=
  match s.queue with
  | .list listing :: _ => decide (id ∈ s.created ∧ id ∉ listing.known ∧ s.workspace.Shows id.uuid.display ∧
      s.workspace.activeSessionId = some id.uuid.display ∧ ¬ t.workspace.Shows id.uuid.display ∧
      t.workspace.activeSessionId = none)
  | _ => false

/-- The event overtakes the list, and the new terminal is gone. -/
theorem stale_list_hides : ∃ s t, run step sampleFront (askingBoth ++ [.deliver, .handle, .settle 0]) = some s ∧
    s.step .handle = some t ∧ ¬ HidesNothing s ∧ ¬ t.workspace.Shows (Talk.sampleId 1).uuid.display ∧
    s.workspace.activeSessionId = some (Talk.sampleId 1).uuid.display ∧ t.workspace.activeSessionId = none := by
  have hrun : (run step sampleFront (askingBoth ++ [.deliver, .handle, .settle 0])).map
      (fun s => (s.step .handle).map fun t => hides s t (Talk.sampleId 1)) = some (some true) := by
    decide +kernel
  obtain ⟨s, hs, hsample⟩ := Option.map_eq_some_iff.mp hrun
  obtain ⟨t, ht, hhides⟩ := Option.map_eq_some_iff.mp hsample
  unfold hides at hhides
  split at hhides
  · next listing rest hqueue =>
    obtain ⟨hcreated, hknown, hshows, hactive, hgone, hnone⟩ := of_decide_eq_true hhides
    exact ⟨s, t, hs, ht, fun h => hgone ((h t ht listing rest hqueue _ hcreated hknown).1 hshows), hgone, hactive, hnone⟩
  · cases hhides

end Front

end CliPocket.App
