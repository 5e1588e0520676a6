import CliPocket.Stream.Paced
import CliPocket.Stream.Pipeline

/-!
# The output that a client obtains

Of a stream that it has opened: what the answer shows, and the frames that it passes on. The reader of a terminal pushes a
chunk before it sends it, and an open subscribes before it takes its snapshot; frames of a chunk in both are ahead of the
client although it has been shown them.

- `Talk.heard`: what the client hears of its streams, kept beside a run;
- `Told`: what it has heard is the output of the terminals;
- `Tracked.step`: **one step**;
- `exactly_once`: **the output, and each byte once**; `no_silent_gap`: **frames that carry on**.
-/

namespace CliPocket

open Saturating (u32Max u64Max)
open Steps (run Meets traced)

/-! ## What has been heard -/

/-- Frames behind an answer to an open, in the output of its terminal. -/
structure Behind (L : List UInt8) (ack : OpenTerminalAck) (frames : List StreamDataFrame) : Prop where
  shows : Shows L ack
  stream : ∀ data ∈ frames, data.streamId = ack.streamId
  follows : ∃ last, Follows False L ack.endSeq frames last

/-- The client has been told of output behind answers to an open only, and `cursor` is where it is now. -/
structure Told (L : TerminalId → List UInt8) (cursor : Option Cursor) (history : List Heard) : Prop where
  behind : ∀ before ack frames after, history = before ++ .opened ack :: (frames.map .passed ++ after) →
    Behind (L ack.info.terminal) ack frames
  current : ∀ before ack frames p, history = before ++ .opened ack :: frames.map .passed → cursor = some p →
    p.stream = ack.streamId ∧ p.terminalId = ack.info.terminal ∧
      Follows False (L ack.info.terminal) ack.endSeq frames p.last
  begun : ∀ p, cursor = some p → history ≠ []
  first : ∀ data after, history ≠ .passed data :: after

section Told

variable {L M : TerminalId → List UInt8} {cursor after : Option Cursor} {history : List Heard}

theorem told_nil : Told L none [] where
  behind before ack frames after h := by
    have hlength := congrArg List.length h
    rw [List.length_append] at hlength
    cases hlength
  current _ _ _ _ _ h := by cases h
  begun _ h := by cases h
  first _ _ h := by cases h

theorem Told.grows (h : Told L cursor history) (hL : ∀ id, L id <+: M id) : Told M cursor history where
  behind before ack frames after heq := by
    obtain ⟨hshows, hstream, last, hfollows⟩ := h.behind before ack frames after heq
    obtain ⟨more, hmore⟩ := hL ack.info.terminal
    rw [← hmore]
    exact ⟨hshows.mono more, hstream, last, hfollows.mono more⟩
  current before ack frames p heq hp := by
    obtain ⟨hstream, hid, hfollows⟩ := h.current before ack frames p heq hp
    obtain ⟨more, hmore⟩ := hL ack.info.terminal
    rw [← hmore]
    exact ⟨hstream, hid, hfollows.mono more⟩
  begun := h.begun
  first := h.first

/-- The client has left its stream. -/
theorem Told.left (h : Told L cursor history) : Told L none history where
  behind := h.behind
  current _ _ _ _ _ hp := by cases hp
  begun _ hp := by cases hp
  first := h.first

/-- The last event of a history is its own segment, the last frame of one, or behind it. -/
theorem snoc_cases {event : Heard} {before after : List Heard} {ack : OpenTerminalAck} {frames : List StreamDataFrame}
    (h : history ++ [event] = before ++ .opened ack :: (frames.map .passed ++ after)) :
    (event = .opened ack ∧ frames = [] ∧ after = []) ∨
      (∃ rest data, event = .passed data ∧ frames = rest ++ [data] ∧ after = [] ∧
        history = before ++ .opened ack :: rest.map .passed) ∨
      ∃ rest, after = rest ++ [event] ∧ history = before ++ .opened ack :: (frames.map .passed ++ rest) := by
  rcases List.eq_nil_or_concat after with rfl | ⟨rest, last, rfl⟩
  · rcases List.eq_nil_or_concat frames with rfl | ⟨rest, data, rfl⟩
    · obtain ⟨_, hlast⟩ := List.append_inj' h rfl
      exact .inl ⟨(List.cons.inj hlast).1, rfl, rfl⟩
    · rw [List.append_nil, List.concat_eq_append, List.map_append, ← List.cons_append, ← List.append_assoc] at h
      obtain ⟨hhistory, hlast⟩ := List.append_inj' h rfl
      exact .inr (.inl ⟨rest, data, (List.cons.inj hlast).1, List.concat_eq_append, rfl, hhistory⟩)
  · rw [List.concat_eq_append, ← List.append_assoc, ← List.cons_append, ← List.append_assoc] at h
    obtain ⟨hhistory, hlast⟩ := List.append_inj' h rfl
    exact .inr (.inr ⟨rest, by rw [List.concat_eq_append, (List.cons.inj hlast).1], hhistory⟩)

/-- **The client hears of a stream.** -/
theorem Told.went (h : Told L cursor history) {heard : List Heard} (hw : Cursor.Went L cursor after heard) :
    Told L after (history ++ heard) := by
  cases hw with
  | stayed hsame =>
    rw [List.append_nil, hsame]
    exact h
  | passed data p hwas hstream hnext hnow =>
    refine ⟨?_, ?_, fun _ _ => List.append_ne_nil_of_right_ne_nil _ (List.cons_ne_nil _ _), ?_⟩
    · intro before ack frames after heq
      rcases snoc_cases heq with ⟨hevent, _⟩ | ⟨rest, _, ⟨⟩, rfl, rfl, hhistory⟩ | ⟨rest, rfl, hhistory⟩
      · cases hevent
      · obtain ⟨hpstream, hpid, hfollows⟩ := h.current before ack rest p hhistory hwas
        obtain ⟨hshows, hall, _⟩ := h.behind before ack rest [] (by rw [List.append_nil]; exact hhistory)
        refine ⟨hshows, ?_, data.seq, hfollows.append (.inr ⟨hpid ▸ hnext, rfl⟩)⟩
        intro data' hdata'
        rcases List.mem_append.mp hdata' with hdata' | hdata'
        · exact hall data' hdata'
        · cases List.mem_singleton.mp hdata'
          exact hstream.symm.trans hpstream
      · exact h.behind before ack frames rest hhistory
    · intro before ack frames q heq hq
      have heq' : history ++ [.passed data] = before ++ .opened ack :: (frames.map .passed ++ []) := by
        rw [List.append_nil]
        exact heq
      cases hnow.symm.trans hq
      rcases snoc_cases heq' with ⟨hevent, _⟩ | ⟨rest, _, ⟨⟩, rfl, _, hhistory⟩ | ⟨rest, hnil, _⟩
      · cases hevent
      · obtain ⟨hpstream, hpid, hfollows⟩ := h.current before ack rest p hhistory hwas
        exact ⟨hpstream, hpid, hfollows.append (.inr ⟨hpid ▸ hnext, rfl⟩)⟩
      · exact absurd hnil.symm (List.append_ne_nil_of_right_ne_nil _ (List.cons_ne_nil _ _))
    · intro data' after heq
      cases history with
      | nil => exact h.begun p hwas rfl
      | cons event rest =>
        cases heq
        exact h.first data' rest rfl
  | opened ack' hshows hnow =>
    refine ⟨?_, ?_, fun _ _ => List.append_ne_nil_of_right_ne_nil _ (List.cons_ne_nil _ _), ?_⟩
    · intro before ack frames after heq
      rcases snoc_cases heq with ⟨⟨⟩, rfl, rfl⟩ | ⟨rest, _, hevent, _⟩ | ⟨rest, rfl, hhistory⟩
      · refine ⟨hshows, ?_, _, rfl⟩
        intro data hdata
        cases hdata
      · cases hevent
      · exact h.behind before ack frames rest hhistory
    · intro before ack frames q heq hq
      have heq' : history ++ [.opened ack'] = before ++ .opened ack :: (frames.map .passed ++ []) := by
        rw [List.append_nil]
        exact heq
      cases hnow.symm.trans hq
      rcases snoc_cases heq' with ⟨⟨⟩, rfl, _⟩ | ⟨rest, _, hevent, _⟩ | ⟨rest, hnil, _⟩
      · exact ⟨rfl, rfl, rfl⟩
      · cases hevent
      · exact absurd hnil.symm (List.append_ne_nil_of_right_ne_nil _ (List.cons_ne_nil _ _))
    · intro data' after heq
      cases history with
      | nil => cases heq
      | cons event rest =>
        cases heq
        exact h.first data' rest rfl

end Told

/-! ## Steps -/

namespace Talk

variable {torn : Prop} {seam : Nat → Prop} {s t : Talk} {d : Daemon} {frame : FrameBody}

/-- What the client hears of its streams in a move. -/
def heard (s : Talk) : Move → List Heard
  | .clientRecv =>
    match s.toClient with
    | [] => []
    | frame :: _ =>
      match s.client.handleInboundFrame frame with
      | .error _ => []
      | .ok (_, action) => heardOf frame action
  | _ => []

/-- An open finds the `seam` it needs, no forwarder falls behind, and sequence numbers do not run out. -/
def Steady (seam : Nat → Prop) (s : Talk) : Move → Prop
  | .openStep => s.daemon.Seamless seam
  | .receive i => s.daemon.Keeps i
  | .terminal id (.push bytes) => ∀ t, s.daemon.terminals.lookup id = some t → t.ring.headSeq + bytes.length ≤ u64Max
  | _ => True

/-- The frames on their way carry on where the client is, and so will those that are ahead of them. -/
structure Tracked (torn : Prop) (s : Talk) : Prop where
  coherent : s.client.Coherent
  flowing : s.daemon.Flowing torn
  hears : Inbox.Reads (Cursor.hear torn s.daemon.outputs) s.toClient (Daemon.Ahead torn s.daemon) s.client.cursor

instance [DecidablePred seam] (s : Talk) : (move : Move) → Decidable (Steady seam s move)
  | .openStep => inferInstanceAs (Decidable (s.daemon.Seamless seam))
  | .receive i => inferInstanceAs (Decidable (s.daemon.Keeps i))
  | .terminal id (.push bytes) =>
    inferInstanceAs (Decidable (∀ t ∈ s.daemon.terminals.lookup id, t.ring.headSeq + bytes.length ≤ u64Max))
  | .command _ | .terminalCommand _ | .ping _ | .clientRecv | .daemonRecv _ | .output | .revoked | .enqueue _ | .cancel _
  | .create _ _ | .configure _ | .terminal _ .broadcast | .terminal _ (.title _) | .terminal _ (.resize _ _)
  | .terminal _ .exit | .terminal _ .reap => isTrue trivial

/-- What a step leaves: all that has been told holds, and where nothing goes back the client does not say so. -/
structure Follow (torn : Prop) (s t : Talk) (heard : List Heard) : Prop where
  told : ∀ history, Told s.daemon.outputs s.client.cursor history →
    Told t.daemon.outputs t.client.cursor (history ++ heard)
  tracked : t.failed = none → Tracked torn t
  forward : ¬torn → t.failed ≠ some ClientConn.movedBackwards

/-- The client hears nothing. -/
theorem follow_silent (houtputs : ∀ id, s.daemon.outputs id <+: t.daemon.outputs id)
    (hcursor : t.client.cursor = s.client.cursor ∨ t.client.cursor = none) (htracked : t.failed = none → Tracked torn t)
    (hforward : t.failed ≠ some ClientConn.movedBackwards) : Follow torn s t [] where
  told history h := by
    rw [List.append_nil]
    rcases hcursor with heq | heq
    · rw [heq]
      exact h.grows houtputs
    · rw [heq]
      exact h.left.grows houtputs
  tracked := htracked
  forward _ := hforward

/-- A frame of the client's. -/
theorem Tracked.clientSend (h : Tracked torn s) (hopen : s.failed = none) (frame : FrameBody) :
    ((s.clientSend frame).failed = none → Tracked torn (s.clientSend frame)) ∧
      (s.clientSend frame).failed ≠ some ClientConn.movedBackwards ∧
      (s.clientSend frame).daemon = s.daemon ∧ (s.clientSend frame).client = s.client := by
  unfold Talk.clientSend
  split
  · refine ⟨fun _ => ⟨h.coherent, h.flowing, h.hears⟩, ?_, rfl, rfl⟩
    rw [hopen]
    nofun
  · refine ⟨?_, ?_, rfl, rfl⟩
    · intro hfailed
      cases hfailed
    · intro hfailed
      cases hfailed

/-! ### The daemon -/

/-- The daemon goes on. -/
theorem Tracked.onto (h : Tracked torn s) (hd : Daemon.Onto torn s.daemon d) : Tracked torn { s with daemon := d } where
  coherent := h.coherent
  flowing := hd.flowing
  hears := Inbox.Reads.change (Cursor.hear_grows hd.outputs) h.hears hd.ahead

theorem Tracked.follow_onto (h : Tracked torn s) (hopen : s.failed = none) (hd : Daemon.Onto torn s.daemon d) :
    Follow torn s { s with daemon := d } [] :=
  follow_silent hd.outputs (.inl rfl) (fun _ => h.onto hd) (by rw [hopen]; nofun)

/-- **The daemon sends a frame** which the client has to hear. -/
theorem Tracked.follow_send (h : Tracked torn s) (hopen : s.failed = none) (hflowing : d.Flowing torn)
    (houtputs : ∀ id, s.daemon.outputs id <+: d.outputs id)
    (hahead : ∀ cursor, Daemon.Ahead torn s.daemon cursor →
      Cursor.hear torn d.outputs frame (Daemon.Ahead torn d) cursor) :
    Follow torn s (daemonSend { s with daemon := d } frame) [] := by
  unfold daemonSend
  split
  · refine follow_silent houtputs (.inl rfl) (fun _ => ⟨h.coherent, hflowing, ?_⟩) (by dsimp only; rw [hopen]; nofun)
    show Inbox.Reads _ (s.toClient ++ [frame]) _ _
    rw [Inbox.reads_concat]
    exact Inbox.Reads.change (Cursor.hear_grows houtputs) h.hears hahead
  · refine follow_silent houtputs (.inl rfl) (fun _ => ⟨h.coherent, hflowing.closed.flowing, ?_⟩)
      (by dsimp only; rw [hopen]; nofun)
    exact Inbox.Reads.change (Cursor.hear_grows houtputs) h.hears fun _ _ => Daemon.ahead_detached rfl

theorem Tracked.follow_sends (h : Tracked torn s) (hopen : s.failed = none) (hd : Daemon.Onto torn s.daemon d)
    {reply : Option FrameBody} (hplain : ∀ frame, reply = some frame → frame.Plain) :
    Follow torn s (daemonSends { s with daemon := d } reply) [] := by
  cases reply with
  | none => exact h.follow_onto hopen hd
  | some frame =>
    refine h.follow_send hopen hd.flowing hd.outputs ?_
    intro cursor hahead
    rw [Cursor.hear_plain (hplain frame rfl)]
    exact hd.ahead cursor hahead

/-- **The daemon takes a frame.** -/
theorem Tracked.daemonRecv (h : Tracked torn s) (hopen : s.failed = none) {env : Env} (hs : s.daemonRecv env = some t) :
    Follow torn s t [] := by
  unfold Talk.daemonRecv at hs
  split at hs
  · cases hs
  · next frame rest hframes =>
    split at hs
    · next hfresh =>
      obtain ⟨⟨d, reply⟩, hreceive, rfl⟩ := Option.map_eq_some_iff.mp hs
      have hrest : Tracked torn { s with toDaemon := rest } := ⟨h.coherent, h.flowing, h.hears⟩
      have hsame : ∀ {u}, Follow torn { s with toDaemon := rest } u [] → Follow torn s u [] := fun hu =>
        ⟨hu.told, hu.tracked, hu.forward⟩
      have hgrown : Daemon.Grown torn _ _ := h.flowing.recorded.grown_receiveFrame hfresh hreceive
      obtain ⟨htask, ⟨id, terminalId, _, rfl, rfl⟩ | ⟨request, rfl, rfl⟩ | ⟨hd, hplain⟩⟩ := Daemon.receiveFrame_cases hreceive
      · exact hsame (hrest.follow_onto hopen (h.flowing.cleared id terminalId))
      · obtain ⟨hwork, hack⟩ := s.daemon.handleRequest_work request env
        have honto := h.flowing.grown hgrown hwork.streams hwork.forwarders hwork.task
        refine hsame (hrest.follow_sends hopen honto ?_)
        rintro _ ⟨⟩
        exact Daemon.plain_response hack
      · rcases hd with rfl | rfl
        · exact hsame (hrest.follow_sends hopen (h.flowing.grown hgrown rfl rfl rfl) hplain)
        · have honto := @Daemon.Flowing.retask _ _ h.flowing .closed (.inr rfl) trivial
          exact hsame (hrest.follow_sends hopen honto hplain)
    · cases hs

/-- **A step of an open.** -/
theorem Tracked.openStep (hseam : ∀ n, seam n → n = 0 ∨ (torn ∧ 2 ≤ n)) (h : Tracked torn s) (hopen : s.failed = none)
    (hc : s.daemon.Seamless seam) {reply : Option ResponseFrame} (hs : s.daemon.openStep = some (d, reply)) :
    Follow torn s (daemonSends { s with daemon := d } (reply.map .response)) [] := by
  rcases Daemon.flowing_openStep hseam h.flowing hc hs with
    ⟨honto, hplain⟩ | ⟨hflowing, houtputs, id, ack, rfl, hshows, hahead⟩
  · refine h.follow_sends hopen honto ?_
    intro frame hframe
    obtain ⟨response, hresponse, rfl⟩ := Option.map_eq_some_iff.mp hframe
    exact hplain response hresponse
  · refine h.follow_send hopen hflowing houtputs ?_
    intro cursor _
    show Cursor.hear torn d.outputs (.response ⟨id, .ok (.openTerminal ack)⟩) _ cursor
    rw [Cursor.hear_ack]
    exact ⟨hshows, hahead⟩

/-- **Output is sent.** -/
theorem Tracked.output (h : Tracked torn s) (hopen : s.failed = none) {data : Option StreamDataFrame}
    (hs : s.daemon.output = some (d, data)) :
    Follow torn s (daemonSends { s with daemon := d } (data.map .streamData)) [] := by
  obtain ⟨hflowing, houtputs, hahead⟩ := Daemon.flowing_output h.flowing hs
  cases data with
  | none => exact h.follow_onto hopen ⟨hflowing, houtputs, hahead⟩
  | some data =>
    refine h.follow_send hopen hflowing houtputs ?_
    intro cursor hcursor
    exact Cursor.hear_grows houtputs _ _ _ (fun _ => id) cursor (hahead cursor hcursor)

/-! ### The client -/

/-- **A command is framed.** -/
theorem Tracked.ask (h : Tracked torn s) (hopen : s.failed = none) {framed : Option (ClientConn × RequestFrame)}
    (hframed : ∀ client request, framed = some (client, request) → s.client.SameStreams client ∨
      ∃ stream, s.client.Dropped client stream) (hs : s.ask framed = some t) : Follow torn s t [] := by
  obtain ⟨⟨client, request⟩, heq, rfl⟩ := Option.map_eq_some_iff.mp hs
  dsimp only
  generalize s.forgotten ++ _ = forgotten
  have hnext : Tracked torn { s with client, forgotten } ∧
      (client.cursor = s.client.cursor ∨ client.cursor = none) := by
    rcases hframed client request heq with hsame | ⟨stream, hdropped⟩
    · have hcursor := ClientConn.cursor_same hsame
      refine ⟨⟨h.coherent.same hsame, h.flowing, ?_⟩, .inl hcursor⟩
      show Inbox.Reads _ s.toClient _ client.cursor
      rw [hcursor]
      exact h.hears
    · have hcursor := ClientConn.cursor_dropped hdropped
      refine ⟨⟨hdropped.coherent, h.flowing, ?_⟩, .inr hcursor⟩
      show Inbox.Reads _ s.toClient _ client.cursor
      rw [hcursor]
      refine Inbox.Reads.sim Cursor.carries_left h.hears (.inl rfl) ?_
      rintro cursor after (rfl | rfl) hahead
      · exact Daemon.ahead_none
      · exact hahead
  obtain ⟨htracked, hforward, hdaemon, hclient⟩ := hnext.1.clientSend hopen (.request request)
  refine follow_silent ?_ ?_ htracked hforward
  · rw [hdaemon]
    exact fun _ => List.prefix_rfl
  · rw [hclient]
    exact hnext.2

theorem heard_clientRecv {rest : List FrameBody} (hframes : s.toClient = frame :: rest) : s.heard .clientRecv =
    match s.client.handleInboundFrame frame with
    | .error _ => []
    | .ok (_, action) => heardOf frame action := by
  unfold heard
  dsimp only
  rw [hframes]

/-- **A frame is received.** -/
theorem Tracked.clientRecv (h : Tracked torn s) (hopen : s.failed = none) (hs : s.clientRecv = some t) :
    Follow torn s t (s.heard .clientRecv) := by
  unfold Talk.clientRecv at hs
  cases hframes : s.toClient with
  | nil =>
    rw [hframes] at hs
    cases hs
  | cons frame rest =>
    have hhears := h.hears
    rw [hframes, Inbox.reads_cons] at hhears
    rw [hframes] at hs
    rw [heard_clientRecv hframes]
    dsimp only at hs
    cases hok : s.client.handleInboundFrame frame with
    | error e =>
      rw [hok] at hs
      cases hs
      dsimp only
      refine ⟨?_, fun hfailed => (by cases hfailed), ?_⟩
      · intro history htold
        rw [List.append_nil]
        exact htold
      · intro htorn hfailed
        have htorn : torn = False := propext ⟨htorn, False.elim⟩
        subst htorn
        exact Cursor.hear_ne_movedBackwards hok hhears (Option.some.inj hfailed)
    | ok answer =>
      obtain ⟨client, action⟩ := answer
      rw [hok] at hs
      cases hs
      dsimp only
      obtain ⟨hwent, hahead⟩ := Cursor.hear_handled h.coherent hok hhears
      have hnote : ∀ u, u = note { s with toClient := rest, client } frame action → Tracked torn u ∧ u.failed = none ∧
          u.daemon = s.daemon ∧ u.client = client := by
        rintro u rfl
        unfold note
        split
        · exact ⟨⟨h.coherent.handleInboundFrame hok, h.flowing, hahead⟩, hopen, rfl, rfl⟩
        · exact ⟨⟨h.coherent.handleInboundFrame hok, h.flowing, hahead⟩, hopen, rfl, rfl⟩
        · exact ⟨⟨h.coherent.handleInboundFrame hok, h.flowing, hahead⟩, hopen, rfl, rfl⟩
      obtain ⟨htracked, hfine, hdaemon, hclient⟩ := hnote _ rfl
      generalize note { s with toClient := rest, client } frame action = u at htracked hfine hdaemon hclient
      have hreached : ∀ v : Talk, v.daemon = u.daemon → v.client = u.client → (v.failed = none → Tracked torn v) →
          v.failed ≠ some ClientConn.movedBackwards → Follow torn s v (heardOf frame action) := by
        intro v hvdaemon hvclient hv hvforward
        refine ⟨?_, hv, fun _ => hvforward⟩
        intro history htold
        rw [hvdaemon, hvclient, hdaemon, hclient]
        exact htold.went hwent
      unfold act
      split
      · obtain ⟨hsent, hforward, hsame, hsame'⟩ := htracked.clientSend hfine _
        exact hreached _ hsame hsame' hsent hforward
      · next hreturn =>
        obtain ⟨reason, _, heq⟩ := ClientConn.handleInboundFrame_return (fun hactive => h.coherent.terminal.trans hactive) hok
        refine hreached _ rfl rfl (fun hfailed => (by cases hfailed)) ?_
        cases heq
        intro hfailed
        have hbye := Option.some.inj hfailed
        split at hbye <;> cases hbye
      · refine hreached _ rfl rfl (fun hfailed => (by cases hfailed)) ?_
        intro hfailed
        cases hfailed
      · refine hreached u rfl rfl (fun _ => htracked) ?_
        rw [hfine]
        nofun
      · refine hreached u rfl rfl (fun _ => htracked) ?_
        rw [hfine]
        nofun

/-- **One step.** -/
theorem Tracked.step (hseam : ∀ n, seam n → n = 0 ∨ (torn ∧ 2 ≤ n)) (h : Tracked torn s) {move : Move}
    (hc : s.Steady seam move) (hs : s.step move = some t) : Follow torn s t (s.heard move) := by
  unfold Talk.step at hs
  split at hs
  · cases hs
  · next hopen =>
    cases move with
    | command cmd =>
      refine h.ask hopen ?_ hs
      intro client request hframed
      rcases ClientConn.frameForSessionCommand_streams h.coherent hframed with hsame | ⟨stream, _, hdropped⟩
      · exact .inl hsame
      · exact .inr ⟨stream, hdropped⟩
    | terminalCommand cmd => exact h.ask hopen (fun _ _ hframed => .inl (ClientConn.frameForCommand_streams hframed)) hs
    | ping nonce =>
      cases hs
      obtain ⟨htracked, hforward, hdaemon, hclient⟩ := h.clientSend hopen (.ping nonce)
      refine follow_silent ?_ (.inl (by rw [hclient])) htracked hforward
      rw [hdaemon]
      exact fun _ => List.prefix_rfl
    | clientRecv => exact h.clientRecv hopen hs
    | daemonRecv env => exact h.daemonRecv hopen hs
    | openStep =>
      obtain ⟨⟨d, reply⟩, hstep, rfl⟩ := Option.map_eq_some_iff.mp hs
      exact h.openStep hseam hopen hc hstep
    | output =>
      obtain ⟨⟨d, data⟩, hstep, rfl⟩ := Option.map_eq_some_iff.mp hs
      exact h.output hopen hstep
    | revoked =>
      dsimp only at hs
      split at hs
      · cases hs
        unfold daemonSend
        split
        · have hsent : Tracked torn { s with toClient := s.toClient ++ [.bye .revoked] } := by
            refine ⟨h.coherent, h.flowing, ?_⟩
            show Inbox.Reads _ (s.toClient ++ [.bye .revoked]) _ _
            rw [Inbox.reads_concat]
            exact Inbox.Reads.imp Cursor.carries_eq h.hears fun _ => id
          have hend := hsent.follow_onto hopen (@Daemon.Flowing.retask _ _ h.flowing .closed (.inr rfl) trivial)
          exact ⟨hend.told, hend.tracked, hend.forward⟩
        · exact h.follow_onto hopen (@Daemon.Flowing.retask _ _ h.flowing .closed (.inr rfl) trivial)
      · cases hs
    | receive i =>
      obtain ⟨d, hstep, rfl⟩ := Option.map_eq_some_iff.mp hs
      obtain ⟨_, _, hgoes⟩ := Daemon.goes_receive h.flowing.recorded hstep hc
      exact h.follow_onto hopen (h.flowing.goes hgoes)
    | enqueue i =>
      obtain ⟨d, hstep, rfl⟩ := Option.map_eq_some_iff.mp hs
      obtain ⟨_, _, _, hgoes⟩ := Daemon.goes_enqueue h.flowing.tagged hstep
      exact h.follow_onto hopen (h.flowing.goes hgoes)
    | cancel i =>
      obtain ⟨d, hstep, rfl⟩ := Option.map_eq_some_iff.mp hs
      obtain ⟨_, _, hgoes⟩ := Daemon.goes_cancel hstep
      exact h.follow_onto hopen (h.flowing.goes hgoes)
    | terminal id move =>
      dsimp only at hs
      split at hs
      · cases hs
      · next terminal hterminal =>
        obtain ⟨u, hmove, rfl⟩ := Option.map_eq_some_iff.mp hs
        have hgrown : Daemon.Grown torn _ _ := h.flowing.recorded.grown_terminal hterminal
          (by
            rintro bytes rfl
            exact hc terminal hterminal) hmove
        exact h.follow_onto hopen (h.flowing.grown hgrown rfl rfl rfl)
    | create params env =>
      dsimp only at hs
      split at hs
      · next hfresh =>
        split at hs
        · next hcreate =>
          cases hs
          have hwork := Daemon.create_work hcreate
          have hgrown : Daemon.Grown torn _ _ := h.flowing.recorded.grown_create hfresh hcreate
          exact h.follow_onto hopen (h.flowing.grown hgrown hwork.streams hwork.forwarders hwork.task)
        · cases hs
      · cases hs
    | configure scrollbackBytes =>
      cases hs
      have hgrown : Daemon.Grown torn s.daemon { s.daemon with scrollbackBytes } :=
        h.flowing.recorded.grown_of_terminals rfl
      exact h.follow_onto hopen (h.flowing.grown hgrown rfl rfl rfl)

/-! ## Runs -/

theorem tracked_new (maxTerminals scrollbackBytes : Nat) : Tracked torn (new ∅ maxTerminals scrollbackBytes) where
  coherent := ClientConn.coherent_new
  flowing := by
    refine ⟨?_, ⟨fun _ hf => (by cases hf), fun _ hout => (by cases hout)⟩, ⟨?_, fun _ hstream => (by cases hstream)⟩, trivial⟩
    · intro id t ht
      cases (AList.lookup_empty id).symm.trans ht
    · exact fun _ => ⟨fun _ hout => (by cases hout), fun _ hf => (by cases hf)⟩
  hears := Daemon.ahead_none

/-- **A whole run**: all that the client has heard is the output of the terminals. -/
theorem told_run (hseam : ∀ n, seam n → n = 0 ∨ (torn ∧ 2 ≤ n)) {maxTerminals scrollbackBytes : Nat} {moves : List Move}
    {history : List Heard} (hmeets : Meets step (Steady seam) (new ∅ maxTerminals scrollbackBytes) moves)
    (hs : run (traced step heard) (new ∅ maxTerminals scrollbackBytes, []) moves = some (s, history)) :
    Told s.daemon.outputs s.client.cursor history ∧ (¬torn → s.failed ≠ some ClientConn.movedBackwards) := by
  have hinvariant := Steps.run_invariant
    (I := fun (q : Talk × List Heard) => Told q.1.daemon.outputs q.1.client.cursor q.2 ∧
      (q.1.failed = none → Tracked torn q.1) ∧ (¬torn → q.1.failed ≠ some ClientConn.movedBackwards))
    (C := fun q move => q.1.Steady seam move) ?_ (Steps.meets_traced hmeets) hs
    ⟨told_nil, fun _ => tracked_new _ _, fun _ hfailed => (by cases hfailed)⟩
  · exact ⟨hinvariant.1, hinvariant.2.2⟩
  · rintro ⟨u, history⟩ move ⟨v, history'⟩ ⟨htold, htracked, _⟩ hc hstep
    obtain ⟨hnext, rfl⟩ := Steps.traced_eq_some.mp hstep
    cases hfailed : u.failed with
    | some e =>
      unfold Talk.step at hnext
      rw [hfailed] at hnext
      cases hnext
    | none =>
      have hfollow := (htracked hfailed).step hseam hc hnext
      exact ⟨hfollow.told history htold, hfollow.tracked, hfollow.forward⟩

end Talk

/-! ## Results -/

/-- The sequence number that a client has come to, behind an answer to an open and some frames. -/
def lastSeq (ack : OpenTerminalAck) (frames : List StreamDataFrame) : StreamSeq :=
  (frames.getLast?.map StreamDataFrame.seq).getD ack.endSeq

theorem Follows.last_eq {L : List UInt8} : ∀ {frames : List StreamDataFrame} {start last : Nat},
    Follows False L start frames last → (frames.getLast?.map StreamDataFrame.seq).getD start = last
  | [], _, _, h => h
  | [data], _, _, h => (h.resolve_left And.left).2
  | data :: next :: rest, _, _, h => by
    have hrest := Follows.last_eq (h.resolve_left And.left).2
    rw [List.getLast?_cons_cons]
    cases hlast : (next :: rest).getLast? with
    | none => exact absurd (List.getLast?_eq_none_iff.mp hlast) (List.cons_ne_nil _ _)
    | some final =>
      rw [hlast] at hrest
      exact hrest

/-- Each frame carries on where the one before it ends. -/
def Contiguous : StreamSeq → List StreamDataFrame → Prop
  | _, [] => True
  | last, data :: rest => data.seq = last + data.bytes.length ∧ Contiguous data.seq rest

instance Contiguous.decide : ∀ last frames, Decidable (Contiguous last frames)
  | _, [] => isTrue trivial
  | last, data :: rest =>
    have := Contiguous.decide data.seq rest
    inferInstanceAs (Decidable (data.seq = last + data.bytes.length ∧ Contiguous data.seq rest))

theorem Follows.contiguous {L : List UInt8} : ∀ {frames : List StreamDataFrame} {start last : Nat},
    Follows False L start frames last → Contiguous start frames
  | [], _, _, _ => trivial
  | data :: rest, _, _, h => by
    obtain ⟨hnext, hrest⟩ := h.resolve_left And.left
    exact ⟨hnext.seq, hrest.contiguous⟩

/-- What the client has of a stream: the output from `start_seq` on, up to where it has come. -/
structure Obtained (L : List UInt8) (ack : OpenTerminalAck) (frames : List StreamDataFrame) : Prop where
  stream : ∀ data ∈ frames, data.streamId = ack.streamId
  covers : ack.snapshotBytes.length = ack.endSeq - ack.startSeq
  last_le : lastSeq ack frames ≤ L.length
  bytes : ack.snapshotBytes ++ frames.flatMap StreamDataFrame.bytes = (L.take (lastSeq ack frames)).drop ack.startSeq

theorem Behind.obtained {L : List UInt8} {ack : OpenTerminalAck} {frames : List StreamDataFrame}
    (h : Behind L ack frames) : Obtained L ack frames := by
  obtain ⟨hshows, hstream, last, hfollows⟩ := h
  obtain ⟨hlength, hbytes⟩ := hfollows.bytes
  have hlast : lastSeq ack frames = last := hfollows.last_eq
  have hle : last ≤ L.length := by
    have hshort := hbytes.length_le
    rw [List.length_drop] at hshort
    calc
      last = ack.endSeq + (frames.flatMap StreamDataFrame.bytes).length := hlength.symm
      _ ≤ ack.endSeq + (L.length - ack.endSeq) := Nat.add_le_add_left hshort _
      _ = L.length := Nat.add_sub_cancel' hshows.end_le
  refine ⟨hstream, ?_, hlast ▸ hle, ?_⟩
  · rw [hshows.bytes, List.length_drop, List.length_take, Nat.min_eq_left hshows.end_le]
  · have htake : frames.flatMap StreamDataFrame.bytes = (L.take last).drop ack.endSeq := by
      rw [List.prefix_iff_eq_take.mp hbytes, ← hlength, List.drop_take, Nat.add_sub_cancel_left]
    rw [hshows.bytes, htake, hlast]
    exact drop_take_append hshows.start_le (hlength ▸ Nat.le_add_right _ _)

namespace Talk

variable {s : Talk}

/-- A terminal is spawned. -/
def spawning (n : UInt8) : Move :=
  .create { cols := 1, rows := 1, cwd := none, cmd := [], env := [] } { sampleEnv with spawned := .ok (sampleId n) }

/-- A terminal is spawned and opened, and has output. -/
def sampleMoves : List Move := [spawning 1] ++ opening 1 ++ outputting 1 [97, 98] ++ [.output, .clientRecv]

/-- What the client has heard of the bytes `shown` of a snapshot, and of the frames it has passed on. -/
def shown : List Heard → List (StreamSeq × List UInt8)
  | [] => []
  | .opened ack :: rest => (ack.endSeq, ack.snapshotBytes) :: shown rest
  | .passed data :: rest => (data.seq, data.bytes) :: shown rest

/-- The client obtains the output of each terminal that it opens, and each byte once; and its connection does not fail
because output has moved backwards. -/
structure ExactlyOnce (s : Talk) (history : List Heard) : Prop where
  obtained : ∀ before ack frames after, history = before ++ .opened ack :: (frames.map .passed ++ after) →
    Obtained (s.daemon.outputs ack.info.terminal) ack frames
  first : ∀ data after, history ≠ .passed data :: after
  forward : s.failed ≠ some ClientConn.movedBackwards

/-- **Each byte once.** In a run in which no chunk is in the snapshot of an open and in its subscription. -/
theorem exactly_once {maxTerminals scrollbackBytes : Nat} {moves : List Move} {history : List Heard}
    (hmeets : Meets step (Steady (· = 0)) (new ∅ maxTerminals scrollbackBytes) moves)
    (hs : run (traced step heard) (new ∅ maxTerminals scrollbackBytes, []) moves = some (s, history)) :
    ExactlyOnce s history := by
  have hseam : ∀ n, n = 0 → n = 0 ∨ (False ∧ 2 ≤ n) := fun _ => .inl
  obtain ⟨htold, hforward⟩ := told_run hseam hmeets hs
  exact ⟨fun before ack frames after heq => (htold.behind before ack frames after heq).obtained, htold.first, hforward id⟩

set_option maxRecDepth 4000 in
theorem exactly_once_sample : ∃ s history,
    run (traced step heard) (new ∅ 8 8, []) sampleMoves = some (s, history) ∧
      shown history = [(0, []), (2, [97, 98])] ∧ ExactlyOnce s history := by
  obtain ⟨s, history, hs, hshown⟩ : ∃ s history,
      run (traced step heard) (new ∅ 8 8, []) sampleMoves = some (s, history) ∧
        shown history = [(0, []), (2, [97, 98])] := ⟨_, _, rfl, rfl⟩
  exact ⟨s, history, hs, hshown, exactly_once (by decide +kernel) hs⟩

/-- An open subscribes, a chunk is pushed, and the open takes its snapshot. -/
def overlapMoves : List Move :=
  [spawning 1, .command (.openTerminal (sampleId 1) 0), .daemonRecv sampleEnv, .openStep,
    .terminal (sampleId 1) (.push [97]), .openStep, .terminal (sampleId 1) .broadcast, .openStep, .openStep, .clientRecv,
    .receive 0, .enqueue 0, .output, .clientRecv]

set_option maxRecDepth 4000 in
/-- The chunk is in the snapshot and in the subscription: the client obtains it twice. -/
theorem chunk_obtained_twice : ¬∀ moves s history, Meets step (Steady fun _ => True) (new ∅ 8 8) moves →
    run (traced step heard) (new ∅ 8 8, []) moves = some (s, history) → ExactlyOnce s history := by
  intro h
  obtain ⟨s, ack, data, hs, hlonger⟩ : ∃ s ack data,
      run (traced step heard) (new ∅ 8 8, []) overlapMoves = some (s, [.opened ack, .passed data]) ∧
        (s.daemon.outputs ack.info.terminal).length < (ack.snapshotBytes ++ data.bytes).length :=
    ⟨_, _, _, rfl, by decide +kernel⟩
  have hbytes := ((h overlapMoves s _ (by decide +kernel) hs).obtained [] ack [data] [] rfl).bytes
  have hlength := congrArg List.length hbytes
  rw [List.flatMap_singleton, List.length_drop, List.length_take] at hlength
  omega

/-- Frames that a client passes on carry on where the answer to the open ends. -/
def NoSilentGap (history : List Heard) : Prop :=
  ∀ before ack frames after, history = before ++ .opened ack :: (frames.map .passed ++ after) →
    Contiguous ack.endSeq frames

/-- **No silent gap.** In a run in which no forwarder of an attached stream falls behind, and it is not one frame alone that
is in the snapshot of an open and in its subscription. -/
theorem no_silent_gap {maxTerminals scrollbackBytes : Nat} {moves : List Move} {history : List Heard}
    (hmeets : Meets step (Steady (· ≠ 1)) (new ∅ maxTerminals scrollbackBytes) moves)
    (hs : run (traced step heard) (new ∅ maxTerminals scrollbackBytes, []) moves = some (s, history)) :
    NoSilentGap history := by
  have hseam : ∀ n, n ≠ 1 → n = 0 ∨ (True ∧ 2 ≤ n) := by
    intro n hn
    by_cases hzero : n = 0
    · exact .inl hzero
    · exact .inr ⟨trivial, by omega⟩
  obtain ⟨htold, _⟩ := told_run hseam hmeets hs
  intro before ack frames after heq
  obtain ⟨_, _, last, hfollows⟩ := htold.behind before ack frames after heq
  exact hfollows.contiguous

set_option maxRecDepth 4000 in
theorem no_silent_gap_sample : ∃ s history,
    run (traced step heard) (new ∅ 8 8, []) sampleMoves = some (s, history) ∧
      shown history = [(0, []), (2, [97, 98])] ∧ NoSilentGap history := by
  obtain ⟨s, history, hs, hshown⟩ : ∃ s history,
      run (traced step heard) (new ∅ 8 8, []) sampleMoves = some (s, history) ∧
        shown history = [(0, []), (2, [97, 98])] := ⟨_, _, rfl, rfl⟩
  exact ⟨s, history, hs, hshown, no_silent_gap (by decide +kernel) hs⟩

/-! ## A forwarder falls behind -/

def chunkAt (seqAtEnd : StreamSeq) : OutputChunk := { seqAtEnd, bytes := [97] }

/-- `n` chunks of a byte each. -/
def chatter (n : Nat) : List Daemon.TerminalMove := (List.replicate n [.push [97], .broadcast]).flatten

/-- They are sent. -/
theorem run_chatter : ∀ (n : Nat) {t : Terminal}, t.pushed = none → t.ring.headSeq + n ≤ u64Max →
    ∃ u, run Daemon.moveTerminal t (chatter n) = some u ∧
      u.sent = t.sent ++ (List.range' (t.ring.headSeq + 1) n).map chunkAt
  | 0, t, _, _ => ⟨t, rfl, (List.append_nil _).symm⟩
  | n + 1, t, hpushed, hroom => by
    have hhead : (t.ring.push [97]).headSeq = t.ring.headSeq + 1 := by
      show (t.ring.pushByte 97).headSeq = _
      rw [ScrollbackRing.pushByte_headSeq]
      exact Nat.min_eq_left (Nat.le_trans (Nat.add_le_add_left (Nat.le_add_left 1 n) _) hroom)
    have hpush : Daemon.moveTerminal t (.push [97]) =
        some { t with ring := t.ring.push [97], pushed := some { seqAtEnd := t.ring.headSeq + 1, bytes := [97] } } := by
      show t.push [97] = _
      unfold Terminal.push
      rw [hpushed]
      dsimp only
      rw [hhead]
    obtain ⟨u, hu, hsent⟩ := @run_chatter n
      { t with
        ring := t.ring.push [97]
        sent := t.sent ++ [{ seqAtEnd := t.ring.headSeq + 1, bytes := [97] }]
        pushed := none } rfl
      (by
        dsimp only
        rw [hhead, Nat.add_assoc, Nat.add_comm 1]
        exact hroom)
    refine ⟨u, ?_, ?_⟩
    · show run Daemon.moveTerminal t (.push [97] :: .broadcast :: chatter n) = some u
      rw [Steps.run_cons, hpush]
      exact hu
    · rw [hsent, List.range'_succ, List.map_cons, hhead, List.append_assoc]
      rfl

/-- A terminal moves, and nobody hears of it. -/
theorem run_terminal {id : TerminalId} {history : List Heard} : ∀ {moves : List Daemon.TerminalMove} {s : Talk}
    {t u : Terminal}, s.failed = none → s.daemon.terminals.lookup id = some t →
    run Daemon.moveTerminal t moves = some u →
    ∃ terminals, run (traced step heard) (s, history) (moves.map (.terminal id)) =
      some ({ s with daemon := { s.daemon with terminals } }, history) ∧ terminals.lookup id = some u
  | [], s, t, u, _, hlookup, hrun => by
    cases hrun
    exact ⟨s.daemon.terminals, rfl, hlookup⟩
  | move :: moves, s, t, u, hopen, hlookup, hrun => by
    obtain ⟨t', hmove, hrest⟩ := Steps.run_cons_some hrun
    have hstep : s.step (.terminal id move) = some { s with daemon := s.daemon.setTerminal id t' } := by
      unfold Talk.step
      rw [hopen]
      dsimp only
      rw [hlookup]
      dsimp only
      rw [hmove]
      rfl
    obtain ⟨terminals, hterminals, hu⟩ := @run_terminal id history moves { s with daemon := s.daemon.setTerminal id t' }
      t' u hopen (AList.lookup_insert _) hrest
    refine ⟨terminals, ?_, hu⟩
    have htraced : traced step heard (s, history) (.terminal id move) =
        some ({ s with daemon := s.daemon.setTerminal id t' }, history) := by
      rw [Steps.traced_eq_some]
      exact ⟨hstep, (List.append_nil _).symm⟩
    rw [List.map_cons, Steps.run_cons, htraced]
    exact hterminals

theorem run_receive {s : Talk} {d : Daemon} {i : Nat} {moves : List Move} {history : List Heard}
    (hopen : s.failed = none) (hreceive : s.daemon.forwarderReceive i = some d) :
    run (traced step heard) (s, history) (.receive i :: moves) =
      run (traced step heard) ({ s with daemon := d }, history) moves := by
  have hstep : traced step heard (s, history) (.receive i) = some ({ s with daemon := d }, history) := by
    rw [Steps.traced_eq_some]
    refine ⟨?_, (List.append_nil _).symm⟩
    unfold Talk.step
    rw [hopen]
    dsimp only
    rw [hreceive]
    rfl
  rw [Steps.run_cons, hstep]
  rfl

/-- A terminal is open, and has had no output. -/
def opened : Talk × List Heard :=
  (run (traced step heard) (new ∅ 8 8, []) ([spawning 1] ++ opening 1)).getD (new ∅ 8 8, [])

/-- The forwarder of that terminal has come to `next`. -/
def forwarderAt (next : Nat) : Forwarder := { stream := 1, terminalId := sampleId 1, next }

/-- A daemon with one forwarder. -/
def feeding (d : Daemon) (terminals : AList fun _ : TerminalId => Terminal) (f : Forwarder) : Daemon :=
  { d with terminals, forwarders := [f] }

/-- The forwarder receives. -/
theorem run_feeding {s : Talk} {terminals : AList fun _ : TerminalId => Terminal} {u : Terminal} {position next : Nat}
    {received : OutputRecv} {moves : List Move} {history : List Heard} (hopen : s.failed = none)
    (hu : terminals.lookup (sampleId 1) = some u) (hreceive : receive u.sent position = some (received, next)) :
    run (traced step heard) ({ s with daemon := feeding d terminals (forwarderAt position) }, history)
      (.receive 0 :: moves) =
      run (traced step heard)
        ({ s with daemon := feeding d terminals ((forwarderAt position).received received next) }, history) moves := by
  have hf : (feeding d terminals (forwarderAt position)).forwarders[0]? = some (forwarderAt position) := rfl
  have hgo := Daemon.forwarderReceive_eq hf ⟨rfl, rfl⟩ hu hreceive
  exact @run_receive { s with daemon := feeding d terminals (forwarderAt position) } _ 0 _ _ hopen hgo

set_option maxRecDepth 4000 in
theorem run_chunk (terminals : AList fun _ : TerminalId => Terminal) : ∃ s ack data,
    run (traced step heard)
      ({ opened.1 with
        daemon := feeding opened.1.daemon terminals ((forwarderAt 1).received (.chunk (chunkAt 2)) 2) }, opened.2)
      [.enqueue 0, .output, .clientRecv] = some (s, [.opened ack, .passed data]) ∧
        ack.endSeq = 0 ∧ data.seq = 2 ∧ data.bytes.length = 1 :=
  ⟨_, _, _, rfl, rfl, rfl, rfl⟩

theorem run_lagging {terminals : AList fun _ : TerminalId => Terminal} {u : Terminal}
    (hu : terminals.lookup (sampleId 1) = some u) (hlagged : receive u.sent 0 = some (.lagged 1, 1))
    (hchunk : receive u.sent 1 = some (.chunk (chunkAt 2), 2)) : ∃ s ack data,
    run (traced step heard) ({ opened.1 with daemon := feeding opened.1.daemon terminals (forwarderAt 0) }, opened.2)
      [.receive 0, .receive 0, .enqueue 0, .output, .clientRecv] = some (s, [.opened ack, .passed data]) ∧
        ack.endSeq = 0 ∧ data.seq = 2 ∧ data.bytes.length = 1 := by
  have hopen : opened.1.failed = none := by decide +kernel
  have hfirst : (forwarderAt 0).received (.lagged 1) 1 = forwarderAt 1 := rfl
  rw [run_feeding hopen hu hlagged, hfirst, run_feeding hopen hu hchunk]
  exact run_chunk terminals

/-- As many chunks as make the first one go. -/
def laggingMoves : List Move :=
  ([spawning 1] ++ opening 1) ++ ((chatter (subscriberCap + 1)).map (.terminal (sampleId 1)) ++
    [.receive 0, .receive 0, .enqueue 0, .output, .clientRecv])

set_option maxRecDepth 4000 in
/-- A chunk that has gone is not missed by anybody. -/
theorem lagged_chunk_missing : ¬∀ moves s history,
    run (traced step heard) (new ∅ 8 8, []) moves = some (s, history) → NoSilentGap history := by
  intro h
  have hopened : run (traced step heard) (new ∅ 8 8, []) ([spawning 1] ++ opening 1) = some (opened.1, opened.2) := rfl
  obtain ⟨t, ht, hpushed, hhead, hnone⟩ : ∃ t, opened.1.daemon.terminals.lookup (sampleId 1) = some t ∧
    t.pushed = none ∧ t.ring.headSeq = 0 ∧ t.sent = [] := ⟨_, rfl, rfl, rfl, rfl⟩
  obtain ⟨u, hrun, hsent⟩ := run_chatter (subscriberCap + 1) hpushed (by rw [hhead]; decide)
  rw [hnone, hhead, List.nil_append] at hsent
  obtain ⟨terminals, hchatter, hu⟩ := @run_terminal (sampleId 1) opened.2 _ _ _ _ (rfl : opened.1.failed = none) ht hrun
  have hlength : u.sent.length = subscriberCap + 1 := by
    rw [hsent, List.length_map, List.length_range']
  have hlagged : receive u.sent 0 = some (.lagged 1, 1) := by
    unfold receive
    rw [hlength]
    rfl
  have hchunk : receive u.sent 1 = some (.chunk (chunkAt 2), 2) := by
    unfold receive
    rw [hlength, hsent]
    rfl
  obtain ⟨s, ack, data, hs, hend, hseq, hbytes⟩ := run_lagging hu hlagged hchunk
  have hall : run (traced step heard) (new ∅ 8 8, []) laggingMoves = some (s, [.opened ack, .passed data]) := by
    unfold laggingMoves
    rw [Steps.run_append hopened, Steps.run_append hchatter]
    exact hs
  obtain ⟨hcontiguous, _⟩ := h laggingMoves s _ hall [] ack [data] [] rfl
  rw [hend, hseq, hbytes] at hcontiguous
  exact absurd hcontiguous (by decide)

end Talk

end CliPocket
