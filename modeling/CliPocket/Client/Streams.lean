import CliPocket.Client.Session

/-!
# What a client knows of its streams

- `handleResponseFrame_streams`: only the response that opens a terminal makes a stream known, and active;
- `handleStreamDataFrame_ok`, `handleStreamDataFrame_error`: output is passed on, ignored, or an error;
- `handleInboundFrame_unknownStream`: **where the error of an unknown stream comes from**;
- `frameForSessionCommand_streams`: a command drops the active stream, or none.
-/

namespace CliPocket

namespace ClientConn

variable {c d : ClientConn}

/-- `d` has the streams of `c`. -/
structure SameStreams (c d : ClientConn) : Prop where
  activeStreams : d.runtime.activeStreams = c.runtime.activeStreams
  active : d.runtime.active = c.runtime.active
  terminal : d.terminal = c.terminal

/-- The terminal of `ack` has been opened. -/
structure Opened (c d : ClientConn) (ack : OpenTerminalAck) : Prop where
  activeStreams : d.runtime.activeStreams =
    c.runtime.activeStreams.insert ack.streamId { terminalId := ack.info.terminal, lastSeq := ack.endSeq }
  active : d.runtime.active = some { terminal := ack.info.terminal, stream := ack.streamId, lastSeq := some ack.endSeq }
  terminal : d.terminal = some { info := ack.info, streamId := ack.streamId, lastSeq := some ack.endSeq }

/-! ## Responses -/

theorem sameStreams_reply (c : ClientConn) (r : ReplyId) (result : Except ClientError ResponseBody) :
    SameStreams c (c.reply r result) := by
  unfold reply
  split <;> exact ⟨rfl, rfl, rfl⟩

theorem sameStreams_replyTo (c : ClientConn) (caller : Option ReplyId) (result : Except ClientError ResponseBody) :
    SameStreams c (c.replyTo caller result) := by
  cases caller with
  | none => exact ⟨rfl, rfl, rfl⟩
  | some r => exact sameStreams_reply c r result

theorem sameStreams_complete {id : Nat} {caller : Option ReplyId} {body : ResponseBody} {action : Action}
    (h : c.complete id caller body = .ok (d, action)) : SameStreams c d := by
  cases h
  obtain ⟨hstreams, hactive, hterminal⟩ := sameStreams_replyTo (c.forgetRequest id) caller (.ok body)
  exact ⟨hstreams, hactive, hterminal⟩

/-- **Responses and streams.** -/
theorem handleResponseFrame_streams {response : ResponseFrame} {action : Action}
    (h : c.handleResponseFrame response = .ok (d, action)) :
    (∃ ack, response.result = .ok (.openTerminal ack) ∧ Opened c d ack) ∨
      (∀ ack, response.result ≠ .ok (.openTerminal ack)) ∧ SameStreams c d := by
  have hother : SameStreams c d → (∀ ack, response.result ≠ .ok (.openTerminal ack)) →
      (∃ ack, response.result = .ok (.openTerminal ack) ∧ Opened c d ack) ∨
        (∀ ack, response.result ≠ .ok (.openTerminal ack)) ∧ SameStreams c d := fun hsame hne => .inr ⟨hne, hsame⟩
  obtain ⟨id, result⟩ := response
  unfold handleResponseFrame at h
  cases result with
  | error error =>
    refine hother ?_ nofun
    dsimp only at h
    unfold failRequest at h
    split at h
    · cases h
    · next txn _ =>
      cases h
      obtain ⟨hstreams, hactive, hterminal⟩ := sameStreams_replyTo (c.forgetRequest id) txn.reply (.error (.proto error.message))
      exact ⟨hstreams, hactive, hterminal⟩
  | ok body =>
    cases body with
    | openTerminal ack =>
      refine .inl ⟨ack, rfl, ?_⟩
      dsimp only at h
      split at h
      · split at h
        · cases h
        · next d' hcomplete =>
          cases h
          unfold completeOpenTerminal at hcomplete
          split at hcomplete
          · split at hcomplete
            · cases hcomplete
            · cases hcomplete
              obtain ⟨hstreams, hactive, hterminal⟩ := sameStreams_reply _ _ _
              refine ⟨hstreams.trans rfl, hactive.trans ?_, hterminal.trans rfl⟩
              simp [RuntimeState.setActive, forgetRequest]
          · cases hcomplete
      · cases h
    | createTerminal info =>
      refine hother ?_ nofun
      dsimp only at h
      split at h
      · next reply _ =>
        cases h
        obtain ⟨hstreams, hactive, hterminal⟩ := sameStreams_reply (c.forgetRequest id) reply (.ok (.createTerminal info))
        exact ⟨hstreams, hactive, hterminal⟩
      · cases h
    | readHistory page =>
      refine hother ?_ nofun
      dsimp only at h
      split at h
      · split at h
        · cases h
        · exact sameStreams_complete h
      · cases h
    | listTerminals _ | killTerminal | getServerConfig _ | setServerConfig _ | sendInput | resizeTerminal =>
      refine hother ?_ nofun
      dsimp only at h
      split at h
      all_goals first | exact sameStreams_complete h | cases h

/-- What responses make the loop do. -/
theorem handleResponseFrame_action {response : ResponseFrame} {action : Action}
    (h : c.handleResponseFrame response = .ok (d, action)) : action = .none ∨ ∃ event, action = .emit event := by
  have hcomplete : ∀ {id : Nat} {caller : Option ReplyId} {body : ResponseBody},
      c.complete id caller body = .ok (d, action) → action = .none ∨ ∃ event, action = .emit event := by
    rintro id caller body ⟨⟩
    exact .inl rfl
  obtain ⟨id, result⟩ := response
  unfold handleResponseFrame at h
  cases result with
  | error error =>
    dsimp only at h
    unfold failRequest at h
    split at h
    · cases h
    · cases h
      exact .inl rfl
  | ok body =>
    cases body with
    | openTerminal ack =>
      dsimp only at h
      split at h
      · split at h
        · cases h
        · cases h
          exact .inl rfl
      · cases h
    | createTerminal info =>
      dsimp only at h
      split at h
      · cases h
        exact .inr ⟨_, rfl⟩
      · cases h
    | readHistory page =>
      dsimp only at h
      split at h
      · split at h
        · cases h
        · exact hcomplete h
      · cases h
    | listTerminals _ | killTerminal | getServerConfig _ | setServerConfig _ | sendInput | resizeTerminal =>
      dsimp only at h
      split at h
      all_goals first | exact hcomplete h | cases h

/-! ## Output -/

/-- Output of the active stream has been passed on. -/
structure Passed (c d : ClientConn) (data : StreamDataFrame) (active : ActiveTerminalState) (known : StreamState) :
    Prop where
  was : c.runtime.active = some active
  stream : active.stream = data.streamId
  terminal : active.terminal = known.terminalId
  forward : known.lastSeq ≤ data.seq
  activeStreams : d.runtime.activeStreams =
    c.runtime.activeStreams.insert data.streamId { terminalId := known.terminalId, lastSeq := data.seq }
  active : d.runtime.active = some { active with lastSeq := some data.seq }

theorem acceptOutput_eq {data : StreamDataFrame} {terminalId : TerminalId} {handle : TerminalHandle}
    (h : c.terminal = some handle) :
    c.acceptOutput data terminalId = ({ c with
      runtime := RuntimeState.updateActiveSeq { c.runtime with
        activeStreams := c.runtime.activeStreams.insert data.streamId { terminalId, lastSeq := data.seq } } data.seq
      terminal := some { handle with lastSeq := some data.seq } },
      .emit (.terminalOutput handle.terminalId data.seq data.bytes)) := by
  unfold acceptOutput
  dsimp only
  rw [h]

/-- **Output without an error.** -/
theorem handleStreamDataFrame_ok {data : StreamDataFrame} {action : Action}
    (hterminal : c.runtime.active.isSome → c.terminal.isSome) (h : c.handleStreamDataFrame data = .ok (d, action)) :
    ∃ known, c.runtime.activeStreams.lookup data.streamId = some known ∧
      ((c.runtime.activeStream ≠ some data.streamId ∧ d = c ∧ action = .none) ∨
        ∃ active handle, Passed c d data active known ∧ c.terminal = some handle ∧
          d.terminal = some { handle with lastSeq := some data.seq } ∧
          action = .emit (.terminalOutput handle.terminalId data.seq data.bytes)) := by
  unfold handleStreamDataFrame at h
  split at h
  · next known hknown =>
    refine ⟨known, hknown, ?_⟩
    split at h
    · cases h
    · split at h
      · next hother =>
        cases h
        exact .inl ⟨hother, rfl, rfl⟩
      · next hstream =>
        rw [not_not] at hstream
        split at h
        · next active hactive =>
          obtain ⟨handle, hhandle⟩ := Option.isSome_iff_exists.mp (hterminal (by rw [hactive]; rfl))
          split at h
          · cases h
          · next hsame =>
            split at h
            · cases h
            · next hforward =>
              rw [acceptOutput_eq hhandle] at h
              cases h
              unfold RuntimeState.activeStream at hstream
              rw [hactive] at hstream
              refine .inr ⟨active, handle, ⟨hactive, Option.some.inj hstream, Classical.not_not.mp hsame,
                Nat.le_of_not_lt hforward, rfl, ?_⟩, hhandle, rfl, rfl⟩
              show c.runtime.active.map _ = _
              rw [hactive]
              rfl
        · next hactive =>
          unfold RuntimeState.activeStream at hstream
          rw [hactive] at hstream
          cases hstream
  · cases h

/-- **Output with an error.** -/
theorem handleStreamDataFrame_error {data : StreamDataFrame} {e : ClientError}
    (h : c.handleStreamDataFrame data = .error e) :
    (c.runtime.activeStreams.lookup data.streamId = none ∧ e = unknownStream) ∨
      ∃ known, c.runtime.activeStreams.lookup data.streamId = some known ∧
        ((data.offset ≠ none ∧ e = .proto "output stream chunk must not include offset") ∨
          ∃ active, c.runtime.active = some active ∧ active.stream = data.streamId ∧
            ((active.terminal ≠ known.terminalId ∧ e = .proto "output terminal mismatch") ∨
              (data.seq < known.lastSeq ∧ e = movedBackwards))) := by
  unfold handleStreamDataFrame at h
  split at h
  · next known hknown =>
    refine .inr ⟨known, hknown, ?_⟩
    split at h
    · next hoffset =>
      cases h
      exact .inl ⟨Option.isSome_iff_ne_none.mp hoffset, rfl⟩
    · split at h
      · cases h
      · next hstream =>
        rw [not_not] at hstream
        split at h
        · next active hactive =>
          unfold RuntimeState.activeStream at hstream
          rw [hactive] at hstream
          refine .inr ⟨active, hactive, Option.some.inj hstream, ?_⟩
          split at h
          · next hsame =>
            cases h
            exact .inl ⟨hsame, rfl⟩
          · split at h
            · next hback =>
              cases h
              exact .inr ⟨hback, rfl⟩
            · cases h
        · cases h
  · next hunknown =>
    cases h
    exact .inl ⟨hunknown, rfl⟩

/-! ## The error of an unknown stream -/

/-- How the messages about responses begin. -/
def responseBeginnings : List (List Char) :=
  ["re", "te", "op", "hi", "ki", "se", "ac"].map String.toList

/-- An error about a response. -/
def AboutResponse (e : ClientError) : Prop := ∃ message : String, e = .proto message ∧ message.toList.take 2 ∈ responseBeginnings

theorem aboutResponse_unknownRequest {what : String} (hlength : 2 ≤ what.toList.length)
    (hwhat : what.toList.take 2 ∈ responseBeginnings) (id : Nat) : AboutResponse (unknownRequest what id) := by
  refine ⟨what ++ " for unknown request " ++ toString id, rfl, ?_⟩
  simp only [String.toList_append, List.append_assoc]
  rw [List.take_append_of_le_length hlength]
  exact hwhat

/-- **Errors of responses** are about responses. -/
theorem handleResponseFrame_error {response : ResponseFrame} {e : ClientError}
    (h : c.handleResponseFrame response = .error e) : AboutResponse e := by
  have hcomplete : ∀ {id : Nat} {caller : Option ReplyId} {body : ResponseBody},
      c.complete id caller body ≠ .error e := fun h => by cases h
  have hunknown : ∀ {what : String} {id : Nat}, 2 ≤ what.toList.length → what.toList.take 2 ∈ responseBeginnings →
      Except.error (α := ClientConn × Action) (unknownRequest what id) = .error e → AboutResponse e := by
    rintro what id hlength hwhat ⟨⟩
    exact aboutResponse_unknownRequest hlength hwhat id
  obtain ⟨id, result⟩ := response
  unfold handleResponseFrame at h
  cases result with
  | error error =>
    dsimp only at h
    unfold failRequest at h
    split at h
    · cases h
      exact aboutResponse_unknownRequest (by decide) (by decide) id
    · cases h
  | ok body =>
    cases body with
    | openTerminal ack =>
      dsimp only at h
      split at h
      · split at h
        · next message hopen =>
          cases h
          refine ⟨message, rfl, ?_⟩
          unfold completeOpenTerminal at hopen
          split at hopen
          · split at hopen
            · cases hopen
              decide
            · cases hopen
          · cases hopen
            simp only [String.toList_append]
            rw [List.take_append_of_le_length (by decide)]
            decide
        · cases h
      · exact hunknown (by decide) (by decide) h
    | readHistory page =>
      dsimp only at h
      split at h
      · split at h
        · cases h
          exact ⟨_, rfl, by decide⟩
        · exact absurd h hcomplete
      · exact hunknown (by decide) (by decide) h
    | createTerminal info =>
      dsimp only at h
      split at h
      · cases h
      · exact hunknown (by decide) (by decide) h
    | listTerminals _ | killTerminal | getServerConfig _ | setServerConfig _ | sendInput | resizeTerminal =>
      dsimp only at h
      split at h
      all_goals first | exact absurd h hcomplete | exact hunknown (by decide) (by decide) h

theorem not_aboutResponse_unknownStream : ¬AboutResponse unknownStream := by
  rintro ⟨_, heq, hmem⟩
  cases heq
  exact absurd hmem (by decide)

theorem not_aboutResponse_movedBackwards : ¬AboutResponse movedBackwards := by
  rintro ⟨_, heq, hmem⟩
  cases heq
  exact absurd hmem (by decide)

/-- **Errors of a frame** are about a response, or about output. -/
theorem handleInboundFrame_error {frame : FrameBody} {e : ClientError} (h : c.handleInboundFrame frame = .error e) :
    AboutResponse e ∨ ∃ data, frame = .streamData data ∧ c.handleStreamDataFrame data = .error e := by
  unfold handleInboundFrame at h
  split at h
  · exact .inl (handleResponseFrame_error h)
  · next data => exact .inr ⟨data, rfl, h⟩
  all_goals cases h

/-- **Where the error comes from.** -/
theorem handleInboundFrame_unknownStream {frame : FrameBody} (h : c.handleInboundFrame frame = .error unknownStream) :
    ∃ data, frame = .streamData data ∧ c.runtime.activeStreams.lookup data.streamId = none := by
  rcases handleInboundFrame_error h with hresponse | ⟨data, rfl, hdata⟩
  · exact absurd hresponse not_aboutResponse_unknownStream
  · refine ⟨data, rfl, ?_⟩
    rcases handleStreamDataFrame_error hdata with ⟨hunknown, _⟩ | ⟨known, _, ⟨_, he⟩ | ⟨active, _, _, ⟨_, he⟩ | ⟨_, he⟩⟩⟩
    · exact hunknown
    · exact absurd (ClientError.proto.inj he) (by decide)
    · exact absurd (ClientError.proto.inj he) (by decide)
    · exact absurd (ClientError.proto.inj he) (by decide)

/-- Output that has moved backwards is on the active stream. -/
theorem handleInboundFrame_movedBackwards {frame : FrameBody} (h : c.handleInboundFrame frame = .error movedBackwards) :
    ∃ data known active, frame = .streamData data ∧ c.runtime.activeStreams.lookup data.streamId = some known ∧
      c.runtime.active = some active ∧ active.stream = data.streamId ∧ data.seq < known.lastSeq := by
  rcases handleInboundFrame_error h with hresponse | ⟨data, rfl, hdata⟩
  · exact absurd hresponse not_aboutResponse_movedBackwards
  · rcases handleStreamDataFrame_error hdata with
      ⟨_, he⟩ | ⟨known, hknown, ⟨_, he⟩ | ⟨active, hactive, hstream, ⟨_, he⟩ | ⟨hback, _⟩⟩⟩
    · exact absurd (ClientError.proto.inj he) (by decide)
    · exact absurd (ClientError.proto.inj he) (by decide)
    · exact absurd (ClientError.proto.inj he) (by decide)
    · exact ⟨data, known, active, rfl, hknown, hactive, hstream, hback⟩

/-- Frames that leave the streams alone. -/
theorem handleInboundFrame_plain {frame : FrameBody} {action : Action} (hplain : frame.Plain)
    (h : c.handleInboundFrame frame = .ok (d, action)) : SameStreams c d := by
  unfold handleInboundFrame at h
  split at h
  · next response =>
    rcases handleResponseFrame_streams h with ⟨ack, heq, _⟩ | ⟨_, hd⟩
    · obtain ⟨_, result⟩ := response
      cases heq
      exact hplain.elim
    · exact hd
  · exact hplain.elim
  all_goals
    cases h
    exact ⟨rfl, rfl, rfl⟩

/-- A terminal has been opened. -/
theorem handleInboundFrame_opened {id : RequestId} {ack : OpenTerminalAck} {action : Action}
    (h : c.handleInboundFrame (.response ⟨id, .ok (.openTerminal ack)⟩) = .ok (d, action)) : Opened c d ack := by
  have h' : c.handleResponseFrame ⟨id, .ok (.openTerminal ack)⟩ = .ok (d, action) := h
  rcases handleResponseFrame_streams h' with ⟨ack', heq, hd⟩ | ⟨hne, _⟩
  · cases heq
    exact hd
  · exact absurd rfl (hne ack)

/-- A connection is left because of a goodbye. -/
theorem handleInboundFrame_return {frame : FrameBody} {result : Except ClientError Unit}
    (hterminal : c.runtime.active.isSome → c.terminal.isSome) (h : c.handleInboundFrame frame = .ok (d, .return result)) :
    ∃ reason, frame = .bye reason ∧ result = .error (if isRecoverableBye reason then .closed else .rejected reason) := by
  unfold handleInboundFrame at h
  split at h
  · rcases handleResponseFrame_action h with h | ⟨event, h⟩ <;> cases h
  · obtain ⟨known, _, ⟨_, _, h⟩ | ⟨active, handle, _, _, _, h⟩⟩ := handleStreamDataFrame_ok hterminal h <;> cases h
  · next event =>
    obtain ⟨body⟩ := event
    cases body <;> cases h
  · next reason =>
    cases h
    exact ⟨reason, rfl, rfl⟩
  · cases h
  · cases h

/-! ## Commands -/

/-- The stream that a command drops. -/
def dropsStream (c : ClientConn) : SessionCommand → Option StreamId
  | .openTerminal _ _ => if c.terminal.isSome then c.runtime.activeStream else none
  | .killTerminal terminal _ => if c.runtime.activeTerminal = some terminal then c.runtime.activeStream else none
  | _ => none

/-- `stream` was active, and is not known any more. -/
structure Dropped (c d : ClientConn) (stream : StreamId) : Prop where
  was : c.runtime.activeStream = some stream
  activeStreams : d.runtime.activeStreams = c.runtime.activeStreams.erase stream
  active : d.runtime.active = none
  terminal : d.terminal = none

/-- The active terminal is the one of the active stream, which is known. -/
structure Coherent (c : ClientConn) : Prop where
  terminal : c.terminal.isSome = c.runtime.active.isSome
  known : ∀ active, c.runtime.active = some active →
    ∃ lastSeq, c.runtime.activeStreams.lookup active.stream = some { terminalId := active.terminal, lastSeq }

theorem coherent_new : Coherent {} := ⟨rfl, nofun⟩

theorem dropped_clear {active : ActiveTerminalState} (h : c.runtime.active = some active)
    (hstreams : d.runtime.activeStreams = c.runtime.activeStreams) (hactive : d.runtime.active = c.runtime.active) :
    Dropped c d.clearActiveTerminal active.stream := by
  have hclear : d.runtime.clearActive =
      { d.runtime with activeStreams := d.runtime.activeStreams.erase active.stream, active := none } := by
    unfold RuntimeState.clearActive
    rw [hactive, h]
  refine ⟨?_, ?_, ?_, rfl⟩
  · unfold RuntimeState.activeStream
    rw [h]
    rfl
  · show d.runtime.clearActive.activeStreams = _
    rw [hclear, ← hstreams]
  · show d.runtime.clearActive.active = none
    rw [hclear]

/-- **A command drops the active stream, or none.** -/
theorem frameForSessionCommand_streams (hc : Coherent c) {cmd : SessionCommand} {request : RequestFrame}
    (h : c.frameForSessionCommand cmd = some (d, request)) :
    SameStreams c d ∨ ∃ stream, c.dropsStream cmd = some stream ∧ Dropped c d stream := by
  cases cmd with
  | openTerminal target reply =>
    cases h
    split
    · next hsome =>
      have hterminal := hc.terminal
      rw [show c.terminal.isSome = true from hsome] at hterminal
      obtain ⟨active, hactive⟩ := Option.isSome_iff_exists.mp hterminal.symm
      refine .inr ⟨active.stream, ?_, dropped_clear hactive rfl rfl⟩
      show (if c.terminal.isSome then c.runtime.activeStream else none) = some active.stream
      rw [if_pos (show c.terminal.isSome = true from hsome)]
      exact congrArg (Option.map ActiveTerminalState.stream) hactive
    · exact .inl ⟨rfl, rfl, rfl⟩
  | killTerminal terminal reply =>
    cases h
    split
    · next hsame =>
      have hactive : ∃ active, c.runtime.active = some active := by
        obtain ⟨active, hactive, _⟩ := Option.map_eq_some_iff.mp hsame
        exact ⟨active, hactive⟩
      obtain ⟨active, hactive⟩ := hactive
      refine .inr ⟨active.stream, ?_, dropped_clear hactive rfl rfl⟩
      show (if c.runtime.activeTerminal = some terminal then c.runtime.activeStream else none) = some active.stream
      rw [if_pos (show c.runtime.activeTerminal = some terminal from hsame)]
      exact congrArg (Option.map ActiveTerminalState.stream) hactive
    · exact .inl ⟨rfl, rfl, rfl⟩
  | shutdown => cases h
  | createTerminal _ _ | listTerminals _ | readHistory _ _ _ _ | getServerConfig _ | setServerConfig _ _ =>
    cases h
    exact .inl ⟨rfl, rfl, rfl⟩

theorem frameForCommand_streams {cmd : TerminalCmd} {request : RequestFrame}
    (h : c.frameForCommand cmd = some (d, request)) : SameStreams c d := by
  cases cmd with
  | input _ _ | resize _ _ _ | kill _ =>
    obtain ⟨handle, _, heq⟩ := Option.map_eq_some_iff.mp h
    cases heq
    exact ⟨rfl, rfl, rfl⟩

/-! ## Coherence -/

theorem Coherent.same (h : Coherent c) (hd : SameStreams c d) : Coherent d where
  terminal := by rw [hd.terminal, hd.active, h.terminal]
  known := by
    rw [hd.active, hd.activeStreams]
    exact h.known

theorem Dropped.coherent {stream : StreamId} (hd : Dropped c d stream) : Coherent d where
  terminal := by rw [hd.terminal, hd.active]; rfl
  known := by
    rw [hd.active]
    nofun

theorem Opened.coherent {ack : OpenTerminalAck} (hd : Opened c d ack) : Coherent d where
  terminal := by rw [hd.terminal, hd.active]; rfl
  known := by
    rw [hd.active, hd.activeStreams]
    rintro _ ⟨⟩
    exact ⟨ack.endSeq, AList.lookup_insert _⟩

theorem Passed.coherent {data : StreamDataFrame} {active : ActiveTerminalState} {known : StreamState}
    (hd : Passed c d data active known) (hterminal : d.terminal.isSome) : Coherent d where
  terminal := by rw [hterminal, hd.active]; rfl
  known := by
    rw [hd.active, hd.activeStreams]
    rintro _ ⟨⟩
    refine ⟨data.seq, ?_⟩
    show (c.runtime.activeStreams.insert data.streamId ⟨known.terminalId, data.seq⟩).lookup active.stream =
      some ⟨active.terminal, data.seq⟩
    rw [hd.stream, hd.terminal]
    exact AList.lookup_insert _

/-- **Frames keep the client coherent**, and only some change its streams. -/
theorem Coherent.handleInboundFrame (h : Coherent c) {frame : FrameBody} {action : Action}
    (hs : c.handleInboundFrame frame = .ok (d, action)) : Coherent d := by
  unfold ClientConn.handleInboundFrame at hs
  split at hs
  · rcases handleResponseFrame_streams hs with ⟨ack, _, hd⟩ | ⟨_, hd⟩
    · exact hd.coherent
    · exact h.same hd
  · have hterminal : c.runtime.active.isSome → c.terminal.isSome := by
      rw [h.terminal]
      exact id
    obtain ⟨known, _, ⟨_, rfl, _⟩ | ⟨active, handle, hd, _, hhandle, _⟩⟩ := handleStreamDataFrame_ok hterminal hs
    · exact h
    · exact hd.coherent (by rw [hhandle]; rfl)
  all_goals
    cases hs
    exact h

end ClientConn

end CliPocket
