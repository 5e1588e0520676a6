import CliPocket.Client.Streams
import CliPocket.Lib.Inbox
import CliPocket.Stream.Growth

/-!
# Where the client is in the output

The stream that is open on the client's side, and how far it has come in the output of its terminal; what a frame must
be for the client to go on there.

- `ClientConn.cursor`: the place;
- `Cursor.hear`: what a frame must find, for the output to carry on without a gap or an overlap;
- `Cursor.hear_handled`: **what the client makes of a frame**;
- `Cursor.hear_ne_movedBackwards`: where nothing goes back, none of its errors says so.
-/

namespace CliPocket

/-! ## The place -/

/-- The stream that is open, and the sequence number of what has been passed on last. -/
structure Cursor where
  stream : StreamId
  terminalId : TerminalId
  last : StreamSeq

/-- The client goes on to `seq`. -/
def Cursor.to (p : Cursor) (seq : StreamSeq) : Cursor := { p with last := seq }

/-- Where an answer to an open begins. -/
def OpenTerminalAck.cursor (ack : OpenTerminalAck) : Cursor := ⟨ack.streamId, ack.info.terminal, ack.endSeq⟩

namespace ClientConn

variable {c d : ClientConn}

def cursor (c : ClientConn) : Option Cursor :=
  c.runtime.active.bind fun active => (c.runtime.activeStreams.lookup active.stream).map fun state =>
    { stream := active.stream, terminalId := active.terminal, last := state.lastSeq }

theorem cursor_same (h : SameStreams c d) : d.cursor = c.cursor := by
  unfold cursor
  rw [h.active, h.activeStreams]

theorem cursor_dropped {stream : StreamId} (h : Dropped c d stream) : d.cursor = none := by
  unfold cursor
  rw [h.active]
  rfl

theorem cursor_opened {ack : OpenTerminalAck} (h : Opened c d ack) : d.cursor = some ack.cursor := by
  unfold cursor
  rw [h.active, h.activeStreams, Option.bind_some]
  dsimp only
  rw [AList.lookup_insert]
  rfl

theorem cursor_passed {data : StreamDataFrame} {active : ActiveTerminalState} {known : StreamState}
    (h : Passed c d data active known) (hknown : c.runtime.activeStreams.lookup data.streamId = some known) :
    c.cursor = some ⟨data.streamId, active.terminal, known.lastSeq⟩ ∧
      d.cursor = some ⟨data.streamId, active.terminal, data.seq⟩ := by
  unfold cursor
  constructor
  · rw [h.was, Option.bind_some, h.stream, hknown]
    rfl
  · rw [h.active, h.activeStreams, Option.bind_some]
    dsimp only
    rw [h.stream, AList.lookup_insert]
    rfl

/-- The cursor is on the active stream. -/
theorem activeStream_of_cursor {p : Cursor} (h : c.cursor = some p) : c.runtime.activeStream = some p.stream := by
  obtain ⟨active, hactive, hmap⟩ := Option.bind_eq_some_iff.mp h
  obtain ⟨state, _, rfl⟩ := Option.map_eq_some_iff.mp hmap
  unfold RuntimeState.activeStream
  rw [hactive]
  rfl

end ClientConn

/-! ## The answer to an open -/

/-- The bytes of the snapshot, behind those that bring a terminal to the state before it. -/
def OpenTerminalAck.snapshotBytes (ack : OpenTerminalAck) : List UInt8 :=
  ack.renderBytes.drop (ack.renderBytes.length - (ack.endSeq - ack.startSeq))

/-- The answer shows the output between its two sequence numbers. -/
structure Shows (L : List UInt8) (ack : OpenTerminalAck) : Prop where
  start_le : ack.startSeq ≤ ack.endSeq
  end_le : ack.endSeq ≤ L.length
  bytes : ack.snapshotBytes = (L.take ack.endSeq).drop ack.startSeq

theorem Shows.mono {L : List UInt8} {ack : OpenTerminalAck} (h : Shows L ack) (M : List UInt8) : Shows (L ++ M) ack where
  start_le := h.start_le
  end_le := by
    rw [List.length_append]
    exact Nat.le_add_right_of_le h.end_le
  bytes := by
    rw [List.take_append_of_le_length h.end_le]
    exact h.bytes

/-! ## Frames -/

/-- What the client has heard of the streams. -/
inductive Heard
  | opened (ack : OpenTerminalAck)
  | passed (data : StreamDataFrame)

/-- What becomes of a frame that has been handled. -/
def heardOf (frame : FrameBody) (action : Action) : List Heard :=
  match frame, action with
  | .response ⟨_, .ok (.openTerminal ack)⟩, _ => [.opened ack]
  | .streamData data, .emit _ => [.passed data]
  | _, _ => []

namespace Cursor

variable {torn : Prop} {L M : TerminalId → List UInt8} {K K' : Option Cursor → Prop} {frame : FrameBody}

/-- Output on the open stream carries on in the output of its terminal; or, if `torn`, it goes back. -/
def hear (torn : Prop) (L : TerminalId → List UInt8) (frame : FrameBody) (K : Option Cursor → Prop)
    (cursor : Option Cursor) : Prop :=
  match frame, cursor with
  | .streamData data, some p =>
    if p.stream = data.streamId then
      (torn ∧ data.seq < p.last ∧ K none) ∨ (Next (L p.terminalId) p.last data ∧ K (some (p.to data.seq)))
    else K (some p)
  | .response ⟨_, .ok (.openTerminal ack)⟩, _ => Shows (L ack.info.terminal) ack ∧ K (some ack.cursor)
  | _, cursor => K cursor

theorem hear_plain (h : frame.Plain) (cursor : Option Cursor) : hear torn L frame K cursor = K cursor := by
  unfold hear
  split
  · exact h.elim
  · exact h.elim
  · rfl

theorem hear_none {data : StreamDataFrame} : hear torn L (.streamData data) K none = K none := rfl

/-- Output is on the open stream, or on another one. -/
theorem hear_data {data : StreamDataFrame} {p : Cursor} : hear torn L (.streamData data) K (some p) =
    if p.stream = data.streamId then
      (torn ∧ data.seq < p.last ∧ K none) ∨ (Next (L p.terminalId) p.last data ∧ K (some (p.to data.seq)))
    else K (some p) := rfl

theorem hear_ack {id : RequestId} {ack : OpenTerminalAck} {cursor : Option Cursor} :
    hear torn L (.response ⟨id, .ok (.openTerminal ack)⟩) K cursor =
      (Shows (L ack.info.terminal) ack ∧ K (some ack.cursor)) := rfl

/-- **A client that has left its stream** goes on until the next answer to an open. -/
theorem carries_left : Inbox.Carries (hear torn L) fun a b => b = none ∨ b = a := by
  intro frame K K' hK a b hab h
  rcases frame.stream_cases with ⟨data, rfl⟩ | ⟨_, ack, rfl⟩ | hplain
  · cases a with
    | none =>
      have hb : b = none := hab.elim id id
      subst hb
      exact hK none none (.inl rfl) h
    | some p =>
      rw [hear_data] at h
      rcases hab with rfl | rfl
      · rw [hear_none]
        split at h
        · rcases h with ⟨_, _, h⟩ | ⟨_, h⟩
          · exact hK _ _ (.inl rfl) h
          · exact hK _ _ (.inl rfl) h
        · exact hK _ _ (.inl rfl) h
      · rw [hear_data]
        split at h
        · next hstream =>
          rw [if_pos hstream]
          refine h.imp ?_ ?_
          · exact fun h => ⟨h.1, h.2.1, hK _ _ (.inr rfl) h.2.2⟩
          · exact fun h => ⟨h.1, hK _ _ (.inr rfl) h.2⟩
        · next hstream =>
          rw [if_neg hstream]
          exact hK _ _ (.inr rfl) h
  · rw [hear_ack] at h ⊢
    exact ⟨h.1, hK _ _ (.inr rfl) h.2⟩
  · rw [hear_plain hplain] at h ⊢
    exact hK _ _ hab h

theorem carries_eq : Inbox.Carries (hear torn L) Eq := by
  rintro frame K K' hK cursor _ rfl h
  rcases frame.stream_cases with ⟨data, rfl⟩ | ⟨_, ack, rfl⟩ | hplain
  · cases cursor with
    | none => exact hK _ _ rfl h
    | some p =>
      rw [hear_data] at h ⊢
      split at h
      · next hstream =>
        rw [if_pos hstream]
        refine h.imp ?_ ?_
        · exact fun h => ⟨h.1, h.2.1, hK _ _ rfl h.2.2⟩
        · exact fun h => ⟨h.1, hK _ _ rfl h.2⟩
      · next hstream =>
        rw [if_neg hstream]
        exact hK _ _ rfl h
  · rw [hear_ack] at h ⊢
    exact ⟨h.1, hK _ _ rfl h.2⟩
  · rw [hear_plain hplain] at h ⊢
    exact hK _ _ rfl h

/-- **The terminals go on.** -/
theorem hear_grows (hL : ∀ id, L id <+: M id) (frame : FrameBody) (K K' : Option Cursor → Prop)
    (hK : ∀ cursor, K cursor → K' cursor) (cursor : Option Cursor) (h : hear torn L frame K cursor) :
    hear torn M frame K' cursor := by
  rcases frame.stream_cases with ⟨data, rfl⟩ | ⟨_, ack, rfl⟩ | hplain
  · cases cursor with
    | none => exact hK _ h
    | some p =>
      rw [hear_data] at h ⊢
      split at h
      · next hstream =>
        rw [if_pos hstream]
        refine h.imp ?_ ?_
        · exact fun h => ⟨h.1, h.2.1, hK _ h.2.2⟩
        · rintro ⟨hnext, h⟩
          obtain ⟨more, hmore⟩ := hL p.terminalId
          exact ⟨hmore ▸ hnext.mono more, hK _ h⟩
      · next hstream =>
        rw [if_neg hstream]
        exact hK _ h
  · rw [hear_ack] at h ⊢
    obtain ⟨more, hmore⟩ := hL ack.info.terminal
    exact ⟨hmore ▸ h.1.mono more, hK _ h.2⟩
  · rw [hear_plain hplain] at h ⊢
    exact hK _ h

/-! ## The client -/

/-- What the client has heard with a frame, and where it is behind it. -/
inductive Went (L : TerminalId → List UInt8) (before after : Option Cursor) : List Heard → Prop
  | stayed (same : after = before) : Went L before after []
  | passed (data : StreamDataFrame) (p : Cursor) (was : before = some p) (stream : p.stream = data.streamId)
      (next : Next (L p.terminalId) p.last data) (now : after = some (p.to data.seq)) : Went L before after [.passed data]
  | opened (ack : OpenTerminalAck) (shows : Shows (L ack.info.terminal) ack) (now : after = some ack.cursor) :
      Went L before after [.opened ack]

/-- **What the client makes of a frame.** -/
theorem hear_handled {c d : ClientConn} {action : Action} (hc : c.Coherent)
    (hs : c.handleInboundFrame frame = .ok (d, action)) (h : hear torn L frame K c.cursor) :
    Went L c.cursor d.cursor (heardOf frame action) ∧ K d.cursor := by
  rcases frame.stream_cases with ⟨data, rfl⟩ | ⟨_, ack, rfl⟩ | hplain
  · obtain ⟨known, hknown, hd⟩ := ClientConn.handleStreamDataFrame_ok (fun hactive => hc.terminal.trans hactive) hs
    rcases hd with ⟨hother, rfl, rfl⟩ | ⟨active, handle, hpassed, _, _, rfl⟩
    · refine ⟨.stayed rfl, ?_⟩
      cases hcursor : d.cursor with
      | none =>
        rw [hcursor] at h
        exact h
      | some p =>
        rw [hcursor, hear_data, if_neg] at h
        · exact h
        · intro hstream
          exact hother ((ClientConn.activeStream_of_cursor hcursor).trans (congrArg some hstream))
    · obtain ⟨hwas, hnow⟩ := ClientConn.cursor_passed hpassed hknown
      rw [hwas, hear_data, if_pos rfl] at h
      rw [hnow]
      obtain ⟨_, hback, _⟩ | ⟨hnext, hK⟩ := h
      · exact absurd hback (Nat.not_lt.mpr hpassed.forward)
      · exact ⟨.passed data _ hwas rfl hnext rfl, hK⟩
  · have hnow := ClientConn.cursor_opened (ClientConn.handleInboundFrame_opened hs)
    rw [hnow]
    exact ⟨.opened ack h.1 rfl, h.2⟩
  · rw [hear_plain hplain] at h
    rw [ClientConn.cursor_same (ClientConn.handleInboundFrame_plain hplain hs)]
    refine ⟨?_, h⟩
    have hnothing : heardOf frame action = [] := by
      unfold heardOf
      split
      · exact hplain.elim
      · exact hplain.elim
      · rfl
    rw [hnothing]
    exact .stayed rfl

/-- **Nothing goes back**, and the client does not say so. -/
theorem hear_ne_movedBackwards {c : ClientConn} {e : ClientError} (hs : c.handleInboundFrame frame = .error e)
    (h : hear False L frame K c.cursor) : e ≠ ClientConn.movedBackwards := by
  rintro rfl
  obtain ⟨data, known, active, rfl, hknown, hactive, hstream, hback⟩ := ClientConn.handleInboundFrame_movedBackwards hs
  have hcursor : c.cursor = some ⟨data.streamId, active.terminal, known.lastSeq⟩ := by
    unfold ClientConn.cursor
    rw [hactive, Option.bind_some, hstream, hknown]
    rfl
  rw [hcursor, hear_data, if_pos rfl] at h
  obtain ⟨hnext, _⟩ := h.resolve_left And.left
  refine absurd hback (Nat.not_lt.mpr ?_)
  rw [hnext.seq]
  exact Nat.le_add_right _ _

end Cursor

end CliPocket
