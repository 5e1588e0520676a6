import CliPocket.Daemon.Work

/-!
# Output frames that follow a log

- `Follows`: frames that carry on, byte for byte, in the output of a terminal;
- `follows_chunk`, `follows_chunks`: the frames of chunks do;
- `Terminal.Sound.remaining`: so do those of all chunks that a subscriber has still to get.
-/

namespace CliPocket

open Saturating (u64Max)

/-- Two parts of a list that meet. -/
theorem drop_take_append {L : List UInt8} {a b c : Nat} (hab : a ≤ b) (hbc : b ≤ c) :
    (L.take b).drop a ++ (L.take c).drop b = (L.take c).drop a := by
  have htake : L.take b = (L.take c).take b := by
    rw [List.take_take, Nat.min_eq_left hbc]
  have hb : b = a + (b - a) := by omega
  rw [htake]
  generalize L.take c = K
  rw [hb, List.drop_take, ← List.drop_drop, Nat.add_sub_cancel_left]
  exact List.take_append_drop _ _

/-! ## Frames -/

/-- A frame carries on in `L` from `last` on. -/
structure Next (L : List UInt8) (last : Nat) (data : StreamDataFrame) : Prop where
  offset : data.offset = none
  seq : data.seq = last + data.bytes.length
  bytes : data.bytes <+: L.drop last

/-- The frames carry on in `L` from `last` to `stop`; or, if `torn`, they do so up to one that goes back. -/
def Follows (torn : Prop) (L : List UInt8) : Nat → List StreamDataFrame → Nat → Prop
  | last, [], stop => last = stop
  | last, data :: rest, stop => (torn ∧ data.seq < last) ∨ (Next L last data ∧ Follows torn L data.seq rest stop)

variable {torn : Prop} {L M : List UInt8}

theorem Next.mono {last : Nat} {data : StreamDataFrame} (h : Next L last data) (M : List UInt8) :
    Next (L ++ M) last data where
  offset := h.offset
  seq := h.seq
  bytes := by
    rw [List.drop_append]
    exact h.bytes.trans (List.prefix_append _ _)

theorem Follows.append : ∀ {xs ys : List StreamDataFrame} {last mid stop : Nat}, Follows torn L last xs mid →
    Follows torn L mid ys stop → Follows torn L last (xs ++ ys) stop
  | [], _, _, _, _, hx, hy => by
    cases hx
    exact hy
  | _ :: _, _, _, _, _, hx, hy => hx.imp id fun h => ⟨h.1, h.2.append hy⟩

theorem Follows.mono (M : List UInt8) : ∀ {xs : List StreamDataFrame} {last stop : Nat}, Follows torn L last xs stop →
    Follows torn (L ++ M) last xs stop
  | [], _, _, h => h
  | _ :: _, _, _, h => h.imp id fun h => ⟨h.1.mono M, h.2.mono M⟩

theorem Follows.weaken : ∀ {xs : List StreamDataFrame} {last stop : Nat}, Follows False L last xs stop →
    Follows torn L last xs stop
  | [], _, _, h => h
  | _ :: _, _, _, h => .inr ((h.resolve_left And.left).imp id Follows.weaken)

/-- What follows is in the log. -/
theorem Follows.bytes : ∀ {xs : List StreamDataFrame} {last stop : Nat}, Follows False L last xs stop →
    last + (xs.flatMap StreamDataFrame.bytes).length = stop ∧ xs.flatMap StreamDataFrame.bytes <+: L.drop last
  | [], _, _, h => ⟨h, List.nil_prefix⟩
  | data :: rest, last, stop, h => by
    obtain ⟨hnext, hrest⟩ := h.resolve_left And.left
    obtain ⟨hlength, hbytes⟩ := hrest.bytes
    rw [hnext.seq] at hlength
    rw [List.flatMap_cons, List.length_append, ← Nat.add_assoc]
    refine ⟨hlength, ?_⟩
    obtain ⟨tail, htail⟩ := hnext.bytes
    have hdrop : L.drop data.seq = tail := by
      rw [hnext.seq, ← List.drop_drop, ← htail, List.drop_left]
    rw [← htail]
    exact (List.prefix_append_right_inj _).mpr (hdrop ▸ hbytes)

/-! ## Chunks -/

/-- The frames that the forwarder makes of a chunk. -/
def liveFrames (stream : StreamId) (terminalId : TerminalId) (chunk : OutputChunk) : List StreamDataFrame :=
  match liveOutputFrames stream terminalId chunk with
  | .ok outs => outs.map OutboundOutput.frame
  | .error _ => []

theorem follows_pieces {stream : StreamId} {terminalId : TerminalId} {start : Nat} :
    ∀ {pieces : List (List UInt8)} {sent : Nat}, pieces.flatten <+: L.drop (start + sent) →
      start + sent + pieces.flatten.length ≤ u64Max →
      Follows torn L (start + sent) ((pieceFrames stream terminalId start sent pieces).map OutboundOutput.frame)
        (start + sent + pieces.flatten.length)
  | [], _, _, _ => rfl
  | piece :: pieces, sent, hbytes, hroom => by
    rw [List.flatten_cons] at hbytes
    rw [List.flatten_cons, List.length_append] at hroom ⊢
    have hseq : Saturating.add u64Max start (sent + piece.length) = start + sent + piece.length := by
      unfold Saturating.add
      omega
    obtain ⟨tail, htail⟩ := hbytes
    rw [List.append_assoc] at htail
    have hrest : pieces.flatten <+: L.drop (start + (sent + piece.length)) := by
      rw [show start + (sent + piece.length) = start + sent + piece.length by omega, ← List.drop_drop, ← htail,
        List.drop_left]
      exact List.prefix_append _ _
    have hnext := @follows_pieces stream terminalId start pieces (sent + piece.length) hrest (by omega)
    refine .inr ⟨⟨rfl, hseq, ⟨_, htail⟩⟩, ?_⟩
    show Follows torn L (Saturating.add u64Max start (sent + piece.length)) _ _
    rw [hseq]
    rw [show start + (sent + piece.length) = start + sent + piece.length by omega] at hnext
    rw [← Nat.add_assoc]
    exact hnext

/-- **The frames of a chunk.** -/
theorem follows_chunk {stream : StreamId} {terminalId : TerminalId} {chunk : OutputChunk} {start : Nat}
    (hseq : chunk.seqAtEnd = start + chunk.bytes.length) (hbytes : chunk.bytes <+: L.drop start)
    (hroom : chunk.seqAtEnd ≤ u64Max) :
    Follows torn L start (liveFrames stream terminalId chunk) chunk.seqAtEnd := by
  unfold liveFrames liveOutputFrames
  dsimp only
  by_cases hempty : chunk.bytes.length = 0
  · rw [if_pos hempty]
    rw [hempty] at hseq
    exact hseq.symm
  · have hge : ¬chunk.seqAtEnd < chunk.bytes.length := by
      rw [hseq]
      exact Nat.not_lt.mpr (Nat.le_add_left _ _)
    have hstart : chunk.seqAtEnd - chunk.bytes.length = start := by
      rw [hseq]
      exact Nat.add_sub_cancel _ _
    rw [if_neg hempty, if_neg hge, hstart]
    have hflatten := Chunks.chunksOf_flatten (show 0 < outputChunkBytes by decide) chunk.bytes
    have hpieces := @follows_pieces torn L stream terminalId start (Chunks.chunksOf outputChunkBytes chunk.bytes) 0
      (by rw [hflatten]; exact hbytes) (by rw [hflatten, Nat.add_zero, ← hseq]; exact hroom)
    rw [hflatten, Nat.add_zero, ← hseq] at hpieces
    exact hpieces

/-- **The frames of chunks that follow one another.** -/
theorem follows_chunks {stream : StreamId} {terminalId : TerminalId} :
    ∀ {chunks : List OutputChunk} {start : Nat}, Chunks start chunks → chunks.flatMap OutputChunk.bytes <+: L.drop start →
      start + (chunks.flatMap OutputChunk.bytes).length ≤ u64Max →
      Follows torn L start (chunks.flatMap (liveFrames stream terminalId))
        (start + (chunks.flatMap OutputChunk.bytes).length)
  | [], _, _, _, _ => rfl
  | chunk :: rest, start, hchunks, hbytes, hroom => by
    obtain ⟨_, hseq, hrest⟩ := hchunks
    rw [List.flatMap_cons] at hbytes
    rw [List.flatMap_cons, List.length_append] at hroom
    rw [List.flatMap_cons, List.flatMap_cons, List.length_append]
    obtain ⟨tail, htail⟩ := hbytes
    rw [List.append_assoc] at htail
    have hfits : start + chunk.bytes.length ≤ u64Max := by omega
    refine Follows.append (follows_chunk hseq ⟨_, htail⟩ (hseq ▸ hfits)) ?_
    rw [hseq, ← Nat.add_assoc]
    refine follows_chunks hrest ?_ (by omega)
    rw [← List.drop_drop, ← htail, List.drop_left]
    exact List.prefix_append _ _

/-! ## What a subscriber has still to get -/

namespace Terminal

variable {t : Terminal}

/-- The chunks that a subscriber who has come to `next` has not got. -/
def remaining (t : Terminal) (next : Nat) : List OutputChunk := t.sent.drop next ++ t.pushed.toList

theorem remaining_split (t : Terminal) (next : Nat) :
    t.sent ++ t.pushed.toList = t.sent.take next ++ t.remaining next := by
  unfold remaining
  rw [← List.append_assoc, List.take_append_drop]

/-- **The remaining chunks follow** the ones before them, to the head of the ring. -/
theorem Sound.remaining (h : t.Sound) (next : Nat) :
    ∃ start, Chunks start (t.remaining next) ∧ (t.remaining next).flatMap OutputChunk.bytes = t.output.drop start ∧
      start + ((t.remaining next).flatMap OutputChunk.bytes).length = t.output.length := by
  have hchunks := h.chunks
  have houtput : t.output = (t.sent.take next).flatMap OutputChunk.bytes ++
      (t.remaining next).flatMap OutputChunk.bytes := by
    unfold output
    rw [t.remaining_split next, List.flatMap_append]
  rw [t.remaining_split next, chunks_append, Nat.zero_add] at hchunks
  refine ⟨_, hchunks.2, ?_, ?_⟩
  · rw [houtput, List.drop_left]
  · rw [houtput, List.length_append]

theorem Sound.length_le (h : t.Sound) (hhead : t.ring.headSeq ≤ u64Max) : t.output.length ≤ u64Max := by
  rw [← h.window.head]
  exact hhead

/-- Their frames. -/
theorem Sound.follows (h : t.Sound) (hroom : t.output.length ≤ u64Max) (next : Nat) (stream : StreamId) (terminalId : TerminalId) :
    ∃ start, Follows torn t.output start ((t.remaining next).flatMap (liveFrames stream terminalId)) t.output.length := by
  obtain ⟨start, hchunks, hbytes, hlength⟩ := h.remaining next
  refine ⟨start, ?_⟩
  have hfollows := @follows_chunks torn t.output stream terminalId _ _ hchunks (hbytes ▸ List.prefix_rfl)
    (by rw [hlength]; exact hroom)
  rw [hlength] at hfollows
  exact hfollows

/-- **A chunk that is pushed** follows the output before it. -/
theorem Sound.follows_push (h : t.Sound) {u : Terminal} {bytes : List UInt8} (hs : t.push bytes = some u)
    (hroom : t.ring.headSeq + bytes.length ≤ u64Max) (next : Nat) (stream : StreamId) (terminalId : TerminalId) :
    ∃ chunk, u.remaining next = t.remaining next ++ [chunk] ∧
      Follows torn u.output t.output.length (liveFrames stream terminalId chunk) u.output.length := by
  have hu := h.push hs hroom
  have houtput := output_push hs
  have hhead := h.window.head
  obtain ⟨hpushed, hne, rfl⟩ := push_eq_some hs
  refine ⟨{ seqAtEnd := (t.ring.push bytes).headSeq, bytes }, ?_, ?_⟩
  · unfold Terminal.remaining
    rw [hpushed, Option.toList_none, List.append_nil]
    rfl
  · have hseq : (t.ring.push bytes).headSeq = t.output.length + bytes.length := by
      rw [hu.window.head, houtput, List.length_append]
    rw [houtput, List.length_append, ← hseq]
    refine follows_chunk hseq ?_ ?_
    · have hdrop : bytes = (t.output ++ bytes).drop t.output.length := List.drop_left.symm
      exact ⟨[], (List.append_nil bytes).trans hdrop⟩
    · rw [hhead] at hroom
      exact hseq ▸ hroom

/-- The terminal has gone on: its output is longer, and so are the frames a subscriber has still to get. -/
structure Grows (torn : Prop) (t u : Terminal) : Prop where
  sound : u.Sound
  room : u.output.length ≤ u64Max
  sent : t.sent.length ≤ u.sent.length
  output : ∃ more, u.output = t.output ++ more
  remaining : ∀ next ≤ t.sent.length, ∀ stream terminalId, ∃ more,
    (u.remaining next).flatMap (liveFrames stream terminalId) =
      (t.remaining next).flatMap (liveFrames stream terminalId) ++ more ∧
    Follows torn u.output t.output.length more u.output.length

theorem grows_of_same {u : Terminal} (hsound : u.Sound) (hroom : t.output.length ≤ u64Max) (hsent : u.sent = t.sent)
    (hpushed : u.pushed = t.pushed) : Grows torn t u := by
  have houtput : u.output = t.output := by
    unfold Terminal.output
    rw [hsent, hpushed]
  refine ⟨hsound, houtput ▸ hroom, Nat.le_of_eq (by rw [hsent]), ⟨[], by rw [houtput, List.append_nil]⟩, ?_⟩
  intro next _ stream terminalId
  refine ⟨[], ?_, by rw [houtput]; rfl⟩
  unfold Terminal.remaining
  rw [hsent, hpushed, List.append_nil]

/-- **What becomes of a terminal.** -/
theorem Sound.grows (h : t.Sound) (hroom : t.output.length ≤ u64Max) {u : Terminal} {move : Daemon.TerminalMove}
    (hmove : ∀ bytes, move = .push bytes → t.ring.headSeq + bytes.length ≤ u64Max)
    (hs : Daemon.moveTerminal t move = some u) : Grows torn t u := by
  have hsame : ∀ {u : Terminal}, u.sent = t.sent → u.pushed = t.pushed → Window u.ring t.output → Grows torn t u := by
    intro u hsent hpushed hwindow
    have houtput : u.output = t.output := by
      unfold Terminal.output
      rw [hsent, hpushed]
    refine grows_of_same ⟨houtput ▸ hwindow, ?_⟩ hroom hsent hpushed
    rw [hsent, hpushed]
    exact h.chunks
  cases move with
  | push bytes =>
    have hfits := hmove bytes rfl
    have houtput := output_push hs
    refine ⟨h.push hs hfits, ?_, ?_, ⟨bytes, houtput⟩, ?_⟩
    · rw [houtput, List.length_append, ← h.window.head]
      exact hfits
    · obtain ⟨_, _, rfl⟩ := push_eq_some hs
      exact Nat.le_refl _
    · intro next _ stream terminalId
      obtain ⟨chunk, hremaining, hfollows⟩ := h.follows_push hs hfits next stream terminalId
      refine ⟨_, ?_, hfollows⟩
      rw [hremaining, List.flatMap_append, List.flatMap_singleton]
  | broadcast =>
    have houtput := output_broadcast hs
    have hsound := h.broadcast hs
    obtain ⟨chunk, hpushed, rfl⟩ := Option.map_eq_some_iff.mp hs
    refine ⟨hsound, houtput ▸ hroom, ?_, ⟨[], by rw [houtput, List.append_nil]⟩, ?_⟩
    · show t.sent.length ≤ (t.sent ++ [chunk]).length
      rw [List.length_append]
      exact Nat.le_add_right _ _
    · intro next hnext stream terminalId
      refine ⟨[], ?_, by rw [houtput]; rfl⟩
      have hremaining : ({ t with sent := t.sent ++ [chunk], pushed := none } : Terminal).remaining next =
          t.remaining next := by
        unfold Terminal.remaining
        rw [hpushed, List.drop_append_of_le_length hnext]
        exact List.append_nil _
      rw [hremaining, List.append_nil]
  | title title =>
    cases hs
    exact hsame rfl rfl h.window
  | resize cols rows =>
    cases hs
    exact hsame rfl rfl ⟨h.window.tracker, h.window.head, h.window.tail_le, h.window.bytes, h.window.first, h.window.sorted,
      h.window.offset_le, h.window.since, h.window.state, h.window.interval_pos⟩
  | exit =>
    cases hs
    exact hsame rfl rfl h.window
  | reap =>
    unfold Daemon.moveTerminal at hs
    dsimp only at hs
    split at hs
    · cases hs
      exact hsame rfl rfl h.window
    · cases hs

/-- The frames in front of a subscriber, when the terminal has gone on. -/
theorem Grows.follows {u : Terminal} (h : Grows torn t u) {next : Nat} (hnext : next ≤ t.sent.length) {stream : StreamId}
    {terminalId : TerminalId} {front : List StreamDataFrame} {last : Nat}
    (hfront : Follows torn t.output last (front ++ (t.remaining next).flatMap (liveFrames stream terminalId))
      t.output.length) :
    Follows torn u.output last (front ++ (u.remaining next).flatMap (liveFrames stream terminalId)) u.output.length := by
  obtain ⟨more, houtput⟩ := h.output
  obtain ⟨frames, hremaining, hmore⟩ := h.remaining next hnext stream terminalId
  rw [hremaining, ← List.append_assoc]
  refine Follows.append ?_ hmore
  rw [houtput]
  exact hfront.mono more

end Terminal

end CliPocket
