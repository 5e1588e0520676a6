import CliPocket.Stream.Growth

/-!
# The chunks of a terminal come in order

Their sequence numbers, which saturate, and the frames that forwarders make of them. A read is shorter than a frame of
output: each chunk is one frame, also where sequence numbers have come to their end.

- `Terminal.Paced`, `Terminal.Onward`: the chunks of a terminal are in order, and stay so;
- `Daemon.AllPaced`, `Daemon.Onward`: so do those of all terminals of a daemon;
- `seqs_liveOutputFrames`: **a chunk of a read is one frame.**
-/

namespace CliPocket

open Saturating (u64Max)

/-! ## Terminals -/

namespace ScrollbackRing

theorem maybePlaceAnchor_headSeq (r : ScrollbackRing) : r.maybePlaceAnchor.headSeq = r.headSeq := by
  unfold maybePlaceAnchor
  split_ifs <;> rfl

theorem maybeEvict_headSeq (r : ScrollbackRing) : r.maybeEvict.headSeq = r.headSeq := by
  apply evictLoop_invariant (I := fun s => s.headSeq = r.headSeq)
  · intro s s' hs hstep
    obtain ⟨_, _, _, _, rfl⟩ := evictStep_eq_some hstep
    exact hs
  · rfl

theorem pushByte_headSeq (r : ScrollbackRing) (b : UInt8) : (r.pushByte b).headSeq = Saturating.add u64Max r.headSeq 1 := by
  unfold pushByte
  rw [maybeEvict_headSeq, maybePlaceAnchor_headSeq]
  rfl

/-- The head does not go back, and saturates. -/
theorem push_headSeq : ∀ (chunk : List UInt8) (r : ScrollbackRing), r.headSeq ≤ u64Max →
    r.headSeq ≤ (r.push chunk).headSeq ∧ (r.push chunk).headSeq ≤ u64Max
  | [], r, h => ⟨Nat.le_refl _, h⟩
  | b :: bs, r, h => by
    have hbyte := r.pushByte_headSeq b
    have hnext := push_headSeq bs (r.pushByte b) (by rw [hbyte]; exact Saturating.add_le _ _ _)
    rw [push_cons]
    refine ⟨Nat.le_trans ?_ hnext.1, hnext.2⟩
    rw [hbyte]
    exact Nat.le_min.mpr ⟨Nat.le_succ _, h⟩

end ScrollbackRing

/-- Numbers in order. -/
abbrev Ascending (seqs : List StreamSeq) : Prop := seqs.Pairwise (· ≤ ·)

/-- The last number goes up. -/
theorem Ascending.last {seqs : List StreamSeq} {head head' : StreamSeq} (h : Ascending (seqs ++ [head])) (hle : head ≤ head') :
    Ascending (seqs ++ [head']) := by
  obtain ⟨hseqs, _, hall⟩ := List.pairwise_append.mp h
  refine List.pairwise_append.mpr ⟨hseqs, List.pairwise_singleton _ _, ?_⟩
  intro seq hseq last hlast
  cases List.mem_singleton.mp hlast
  exact Nat.le_trans (hall seq hseq head List.mem_cons_self) hle

/-- The last number comes twice. -/
theorem Ascending.again {seqs : List StreamSeq} {head : StreamSeq} (h : Ascending (seqs ++ [head])) :
    Ascending (seqs ++ [head] ++ [head]) := by
  refine List.pairwise_append.mpr ⟨h, List.pairwise_singleton _ _, ?_⟩
  intro seq hseq last hlast
  cases List.mem_singleton.mp hlast
  rcases List.mem_append.mp hseq with hseq | hseq
  · exact (List.pairwise_append.mp h).2.2 seq hseq head List.mem_cons_self
  · cases List.mem_singleton.mp hseq
    exact Nat.le_refl _

namespace Terminal

variable {t u : Terminal}

/-- The sequence numbers of the chunks that a subscriber has still to get. -/
def seqs (t : Terminal) (next : Nat) : List StreamSeq := (t.remaining next).map OutputChunk.seqAtEnd

/-- The chunks come in order, up to the head of the ring, and each is one frame. -/
structure Paced (t : Terminal) : Prop where
  head : t.ring.headSeq ≤ u64Max
  size : ∀ chunk ∈ t.sent ++ t.pushed.toList, chunk.bytes.length ≤ outputChunkBytes ∧ chunk.seqAtEnd ≤ u64Max
  order : Ascending (t.seqs 0 ++ [t.ring.headSeq])

/-- The terminal has gone on: what follows in front of a subscriber is still in order. -/
structure Onward (t u : Terminal) : Prop where
  paced : Paced u
  follows : ∀ next front, Ascending (front ++ t.seqs next ++ [t.ring.headSeq]) →
    Ascending (front ++ u.seqs next ++ [u.ring.headSeq])

theorem seqs_sublist (t : Terminal) (next : Nat) : (t.seqs next).Sublist (t.seqs 0) :=
  ((List.drop_sublist next t.sent).append_right _).map _

theorem paced_new {ring : ScrollbackRing} (hring : ring.headSeq ≤ u64Max) (createdAtUnixMs : Nat)
    (title : Option String) : Paced { createdAtUnixMs, title, ring } :=
  ⟨hring, fun _ hc => (by cases hc), List.pairwise_singleton _ _⟩

/-- Neither chunks nor head have changed. -/
theorem Paced.onward_same (h : t.Paced) (hsent : u.sent = t.sent) (hpushed : u.pushed = t.pushed)
    (hhead : u.ring.headSeq = t.ring.headSeq) : Onward t u := by
  have hseqs : ∀ next, u.seqs next = t.seqs next := by
    intro next
    unfold seqs remaining
    rw [hsent, hpushed]
  refine ⟨⟨hhead ▸ h.head, ?_, ?_⟩, ?_⟩
  · rw [hsent, hpushed]
    exact h.size
  · rw [hseqs, hhead]
    exact h.order
  · intro next front hfront
    rw [hseqs, hhead]
    exact hfront

theorem Onward.trans {v : Terminal} (h : Onward t u) (h' : Onward u v) : Onward t v :=
  ⟨h'.paced, fun next front hfront => h'.follows next front (h.follows next front hfront)⟩

/-- **The reader pushes a chunk.** -/
theorem Paced.onward_push (h : t.Paced) {bytes : List UInt8} (hlength : bytes.length ≤ outputChunkBytes)
    (hs : t.push bytes = some u) : Onward t u := by
  obtain ⟨hpushed, _, rfl⟩ := push_eq_some hs
  obtain ⟨hle, hroom⟩ := t.ring.push_headSeq bytes h.head
  have hfollows : ∀ next front, Ascending (front ++ t.seqs next ++ [t.ring.headSeq]) →
      Ascending (front ++ (t.seqs next ++ [(t.ring.push bytes).headSeq]) ++ [(t.ring.push bytes).headSeq]) := by
    intro next front hfront
    rw [← List.append_assoc front]
    exact (hfront.last hle).again
  have hseqs : ∀ next, seqs { t with
      ring := t.ring.push bytes, pushed := some { seqAtEnd := (t.ring.push bytes).headSeq, bytes } } next =
      t.seqs next ++ [(t.ring.push bytes).headSeq] := by
    intro next
    unfold seqs remaining
    rw [hpushed, Option.toList_none, List.append_nil, List.map_append]
    rfl
  refine ⟨⟨hroom, ?_, ?_⟩, ?_⟩
  · intro chunk hchunk
    rcases List.mem_append.mp hchunk with hchunk | hchunk
    · exact h.size chunk (List.mem_append_left _ hchunk)
    · cases List.mem_singleton.mp hchunk
      exact ⟨hlength, hroom⟩
  · rw [hseqs]
    exact hfollows 0 [] h.order
  · intro next front hfront
    rw [hseqs]
    exact hfollows next front hfront

/-- The reader sends it. -/
theorem Paced.onward_broadcast (h : t.Paced) (hs : t.broadcast = some u) : Onward t u := by
  obtain ⟨chunk, hpushed, rfl⟩ := Option.map_eq_some_iff.mp hs
  have hseqs : ∀ next, (seqs { t with sent := t.sent ++ [chunk], pushed := none } next).Sublist (t.seqs next) := by
    intro next
    refine List.Sublist.map _ ?_
    unfold remaining
    rw [hpushed, Option.toList_none, List.append_nil, List.drop_append]
    exact (List.drop_sublist _ _).append_left _
  refine ⟨⟨h.head, ?_, ?_⟩, ?_⟩
  · have hsize := h.size
    rw [hpushed] at hsize
    show ∀ c ∈ t.sent ++ [chunk] ++ [], _
    rw [List.append_nil]
    exact hsize
  · exact h.order.sublist ((hseqs 0).append_right _)
  · intro next front hfront
    exact hfront.sublist (((hseqs next).append_left front).append_right _)

/-- **What becomes of a terminal**, but for its output. -/
theorem Paced.onward_move (h : t.Paced) {move : Daemon.TerminalMove} (hmove : ∀ bytes, move ≠ .push bytes)
    (hs : Daemon.moveTerminal t move = some u) : Onward t u := by
  cases move with
  | push bytes => exact absurd rfl (hmove bytes)
  | broadcast => exact h.onward_broadcast hs
  | title | resize | exit =>
    cases hs
    exact h.onward_same rfl rfl rfl
  | reap =>
    unfold Daemon.moveTerminal at hs
    dsimp only at hs
    split at hs
    · cases hs
      exact h.onward_same rfl rfl rfl
    · cases hs

end Terminal

namespace Daemon

variable {d e : Daemon}

def AllPaced (d : Daemon) : Prop := ∀ id t, d.terminals.lookup id = some t → t.Paced

/-- All terminals have gone on. -/
structure Onward (d e : Daemon) : Prop where
  paced : e.AllPaced
  onward : ∀ id t, d.terminals.lookup id = some t → ∃ u, e.terminals.lookup id = some u ∧ Terminal.Onward t u

theorem AllPaced.onward_same (h : d.AllPaced) (hterminals : e.terminals = d.terminals) : Onward d e where
  paced id t ht := h id t (hterminals ▸ ht)
  onward id t ht := ⟨t, hterminals ▸ ht, (h id t ht).onward_same rfl rfl rfl⟩

theorem AllPaced.onward_set (h : d.AllPaced) {id : TerminalId} {t u : Terminal} (ht : d.terminals.lookup id = some t)
    (hu : Terminal.Onward t u) : Onward d (d.setTerminal id u) where
  paced id' t' ht' := by
    by_cases hid : id' = id
    · subst hid
      cases (AList.lookup_insert _).symm.trans ht'
      exact hu.paced
    · exact h id' t' ((AList.lookup_insert_ne hid).symm.trans ht')
  onward id' t' ht' := by
    by_cases hid : id' = id
    · subst hid
      cases ht.symm.trans ht'
      exact ⟨u, AList.lookup_insert _, hu⟩
    · exact ⟨t', (AList.lookup_insert_ne hid).trans ht', (h id' t' ht').onward_same rfl rfl rfl⟩

theorem new_headSeq {cols rows : Nat} {capacity : Option Nat} {r : ScrollbackRing}
    (h : ScrollbackRing.new cols rows capacity = .ok r) : r.headSeq = 0 := (ScrollbackRing.new_window h).head

/-- **A new terminal.** -/
theorem AllPaced.onward_create (h : d.AllPaced) {params : TerminalCreateParams} {env : Env} {info : TerminalInfo}
    (hfresh : Talk.freshSpawn d env = true) (hs : d.create params env = .ok (e, info)) : Onward d e := by
  unfold create at hs
  split at hs
  · cases hs
  · split at hs
    · cases hs
    · next id hid =>
      split at hs
      · cases hs
      · next ring hring =>
        cases hs
        unfold Talk.freshSpawn at hfresh
        rw [hid] at hfresh
        have hnone : d.terminals.lookup id = none := Option.isNone_iff_eq_none.mp hfresh
        refine ⟨?_, ?_⟩
        · intro id' t' ht'
          by_cases hne : id' = id
          · subst hne
            cases (AList.lookup_insert _).symm.trans ht'
            exact Terminal.paced_new (by rw [new_headSeq hring]; exact Nat.zero_le _) _ _
          · exact h id' t' ((AList.lookup_insert_ne hne).symm.trans ht')
        · intro id' t' ht'
          have hne : id' ≠ id := by
            rintro rfl
            cases hnone.symm.trans ht'
          exact ⟨t', (AList.lookup_insert_ne hne).trans ht', (h id' t' ht').onward_same rfl rfl rfl⟩

/-- **A request.** -/
theorem AllPaced.onward_handleRequest (h : d.AllPaced) (request : RequestFrame) {env : Env}
    (hfresh : Talk.freshSpawn d env = true) : Onward d (d.handleRequest request env).1 := by
  have hsame : Onward d d := h.onward_same rfl
  unfold handleRequest
  dsimp only
  split
  case h_2 =>
    split
    · next hcreate => exact h.onward_create hfresh hcreate
    · exact hsame
  case h_5 =>
    split
    · exact hsame
    · split
      · exact hsame
      · split <;> exact hsame
  case h_7 =>
    split
    · exact h.onward_same rfl
    · exact hsame
  case h_9 =>
    split
    · split
      · next terminal hterminal =>
        split
        · exact hsame
        · exact h.onward_set hterminal ((h _ _ hterminal).onward_same rfl rfl rfl)
      · exact hsame
    · exact hsame
  all_goals first
    | exact hsame
    | split <;> exact hsame

end Daemon

/-! ## Frames -/

/-- **A chunk of a read is one frame.** -/
theorem seqs_liveOutputFrames {stream : StreamId} {terminalId : TerminalId} {chunk : OutputChunk} {frames : List OutboundOutput}
    (h : liveOutputFrames stream terminalId chunk = .ok frames) (hlength : chunk.bytes.length ≤ outputChunkBytes)
    (hroom : chunk.seqAtEnd ≤ u64Max) : (frames.map fun out => out.frame.seq).Sublist [chunk.seqAtEnd] := by
  unfold liveOutputFrames at h
  dsimp only at h
  split at h
  · cases h
    exact List.nil_sublist _
  · next hpos =>
    split at h
    · cases h
    · next hle =>
      cases h
      cases hbytes : chunk.bytes with
      | nil =>
        rw [hbytes] at hpos
        exact absurd rfl hpos
      | cons b bs =>
        have hpieces : Chunks.chunksOf outputChunkBytes (b :: bs) = [b :: bs] := by
          rw [hbytes] at hlength
          unfold Chunks.chunksOf
          rw [List.length_cons, Chunks.chunksFrom, List.take_of_length_le hlength, List.drop_of_length_le hlength]
          cases bs.length <;> rfl
        rw [hpieces]
        unfold pieceFrames pieceFrames
        rw [hbytes] at hle
        show [Saturating.add u64Max (chunk.seqAtEnd - (b :: bs).length) (0 + (b :: bs).length)].Sublist [chunk.seqAtEnd]
        have hseq : Saturating.add u64Max (chunk.seqAtEnd - (b :: bs).length) (0 + (b :: bs).length) = chunk.seqAtEnd := by
          have hroom : (chunk.seqAtEnd : Nat) ≤ u64Max := hroom
          unfold Saturating.add
          rw [Nat.zero_add, Nat.sub_add_cancel (Nat.not_lt.mp hle)]
          exact Nat.min_eq_left hroom
        rw [hseq]

/-- The sequence number of a frame of output on `stream`. -/
def FrameBody.seqOn (stream : StreamId) : FrameBody → Option StreamSeq
  | .streamData data => if data.streamId = stream then some data.seq else none
  | _ => none

def seqsOn (stream : StreamId) (frames : List FrameBody) : List StreamSeq := frames.filterMap (FrameBody.seqOn stream)

/-- The same of what waits in the output queue. -/
def queuedOn (stream : StreamId) (queue : List OutboundOutput) : List StreamSeq :=
  (queue.filter fun out => out.stream = stream).map fun out => out.frame.seq

theorem seqsOn_append (stream : StreamId) (xs ys : List FrameBody) : seqsOn stream (xs ++ ys) = seqsOn stream xs ++ seqsOn stream ys :=
  List.filterMap_append

theorem queuedOn_append (stream : StreamId) (xs ys : List OutboundOutput) :
    queuedOn stream (xs ++ ys) = queuedOn stream xs ++ queuedOn stream ys := by
  unfold queuedOn
  rw [List.filter_append, List.map_append]

end CliPocket
