import CliPocket.Stream.Attach
import CliPocket.Stream.Paced

/-!
# The discipline of the streams

What is on its way on a stream, from what has been sent to the chunks that the forwarder has still to get; and with it
what holds of all that a connection sends.

- `DaemonConn.InOrder`: what is on its way on each stream is in order; `InOrder.step`: **every move keeps it**;
- `stream_discipline`: **the streams of a connection are in order**, in every run with fewer opens than there are
  identifiers.
-/

namespace CliPocket

open Saturating (u32Max)
open Steps (run)

/-! ## What is on its way -/

namespace DaemonConn

open Daemon (Served)

variable {s t : DaemonConn} {d e : Daemon}

/-- What has gone before the chunks that the forwarder has still to get. -/
def front (s : DaemonConn) (f : Forwarder) : List StreamSeq :=
  seqsOn f.stream s.sent ++ (queuedOn f.stream s.daemon.streams.output.queue ++ f.frames.map fun out => out.frame.seq)

/-- What is on its way on each stream is in order. -/
structure InOrder (s : DaemonConn) : Prop where
  paced : s.daemon.AllPaced
  readers : ∀ id p, s.readers.lookup id = some p → Waits p
  sent : ∀ stream, seqsOn stream s.sent ≠ [] → stream ∈ s.daemon.forwarded
  queue : ∀ out ∈ s.daemon.streams.output.queue, out.stream ∈ s.daemon.forwarded
  frames : ∀ f ∈ s.daemon.forwarders, ∀ out ∈ f.frames, out.stream = f.stream
  ascending : ∀ (i : Nat) f, s.daemon.forwarders[i]? = some f → ∃ terminal, s.daemon.terminals.lookup f.terminalId = some terminal ∧
    Ascending (s.front f ++ terminal.seqs f.next ++ [terminal.ring.headSeq])

theorem inOrder_new (maxTerminals scrollbackBytes : Nat) (skip : Bool) : InOrder (new maxTerminals scrollbackBytes skip) where
  paced id t h := by cases (AList.lookup_empty id).symm.trans h
  readers id p h := by cases (AList.lookup_empty id).symm.trans h
  sent _ h := absurd rfl h
  queue _ h := by cases h
  frames _ h := by cases h
  ascending _ _ h := by cases h

/-- Each stream has one forwarder. -/
theorem forwarded_inj (h : d.forwarded.Pairwise (· < ·)) {i j : Nat} {f g : Forwarder} (hf : d.forwarders[i]? = some f)
    (hg : d.forwarders[j]? = some g) (heq : f.stream = g.stream) : i = j := by
  have hi : d.forwarded[i]? = some f.stream := by rw [Daemon.forwarded, List.getElem?_map, hf]; rfl
  have hj : d.forwarded[j]? = some g.stream := by rw [Daemon.forwarded, List.getElem?_map, hg]; rfl
  have hnodup : d.forwarded.Nodup := h.imp Nat.ne_of_lt
  refine (List.getElem?_inj (List.getElem?_eq_some_iff.mp hi).1 hnodup).mp ?_
  rw [hi, hj, heq]

/-- **The connection ends**, and what was about to be sent is not. -/
theorem InOrder.hungUp {frames : List FrameBody} (h : InOrder { s with sent := s.sent ++ frames }) :
    InOrder { s with daemon := hangUp s.daemon } where
  paced := h.paced
  readers := h.readers
  sent stream hne := by
    refine h.sent stream ?_
    rw [seqsOn_append]
    exact List.append_ne_nil_of_left_ne_nil hne _
  queue _ hout := by cases hout
  frames := h.frames
  ascending i f hf := by
    obtain ⟨terminal, hterminal, hascending⟩ := h.ascending i f hf
    refine ⟨terminal, hterminal, hascending.sublist ?_⟩
    refine ((List.Sublist.append ?_ (List.Sublist.append_right ?_ _)).append_right _).append_right _
    · rw [seqsOn_append]
      exact List.sublist_append_left _ _
    · exact List.nil_sublist _

theorem InOrder.hangUp (h : InOrder s) : InOrder { s with daemon := hangUp s.daemon } := by
  refine @InOrder.hungUp s [] ?_
  rw [List.append_nil]
  exact h

theorem InOrder.settled (h : InOrder s) : InOrder { s with daemon := settle s.daemon } := by
  unfold settle
  split
  · exact h.hangUp
  · exact h

/-- A frame that is not output. -/
theorem InOrder.quiet (h : InOrder s) {frame : FrameBody} (hquiet : ∀ stream, frame.seqOn stream = none) :
    InOrder { s with sent := s.sent ++ [frame] } := by
  have hseqs : ∀ stream, seqsOn stream (s.sent ++ [frame]) = seqsOn stream s.sent := by
    intro stream
    rw [seqsOn_append, seqsOn, seqsOn, List.filterMap_cons_none (hquiet stream), List.filterMap_nil, List.append_nil]
  refine { h with sent := ?_, ascending := ?_ }
  · intro stream hne
    exact h.sent stream (hseqs stream ▸ hne)
  · intro i f hf
    obtain ⟨terminal, hterminal, hascending⟩ := h.ascending i f hf
    refine ⟨terminal, hterminal, ?_⟩
    unfold front
    rw [hseqs]
    exact hascending

theorem quiet_plain {frame : FrameBody} (h : frame.Plain) (stream : StreamId) : frame.seqOn stream = none := by
  unfold FrameBody.seqOn
  split
  · exact h.elim
  · rfl

/-- The terminals go on. -/
theorem InOrder.onward (h : InOrder s) (honward : Daemon.Onward s.daemon e)
    (hqueue : e.streams.output.queue = s.daemon.streams.output.queue) (hforwarders : e.forwarders = s.daemon.forwarders) :
    InOrder { s with daemon := e } where
  paced := honward.paced
  readers := h.readers
  sent stream hne := by
    show stream ∈ e.forwarders.map Forwarder.stream
    rw [hforwarders]
    exact h.sent stream hne
  queue out hout := by
    show out.stream ∈ e.forwarders.map Forwarder.stream
    rw [hforwarders]
    exact h.queue out (hqueue ▸ hout)
  frames f hf := h.frames f (hforwarders ▸ hf)
  ascending i f hf := by
    obtain ⟨terminal, hterminal, hascending⟩ := h.ascending i f (hforwarders ▸ hf)
    obtain ⟨u, hu, hgoes⟩ := honward.onward _ _ hterminal
    refine ⟨u, hu, ?_⟩
    unfold front
    dsimp only
    rw [hqueue]
    exact hgoes.follows _ _ hascending

/-- A forwarder goes on: what is before it and behind it does not grow. -/
theorem InOrder.set (h : InOrder s) (hrising : s.daemon.forwarded.Pairwise (· < ·)) {i : Nat} {f g : Forwarder}
    {output : Channel.Mpsc OutboundOutput} (hf : s.daemon.forwarders[i]? = some f) (hstream : g.stream = f.stream)
    (hid : g.terminalId = f.terminalId) (hframes : ∀ out ∈ g.frames, out.stream = f.stream)
    (hqueue : ∀ out ∈ output.queue, out ∈ s.daemon.streams.output.queue ∨ out.stream = f.stream)
    (hother : ∀ stream, stream ≠ f.stream → queuedOn stream output.queue = queuedOn stream s.daemon.streams.output.queue)
    (hown : ∀ terminal, s.daemon.terminals.lookup f.terminalId = some terminal →
      (queuedOn f.stream output.queue ++ (g.frames.map fun out => out.frame.seq) ++ terminal.seqs g.next).Sublist
        (queuedOn f.stream s.daemon.streams.output.queue ++ (f.frames.map fun out => out.frame.seq) ++ terminal.seqs f.next)) :
    InOrder { s with daemon := { s.daemon with
      streams := { s.daemon.streams with output }, forwarders := s.daemon.forwarders.set i g } } := by
  have hforwarded : (s.daemon.forwarders.set i g).map Forwarder.stream = s.daemon.forwarded := Daemon.forwarded_set hf hstream
  refine ⟨h.paced, h.readers, ?_, ?_, ?_, ?_⟩
  · intro stream hne
    show stream ∈ (s.daemon.forwarders.set i g).map Forwarder.stream
    rw [hforwarded]
    exact h.sent stream hne
  · intro out hout
    show out.stream ∈ (s.daemon.forwarders.set i g).map Forwarder.stream
    rw [hforwarded]
    rcases hqueue out hout with hout | hout
    · exact h.queue out hout
    · rw [hout]
      exact List.mem_map_of_mem (List.mem_of_getElem? hf)
  · intro k hk
    rcases List.mem_or_eq_of_mem_set hk with hk | rfl
    · exact h.frames k hk
    · rw [hstream]
      exact hframes
  · intro j k hk
    by_cases hj : i = j
    · subst hj
      have hi := (List.getElem?_eq_some_iff.mp hf).1
      cases (List.getElem?_set_self hi).symm.trans hk
      obtain ⟨terminal, hterminal, hascending⟩ := h.ascending i f hf
      refine ⟨terminal, hid ▸ hterminal, hascending.sublist ?_⟩
      have hsub := ((hown terminal hterminal).append_left (seqsOn f.stream s.sent)).append_right [terminal.ring.headSeq]
      unfold front
      dsimp only
      rw [hstream]
      simp only [List.append_assoc] at hsub ⊢
      exact hsub
    · have hk' : s.daemon.forwarders[j]? = some k := (List.getElem?_set_ne hj).symm.trans hk
      obtain ⟨terminal, hterminal, hascending⟩ := h.ascending j k hk'
      refine ⟨terminal, hterminal, ?_⟩
      have hne : k.stream ≠ f.stream := fun heq => hj (forwarded_inj hrising hk' hf heq).symm
      unfold front
      dsimp only
      rw [hother _ hne]
      exact hascending

/-- The forwarder has received: what it was given are its frames. -/
theorem seqs_received {terminal : Terminal} (hpaced : terminal.Paced) {f : Forwarder} {received : OutputRecv} {next : Nat}
    (hframes : f.frames = []) (hreceive : receive terminal.sent f.next = some (received, next)) :
    (((f.received received next).frames.map fun out => out.frame.seq) ++ terminal.seqs (f.received received next).next).Sublist
      (terminal.seqs f.next) := by
  have hempty : ∀ {g : Forwarder}, g.frames = f.frames → (g.frames.map fun out => out.frame.seq) = [] := by
    intro g hg
    rw [hg, hframes]
    rfl
  unfold receive at hreceive
  dsimp only at hreceive
  split at hreceive
  · next hlagged =>
    cases hreceive
    show (((({ f with next := _ } : Forwarder)).frames.map fun out => out.frame.seq) ++ _).Sublist _
    rw [hempty rfl, List.nil_append]
    exact ((List.drop_sublist_drop_left _ (Nat.le_of_lt hlagged)).append_right _).map _
  · obtain ⟨chunk, hchunk, heq⟩ := Option.map_eq_some_iff.mp hreceive
    cases heq
    have hseqs : terminal.seqs f.next = [chunk.seqAtEnd] ++ terminal.seqs (f.next + 1) := by
      unfold Terminal.seqs Terminal.remaining
      rw [List.drop_eq_getElem?_toList_append, hchunk]
      rfl
    have hsize := hpaced.size chunk (List.mem_append_left _ (List.mem_of_getElem? hchunk))
    unfold Forwarder.received
    dsimp only
    split
    · next frames hlive =>
      rw [hseqs]
      exact (seqs_liveOutputFrames hlive hsize.1 hsize.2).append_right _
    · rw [hempty rfl]
      exact List.Sublist.refl _

/-- **The forwarders.** -/
theorem InOrder.receive (h : InOrder s) (hrising : s.daemon.forwarded.Pairwise (· < ·)) {i : Nat}
    (hs : s.daemon.forwarderReceive i = some e) : InOrder { s with daemon := e } := by
  obtain ⟨f, terminal, received, next, hf, _, hframes, hterminal, hreceive, rfl⟩ := Daemon.forwarderReceive_cases hs
  refine h.set hrising hf (f.received_stream received next) (f.received_terminalId received next) ?_ (fun _ => .inl) (fun _ _ => rfl) ?_
  · intro out hout
    exact (Forwarder.mem_received hframes hout).1
  · intro terminal' hterminal'
    cases hterminal.symm.trans hterminal'
    have hseqs := seqs_received (h.paced _ _ hterminal) hframes hreceive
    rw [hframes, List.map_nil, List.append_nil, List.append_assoc]
    exact hseqs.append_left _

theorem queuedOn_singleton {stream : StreamId} {out : OutboundOutput} :
    queuedOn stream [out] = if out.stream = stream then [out.frame.seq] else [] := by
  unfold queuedOn
  by_cases h : out.stream = stream
  · rw [if_pos h, List.filter_singleton, decide_eq_true h]
    rfl
  · rw [if_neg h, List.filter_singleton, decide_eq_false h]
    rfl

theorem InOrder.enqueue (h : InOrder s) (hrising : s.daemon.forwarded.Pairwise (· < ·)) {i : Nat}
    (hs : s.daemon.forwarderEnqueue i = some e) : InOrder { s with daemon := e } := by
  obtain ⟨f, frame, frames, hf, _, hframes, rfl⟩ := Daemon.forwarderEnqueue_cases hs
  have hlabel : ∀ out ∈ frame :: frames, out.stream = f.stream := hframes ▸ h.frames f (List.mem_of_getElem? hf)
  have hframe := hlabel frame List.mem_cons_self
  refine h.set hrising hf rfl rfl (fun out hout => hlabel out (List.mem_cons_of_mem _ hout)) ?_ ?_ ?_
  · intro out hout
    rcases List.mem_append.mp hout with hout | hout
    · exact .inl hout
    · cases List.mem_singleton.mp hout
      exact .inr hframe
  · intro stream hne
    rw [queuedOn_append, queuedOn_singleton, if_neg fun heq => hne (heq.symm.trans hframe), List.append_nil]
  · intro terminal _
    rw [queuedOn_append, queuedOn_singleton, if_pos hframe, hframes, List.append_assoc (queuedOn _ _)]
    exact List.Sublist.refl _

theorem InOrder.cancel (h : InOrder s) (hrising : s.daemon.forwarded.Pairwise (· < ·)) {i : Nat}
    (hs : s.daemon.forwarderCancel i = some e) : InOrder { s with daemon := e } := by
  obtain ⟨f, hf, _, rfl⟩ := Daemon.forwarderCancel_cases hs
  refine h.set hrising hf rfl rfl (fun _ hout => by cases hout) (fun _ => .inl) (fun _ _ => rfl) ?_
  intro terminal _
  exact List.Sublist.append_right ((List.nil_sublist _).append_left _) _

/-- **A frame leaves the output queue**, and is sent or not. -/
theorem InOrder.output (h : InOrder s) {out : OutboundOutput} {rest : List OutboundOutput}
    (hqueue : s.daemon.streams.output.queue = out :: rest) (hlabel : out.frame.streamId = out.stream)
    {frames : List FrameBody} (hframes : frames = [] ∨ frames = [.streamData out.frame]) :
    InOrder { s with
      daemon := { s.daemon with streams := { s.daemon.streams with
        output := { s.daemon.streams.output with queue := rest } } }
      sent := s.sent ++ frames } := by
  have hdata : ∀ stream, seqsOn stream [.streamData out.frame] = if out.stream = stream then [out.frame.seq] else [] := by
    intro stream
    unfold seqsOn
    by_cases heq : out.stream = stream
    · rw [if_pos heq, List.filterMap_cons_some (b := out.frame.seq)]
      · rfl
      · exact if_pos (hlabel.trans heq)
    · rw [if_neg heq, List.filterMap_cons_none]
      · rfl
      · exact if_neg fun hdata => heq (hlabel.symm.trans hdata)
  have hfront : ∀ stream, (seqsOn stream (s.sent ++ frames) ++ queuedOn stream rest).Sublist
      (seqsOn stream s.sent ++ queuedOn stream (out :: rest)) := by
    intro stream
    rw [seqsOn_append, ← List.singleton_append, queuedOn_append, queuedOn_singleton, List.append_assoc]
    refine List.Sublist.append_left (List.Sublist.append_right ?_ _) _
    rcases hframes with rfl | rfl
    · exact List.nil_sublist _
    · rw [hdata]
  refine ⟨h.paced, h.readers, ?_, ?_, h.frames, ?_⟩
  · intro stream hne
    dsimp only at hne
    rw [seqsOn_append] at hne
    rcases hframes with rfl | rfl
    · exact h.sent stream fun hnil => hne (by rw [hnil]; rfl)
    · by_cases heq : out.stream = stream
      · rw [← heq]
        exact h.queue out (hqueue ▸ List.mem_cons_self)
      · rw [hdata, if_neg heq, List.append_nil] at hne
        exact h.sent stream hne
  · intro out' hout'
    exact h.queue out' (hqueue ▸ List.mem_cons_of_mem _ hout')
  · intro i f hf
    obtain ⟨terminal, hterminal, hascending⟩ := h.ascending i f hf
    refine ⟨terminal, hterminal, hascending.sublist ?_⟩
    unfold front
    dsimp only
    rw [hqueue, ← List.append_assoc (seqsOn _ _), ← List.append_assoc (seqsOn _ _)]
    exact (((hfront f.stream).append_right _).append_right _).append_right _

/-- An open begins. -/
theorem InOrder.cleared (h : InOrder s) (id : RequestId) (terminalId : TerminalId) :
    InOrder { s with daemon := s.daemon.cleared id terminalId } := by
  have hforwarded : (s.daemon.cleared id terminalId).forwarded = s.daemon.forwarded := by
    unfold Daemon.forwarded Daemon.cleared
    rw [List.map_map]
    rfl
  refine ⟨h.paced, h.readers, ?_, ?_, ?_, ?_⟩
  · intro stream hne
    show stream ∈ (s.daemon.cleared id terminalId).forwarded
    rw [hforwarded]
    exact h.sent stream hne
  · intro out hout
    show out.stream ∈ (s.daemon.cleared id terminalId).forwarded
    rw [hforwarded]
    exact h.queue out hout
  · intro f hf
    obtain ⟨g, hg, rfl⟩ := List.mem_map.mp hf
    exact h.frames g hg
  · intro i f hf
    unfold Daemon.cleared at hf
    dsimp only at hf
    rw [List.getElem?_map] at hf
    obtain ⟨g, hg, rfl⟩ := Option.map_eq_some_iff.mp hf
    exact h.ascending i g hg

/-- **A stream is attached**: nothing is on its way on it yet. -/
theorem InOrder.attached (h : InOrder s) {stream : StreamId} {terminalId : TerminalId} {subscription : Nat} {terminal : Terminal}
    (hnew : stream ∉ s.daemon.forwarded) (hterminal : s.daemon.terminals.lookup terminalId = some terminal) :
    InOrder { s with daemon := s.daemon.attached stream terminalId subscription } := by
  have hforwarded : (s.daemon.attached stream terminalId subscription).forwarded = s.daemon.forwarded ++ [stream] :=
    List.map_append
  have hstays : ∀ {k}, k ∈ s.daemon.forwarded → k ∈ (s.daemon.attached stream terminalId subscription).forwarded := by
    intro k hk
    rw [hforwarded]
    exact List.mem_append_left _ hk
  refine ⟨h.paced, h.readers, fun k hne => hstays (h.sent k hne), fun out hout => hstays (h.queue out hout), ?_, ?_⟩
  · intro f hf
    rcases List.mem_append.mp hf with hf | hf
    · exact h.frames f hf
    · cases List.mem_singleton.mp hf
      intro _ hout
      cases hout
  · intro i f hf
    unfold Daemon.attached at hf
    dsimp only at hf
    rw [List.getElem?_append] at hf
    split at hf
    · exact h.ascending i f hf
    · have hmem := List.mem_of_getElem? hf
      cases List.mem_singleton.mp hmem
      refine ⟨terminal, hterminal, ?_⟩
      have hsent : seqsOn stream s.sent = [] := by
        by_contra hne
        exact hnew (h.sent stream hne)
      have hqueue : queuedOn stream s.daemon.streams.output.queue = [] := by
        unfold queuedOn
        rw [List.filter_eq_nil_iff.mpr, List.map_nil]
        intro out hout heq
        exact hnew (of_decide_eq_true heq ▸ h.queue out hout)
      have hfront : front { s with daemon := s.daemon.attached stream terminalId subscription }
          { stream, terminalId, next := subscription } = [] := by
        unfold front
        show seqsOn stream s.sent ++ (queuedOn stream s.daemon.streams.output.queue ++ []) = []
        rw [hsent, hqueue]
        rfl
      rw [hfront]
      exact (h.paced _ _ hterminal).order.sublist ((terminal.seqs_sublist subscription).append_right _)

/-- **One move of the daemon**, when its frame is sent. -/
theorem InOrder.serve (h : InOrder s) (horderly : Orderly s) {move : Daemon.Move} (hmove : isPush move = false)
    {reply : Option FrameBody} (hs : s.daemon.serve move = some (e, reply)) :
    InOrder { s with daemon := e, sent := s.sent ++ reply.toList } := by
  have hsilent : ∀ {d : Daemon}, InOrder { s with daemon := d } → InOrder { s with daemon := d, sent := s.sent ++ [] } := by
    intro d hd
    rw [List.append_nil]
    exact hd
  have hresponse : ∀ {d : Daemon} {response : ResponseFrame}, InOrder { s with daemon := d } →
      InOrder { s with daemon := d, sent := s.sent ++ [.response response] } := fun hd => hd.quiet fun _ => rfl
  have hidle : ∀ {d : Daemon}, d.terminals = s.daemon.terminals → d.streams.output.queue = s.daemon.streams.output.queue →
      d.forwarders = s.daemon.forwarders → InOrder { s with daemon := d } := fun hterminals =>
    h.onward (h.paced.onward_same hterminals)
  cases move with
  | frame frame env =>
    unfold Daemon.serve at hs
    dsimp only at hs
    split at hs
    · next hfresh =>
      obtain ⟨_, ⟨id, terminalId, _, rfl, rfl⟩ | ⟨request, rfl, rfl⟩ | ⟨he, hplain⟩⟩ := Daemon.receiveFrame_cases hs
      · exact hsilent (h.cleared id terminalId)
      · have hwork := (Daemon.handleRequest_work s.daemon request env).1
        exact hresponse (h.onward (h.paced.onward_handleRequest request hfresh) (by rw [hwork.streams]) hwork.forwarders)
      · have hnext : InOrder { s with daemon := e } := by
          rcases he with rfl | rfl
          · exact h
          · exact hidle rfl rfl rfl
        cases reply with
        | none => exact hsilent hnext
        | some frame => exact hnext.quiet (quiet_plain (hplain frame rfl))
    · cases hs
  | openStep =>
    obtain ⟨⟨e, response⟩, hopen, heq⟩ := Option.map_eq_some_iff.mp hs
    cases heq
    obtain ⟨_, _, _, _, _, _, rfl, rfl⟩ | ⟨_, _, _, _, _, _, _, rfl, rfl⟩ | ⟨_, _, _, _, _, _, ⟨rfl, rfl⟩ | ⟨_, _, rfl, rfl⟩⟩ |
      ⟨id, terminalId, stream, subscription, snapshot, info, terminal, htask, hterminal, rfl, rfl⟩ := Daemon.openStep_cases hopen
    · exact hsilent (hidle rfl rfl rfl)
    · exact hsilent (hidle rfl rfl rfl)
    · exact hresponse (hidle rfl rfl rfl)
    · exact hsilent (hidle rfl rfl rfl)
    · obtain ⟨_, _, _, hforwarded⟩ := horderly.task id stream (by rw [htask]; rfl)
      have hnew : stream ∉ s.daemon.forwarded := fun hmem => Nat.lt_irrefl _ (hforwarded stream hmem)
      exact hresponse (h.attached hnew hterminal)
  | output =>
    obtain ⟨⟨e, data⟩, houtput, heq⟩ := Option.map_eq_some_iff.mp hs
    cases heq
    obtain ⟨_, out, rest, hqueue, rfl, hdata⟩ := Daemon.output_cases houtput
    have hout : out ∈ s.daemon.streams.output.queue := by
      rw [hqueue]
      exact List.mem_cons_self
    refine h.output hqueue (horderly.labelled.queue hout) ?_
    rcases hdata with ⟨_, _, _, rfl⟩ | ⟨_, rfl⟩
    · exact .inr rfl
    · exact .inl rfl
  | receive i =>
    obtain ⟨e, hreceive, heq⟩ := Option.map_eq_some_iff.mp hs
    cases heq
    exact hsilent (h.receive horderly.rising hreceive)
  | enqueue i =>
    obtain ⟨e, henqueue, heq⟩ := Option.map_eq_some_iff.mp hs
    cases heq
    exact hsilent (h.enqueue horderly.rising henqueue)
  | cancel i =>
    obtain ⟨e, hcancel, heq⟩ := Option.map_eq_some_iff.mp hs
    cases heq
    exact hsilent (h.cancel horderly.rising hcancel)
  | terminal id move =>
    unfold Daemon.serve at hs
    dsimp only at hs
    split at hs
    · cases hs
    · next t ht =>
      obtain ⟨u, hu, heq⟩ := Option.map_eq_some_iff.mp hs
      cases heq
      have hquiet : ∀ bytes, move ≠ .push bytes := by
        rintro bytes rfl
        cases hmove
      exact hsilent (h.onward (h.paced.onward_set ht ((h.paced _ _ ht).onward_move hquiet hu)) rfl rfl)
  | create params env =>
    unfold Daemon.serve at hs
    dsimp only at hs
    split at hs
    · next hfresh =>
      split at hs
      · next hcreate =>
        cases hs
        have hwork := Daemon.create_work hcreate
        exact hsilent (h.onward (h.paced.onward_create hfresh hcreate) (by rw [hwork.streams]) hwork.forwarders)
      · cases hs
    · cases hs
  | configure scrollbackBytes =>
    cases hs
    exact hsilent (hidle rfl rfl rfl)

/-- **Every move** keeps what is on its way in order. -/
theorem InOrder.step {move : Move} (h : InOrder s) (horderly : Orderly s) (hs : s.step move = some t) : InOrder t := by
  have hopened : ∀ {c : DaemonConn} (opened : List StreamId), InOrder c → InOrder { c with opened } := fun _ hc =>
    ⟨hc.paced, hc.readers, hc.sent, hc.queue, hc.frames, hc.ascending⟩
  cases move with
  | serve move delivered =>
    unfold DaemonConn.step DaemonConn.serve at hs
    dsimp only at hs
    split at hs
    · cases hs
    · next hmove =>
      obtain ⟨⟨e, reply⟩, hserve, rfl⟩ := Option.map_eq_some_iff.mp hs
      have hnext := hopened (s.opened ++ taken s.daemon e) (h.serve horderly (Bool.not_eq_true _ ▸ hmove) hserve)
      rcases sends_cases { s with daemon := settle e, opened := s.opened ++ taken s.daemon e } reply delivered with hsent | hlost
      · rw [hsent]
        exact hnext.settled
      · rw [hlost]
        dsimp only
        rw [hangUp_settle]
        exact @InOrder.hungUp { s with daemon := e, opened := s.opened ++ taken s.daemon e } _ hnext
  | read id bytes cursor =>
    obtain ⟨terminal, p, title, u, readers, hterminal, hlength, hu, hp, rfl, rfl⟩ := read_cases hs
    have hpaced := h.paced _ _ hterminal
    have hwaits : Waits ((s.readers.lookup id).getD (.new s.skipInitialCursorResponse)) := by
      cases hreader : s.readers.lookup id with
      | none => rfl
      | some p => exact h.readers id p hreader
    have htitle : Terminal.Onward terminal { terminal with title } := hpaced.onward_same rfl rfl rfl
    have hgoes : Terminal.Onward terminal u := by
      rcases hu with rfl | hpush
      · exact htitle
      · refine htitle.trans (htitle.paced.onward_push ?_ hpush)
        refine Nat.le_trans (length_process hwaits bytes) (Nat.le_trans (Nat.add_le_add_right hlength 7) ?_)
        decide
    have hnext := h.onward (e := s.daemon.setTerminal id u) (h.paced.onward_set hterminal hgoes) rfl rfl
    refine { hnext with readers := ?_ }
    intro id' p' hp'
    by_cases hid : id' = id
    · subst hid
      cases (AList.lookup_insert _).symm.trans hp'
      have hkept := waits_process ((s.readers.lookup id').getD (.new s.skipInitialCursorResponse)) cursor bytes
      unfold Waits at hkept ⊢
      rw [hp]
      exact hkept
    · exact h.readers id' p' ((AList.lookup_insert_ne hid).symm.trans hp')
  | revoked delivered =>
    unfold DaemonConn.step at hs
    dsimp only at hs
    split at hs
    · cases hs
      unfold send
      split
      · exact (h.quiet (show ∀ stream, FrameBody.seqOn stream (.bye .revoked) = none from fun _ => rfl)).hangUp
      · exact h.hangUp.hangUp
    · cases hs
  | lost =>
    unfold DaemonConn.step at hs
    dsimp only at hs
    split at hs
    · cases hs
      exact h.hangUp
    · cases hs

/-! ## The discipline -/

theorem orderly_new (maxTerminals scrollbackBytes : Nat) (skip : Bool) : Orderly (new maxTerminals scrollbackBytes skip) where
  opened := rfl
  next := rfl
  acknowledged _ h := by cases h
  ascending := .nil
  forwarded _ h := by cases h
  rising := .nil
  labelled _ h := by cases h
  task _ _ h := by cases h
  attached := .inl rfl
  data before data after h := by
    have hlength := congrArg List.length h
    rw [List.length_append] at hlength
    cases hlength

/-- Identifiers that have been given stay given. -/
theorem opened_step {move : Move} (hs : s.step move = some t) : s.opened <+: t.opened := by
  cases move with
  | serve move delivered =>
    unfold DaemonConn.step DaemonConn.serve at hs
    dsimp only at hs
    split at hs
    · cases hs
    · obtain ⟨⟨e, reply⟩, _, rfl⟩ := Option.map_eq_some_iff.mp hs
      rcases sends_cases { s with daemon := settle e, opened := s.opened ++ taken s.daemon e } reply delivered with hsent | hlost
      · rw [hsent]
        exact List.prefix_append _ _
      · rw [hlost]
        exact List.prefix_append _ _
  | read id bytes cursor =>
    obtain ⟨_, _, _, _, _, _, _, _, _, _, rfl⟩ := read_cases hs
    exact List.prefix_rfl
  | revoked delivered =>
    unfold DaemonConn.step at hs
    dsimp only at hs
    split at hs
    · cases hs
      unfold send
      split <;> exact List.prefix_rfl
    · cases hs
  | lost =>
    unfold DaemonConn.step at hs
    dsimp only at hs
    split at hs
    · cases hs
      exact List.prefix_rfl
    · cases hs

/-- **Output is sent on an attached stream.** -/
theorem Orderly.sends_attached (h : Orderly s) {move : Move} {data : StreamDataFrame} (hs : s.step move = some t)
    (hsent : t.sent = s.sent ++ [.streamData data]) :
    ∃ attached, s.daemon.streams.map.lookup data.streamId = some attached := by
  have hsilent : t.sent ≠ s.sent := by
    rw [hsent]
    exact fun heq => List.cons_ne_nil _ _ (List.self_eq_append_right.mp heq.symm)
  cases move with
  | serve move delivered =>
    unfold DaemonConn.step DaemonConn.serve at hs
    dsimp only at hs
    split at hs
    · cases hs
    · obtain ⟨⟨e, reply⟩, hserve, rfl⟩ := Option.map_eq_some_iff.mp hs
      rcases sends_cases { s with daemon := settle e, opened := s.opened ++ taken s.daemon e } reply delivered with heq | heq
      · rw [heq] at hsent
        have hreply : reply.toList = [.streamData data] := List.append_cancel_left hsent
        cases Daemon.serve_served hserve with
        | plain _ _ hplain =>
          cases reply with
          | none => cases hreply
          | some frame =>
            cases hreply
            exact (hplain _ rfl).elim
        | begun => cases hreply
        | acked => cases hreply
        | data out attached _ _ hlookup hunsent =>
          cases hreply
          exact ⟨attached, h.labelled out hunsent ▸ hlookup⟩
      · rw [heq] at hsilent
        exact absurd rfl hsilent
  | read id bytes cursor =>
    obtain ⟨_, _, _, _, _, _, _, _, _, _, rfl⟩ := read_cases hs
    exact absurd rfl hsilent
  | revoked delivered =>
    unfold DaemonConn.step at hs
    dsimp only at hs
    split at hs
    · cases hs
      unfold send at hsent hsilent
      split at hsent
      · cases List.append_cancel_left hsent
      · next hlost =>
        rw [if_neg hlost] at hsilent
        exact absurd rfl hsilent
    · cases hs
  | lost =>
    unfold DaemonConn.step at hs
    dsimp only at hs
    split at hs
    · cases hs
      exact absurd rfl hsilent
    · cases hs

/-- The discipline of the streams of a connection, and of what it has sent on them. -/
structure Disciplined (s : DaemonConn) : Prop where
  /-- At most one stream is attached. -/
  attached : s.daemon.streams.map.entries.length ≤ 1
  /-- Output is sent only on it. -/
  sends : ∀ move t data, s.step move = some t → t.sent = s.sent ++ [.streamData data] →
    ∃ attached, s.daemon.streams.map.lookup data.streamId = some attached
  /-- What was acknowledged last before a frame of output is its stream. -/
  announced : ∀ before data after, s.sent = before ++ .streamData data :: after →
    (acknowledged before).getLast? = some data.streamId
  /-- No identifier is given twice, or acknowledged without having been given. -/
  fresh : s.opened.Nodup ∧ (acknowledged s.sent).Nodup ∧ ∀ stream ∈ acknowledged s.sent, stream ∈ s.opened
  /-- The frames of a stream have been sent in the order of their sequence numbers. -/
  ascending : ∀ stream, Ascending (seqsOn stream s.sent)

theorem disciplined (horderly : Orderly s) (h : InOrder s) : Disciplined s where
  attached := horderly.attached.length_le
  sends _ _ _ := horderly.sends_attached
  announced := horderly.data
  fresh := by
    refine ⟨?_, horderly.ascending.imp Nat.ne_of_lt, horderly.acknowledged⟩
    rw [horderly.opened]
    exact List.nodup_range'
  ascending stream := by
    by_cases hnil : seqsOn stream s.sent = []
    · rw [hnil]
      exact .nil
    · obtain ⟨f, hf, rfl⟩ := List.mem_map.mp (h.sent stream hnil)
      obtain ⟨i, hi⟩ := List.getElem?_of_mem hf
      obtain ⟨terminal, _, hascending⟩ := h.ascending i f hi
      unfold front at hascending
      rw [List.append_assoc, List.append_assoc] at hascending
      exact hascending.sublist (List.sublist_append_left _ _)

/-- **The streams of a connection are in order**, in every run with fewer opens than there are identifiers. -/
theorem stream_discipline {maxTerminals scrollbackBytes : Nat} {skip : Bool} {moves : List Move} {s : DaemonConn}
    (hrun : run step (new maxTerminals scrollbackBytes skip) moves = some s) (hopens : s.opened.length < 2 ^ 32 - 1) :
    Disciplined s := by
  have hkept : ∀ (s : DaemonConn) (move : Move) (t : DaemonConn), (s.opened.length < u32Max → Orderly s ∧ InOrder s) → True →
      s.step move = some t → (t.opened.length < u32Max → Orderly t ∧ InOrder t) := by
    intro s move t h _ hs hroom
    obtain ⟨horderly, horder⟩ := h (Nat.lt_of_le_of_lt (opened_step hs).length_le hroom)
    exact ⟨horderly.step hs hroom, horder.step horderly hs⟩
  have hinvariant := Steps.run_invariant hkept (Steps.meets_true moves _) hrun
    fun _ => ⟨orderly_new _ _ _, inOrder_new _ _ _⟩
  obtain ⟨horderly, horder⟩ := hinvariant hopens
  exact disciplined horderly horder

/-- A terminal is opened twice, and has output. -/
def sampleMoves : List Move :=
  let open1 (id : RequestId) : List Move :=
    .serve (.frame (.request ⟨id, .openTerminal (Talk.sampleId 1)⟩) Talk.sampleEnv) true ::
      List.replicate 4 (.serve .openStep true)
  let output (i : Nat) (bytes : List UInt8) : List Move :=
    [.read (Talk.sampleId 1) bytes (0, 0), .serve (.terminal (Talk.sampleId 1) .broadcast) true, .serve (.receive i) true,
      .serve (.enqueue i) true]
  [.serve (.create ⟨80, 24, none, [], []⟩ { Talk.sampleEnv with spawned := .ok (Talk.sampleId 1) }) true] ++
    open1 1 ++ output 0 [104, 105] ++ [.serve .output true] ++ output 0 [33] ++ open1 2 ++ [.serve .output true] ++
    output 1 [63] ++ [.serve .output true]

/-- The output that was queued when the terminal was opened again is not sent. -/
theorem stream_discipline_sample : ∃ s, run step (new 8 64 false) sampleMoves = some s ∧ Disciplined s ∧
    s.opened = [1, 2] ∧ acknowledged s.sent = [1, 2] ∧ seqsOn 1 s.sent = [2] ∧ seqsOn 2 s.sent = [4] := by
  have hrun : (run step (new 8 64 false) sampleMoves).map (fun s => decide (s.opened = [1, 2] ∧ acknowledged s.sent = [1, 2] ∧
      seqsOn 1 s.sent = [2] ∧ seqsOn 2 s.sent = [4])) = some true := by
    decide +kernel
  obtain ⟨s, hs, hsample⟩ := Option.map_eq_some_iff.mp hrun
  have hsample := of_decide_eq_true hsample
  refine ⟨s, hs, stream_discipline hs ?_, hsample⟩
  rw [hsample.1]
  decide

end DaemonConn

end CliPocket
