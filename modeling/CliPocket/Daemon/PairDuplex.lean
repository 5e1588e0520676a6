import CliPocket.Daemon.PairWriters

/-!
# Both ways of a transport

The read loop of a link is the dialer of a line, through all its sessions; a queue `to_daemon` and a writer task come
with each pair.

- `dialed_run`: what the link does with its line is a run of the dialer;
- `transports_duplex`: **each transport reads the stream of its pair, and what it sends goes out under that pair.**
-/

namespace CliPocket

open Demux (lineStreams)

namespace RelayLink

variable {l m : RelayLink} {g : List LinkEvent}

/-! ## The read loop within the link -/

/-- **A move of the link is one of the dialer, or none.** -/
theorem dialed_step (hw : Writing l g) {move : Move} (hs : l.step move = some m) :
    (m.dialer = l.dialer ∧ dialed (l.emit move) = []) ∨
      ∃ taken, l.dialer.step taken = some m.dialer ∧ dialed (l.emit move) = l.dialer.emit taken := by
  cases move with
  | connect outcome =>
    simp only [step] at hs
    split at hs
    · cases hs
    · cases hs
    · cases outcome <;> cases hs <;> exact .inl ⟨rfl, rfl⟩
  | answer msg =>
    simp only [step] at hs
    split at hs
    · next hphase =>
      cases hs
      rcases l.answer_cases msg with ⟨hok, heq⟩ | ⟨hok, heq⟩
      · obtain ⟨result, hresult⟩ := Option.ne_none_iff_exists'.mp (hw.not_looping hphase)
        have hemit : l.emit (.answer msg) = [.dialer (.heard .reset)] := by rw [emit, if_pos hok]
        refine .inr ⟨.dial, ?_, ?_⟩
        · simp only [RelayDialer.step, hresult, heq]
          rfl
        · rw [hemit]
          rfl
      · have hemit : l.emit (.answer msg) = [] := by rw [emit, if_neg (by simp [hok])]
        rw [hemit]
        rcases heq with ⟨_, heq⟩ | ⟨error, heq⟩
        · rw [heq]
          exact .inl ⟨rfl, rfl⟩
        · rw [heq]
          exact .inl ⟨rfl, rfl⟩
    · cases hs
  | timeout =>
    simp only [step] at hs
    split at hs
    · cases hs
      exact .inl ⟨rfl, rfl⟩
    · cases hs
  | dialer move =>
    obtain ⟨dialer, hd, _, rfl⟩ := step_dialer hs
    exact .inr ⟨move, hd, dialed_dialer _⟩
  | send i bytes =>
    simp only [step] at hs
    split at hs
    · cases hs
    · next w hi =>
      obtain ⟨_, _, rfl⟩ := Option.map_eq_some_iff.mp hs
      refine .inl ⟨rfl, ?_⟩
      simp only [emit, hi]
      split <;> rfl
  | drop i =>
    have hstep : (l.dialer.step (.close i)).map (fun dialer =>
        { l with dialer, writers := l.writers.modify i fun w => { w with held := false } }) = some m := hs
    obtain ⟨dialer, hd, rfl⟩ := Option.map_eq_some_iff.mp hstep
    exact .inr ⟨.close i, hd, rfl⟩
  | take i =>
    simp only [step] at hs
    split at hs
    · cases hs
    · obtain ⟨_, _, rfl⟩ := Option.map_eq_some_iff.mp hs
      exact .inl ⟨rfl, rfl⟩
  | write i ok =>
    simp only [step] at hs
    split at hs
    · cases hs
    · next w hi =>
      split at hs
      · next bytes hphase =>
        cases ok with
        | true =>
          cases hs
          refine .inl ⟨rfl, ?_⟩
          simp only [emit, hi, hphase, dialed_wrote]
        | false =>
          cases hs
          exact .inl ⟨rfl, rfl⟩
      · cases hs
  | heartbeat ok =>
    simp only [step] at hs
    split at hs
    · split at hs
      · cases hs
        cases ok <;> exact .inl ⟨rfl, rfl⟩
      · cases hs
    · cases hs

variable {serverId : ServerId} {publicKey : PublicKey} {moves : List Move}

/-- **What the link does with its line is a run of the dialer.** -/
theorem dialed_run (hr : Steps.run (Steps.traced step emit) ({ serverId, publicKey }, []) moves = some (l, g)) :
    Steps.Reachable (Steps.traced RelayDialer.step RelayDialer.emit) ({ result := some (.ok ()) }, [])
      (l.dialer, dialed g) := by
  refine (Steps.run_invariant (C := fun _ _ => True)
    (I := fun p => Writing p.1 p.2 ∧
      Steps.Reachable (Steps.traced RelayDialer.step RelayDialer.emit) ({ result := some (.ok ()) }, [])
        (p.1.dialer, dialed p.2)) ?_ (Steps.meets_true _ _) hr ⟨writing_empty serverId publicKey, [], rfl⟩).2
  rintro ⟨u, h⟩ move ⟨v, h'⟩ ⟨hu, taken, htaken⟩ _ hst
  obtain ⟨hv, rfl⟩ := Steps.traced_eq_some.mp hst
  refine ⟨hu.step hv, ?_⟩
  rcases dialed_step hu hv with ⟨hd, hemit⟩ | ⟨next, hd, hemit⟩
  · refine ⟨taken, ?_⟩
    rw [htaken, dialed_append, hemit, List.append_nil, hd]
  · refine ⟨taken ++ [next], ?_⟩
    have hnext : Steps.traced RelayDialer.step RelayDialer.emit (u.dialer, dialed h) next =
        some (v.dialer, dialed (h ++ u.emit move)) :=
      Steps.traced_eq_some.mpr ⟨hd, by rw [dialed_append, hemit]⟩
    rw [Steps.run_append htaken, Steps.run_cons, hnext]
    rfl

/-! ## The transports of a link -/

/-- A queue `to_daemon` and a writer task come together, and under one pair. -/
theorem transport_stream (hr : Steps.run (Steps.traced step emit) ({ serverId, publicKey }, []) moves = some (l, g))
    {i : Nat} {w : PairWriter} (hi : l.writers[i]? = some w) :
    ∃ queue payloads, l.dialer.queues[i]? = some queue ∧
      (lineStreams (RelayDialer.line (dialed g)))[i]? = some (w.pairId, payloads) ∧
      l.dialer.given (dialed g) i queue <+: payloads ∧
      (l.dialer.Fed i queue → l.dialer.given (dialed g) i queue = payloads) := by
  obtain ⟨taken, htaken⟩ := dialed_run hr
  have hd := RelayDialer.served_start.run htaken
  have hstreams : (RelayDialer.table (dialed g)).streams = lineStreams (RelayDialer.line (dialed g)) :=
    Demux.streams_run _
  have hkeys : l.writers.map PairWriter.pairId = (lineStreams (RelayDialer.line (dialed g))).map Prod.fst :=
    (writing_run hr).1.labels.trans (Demux.keys_lineStreams _).symm
  have hlt : i < l.dialer.queues.length := by
    have hlength := congrArg List.length hkeys
    rw [List.length_map, List.length_map, ← hstreams, hd.streams] at hlength
    rw [← hlength]
    exact (List.getElem?_eq_some_iff.mp hi).1
  have hq : l.dialer.queues[i]? = some l.dialer.queues[i] := List.getElem?_eq_getElem hlt
  obtain ⟨pairId, payloads, hs, hprefix, hfed⟩ := hd.given hq
  rw [hstreams] at hs
  have hpair : w.pairId = pairId := by
    have hkey := congrArg (fun ids : List PairId => ids[i]?) hkeys
    simpa [hi, hs] using hkey
  subst hpair
  exact ⟨_, payloads, hq, hs, hprefix, hfed⟩

/-- **Both ways of a transport.** In every run of a link, through all its sessions, each transport has a stream of the
line. What its task has received, with what waits for it, is that stream, or where the transport has been closed the
beginning of it. Its payloads on the sink of its session, with what its writer task still has, are what it has sent, or
where the task has ended the beginning of it; they are nowhere else, and under the pair of the stream. -/
theorem transports_duplex (hr : Steps.run (Steps.traced step emit) ({ serverId, publicKey }, []) moves = some (l, g))
    {i : Nat} {w : PairWriter} (hi : l.writers[i]? = some w) :
    (∃ queue payloads, l.dialer.queues[i]? = some queue ∧
      (lineStreams (RelayDialer.line (dialed g)))[i]? = some (w.pairId, payloads) ∧
      RelayDialer.receivedBy i (dialed g) ++ queue.queue ++ l.dialer.pendingFor i <+: payloads ∧
      (queue.closed = false →
        RelayDialer.receivedBy i (dialed g) ++ queue.queue ++ l.dialer.pendingFor i = payloads)) ∧
    ((framesOn w.sink g).filterMap (LinkFrame.payloadOf i) ++ w.pending <+: sentOn i g ∧
      (w.phase ≠ .done → (framesOn w.sink g).filterMap (LinkFrame.payloadOf i) ++ w.pending = sentOn i g)) ∧
    ∀ (k : Nat) (pairId : PairId) (bytes : List UInt8), .forward i pairId bytes ∈ framesOn k g →
      k = w.sink ∧ pairId = w.pairId := by
  obtain ⟨hw, _, _⟩ := writing_run hr
  refine ⟨?_, ?_, ?_⟩
  · obtain ⟨queue, payloads, hq, hs, hprefix, hfed⟩ := transport_stream hr hi
    exact ⟨queue, payloads, hq, hs, hprefix, fun hopen => hfed (.inl hopen)⟩
  · rw [← hw.written hi]
    exact hw.flow hi
  · intro k pairId bytes hm
    obtain ⟨u, hu, hsink, hpair⟩ := hw.authored hm
    obtain rfl := Option.some.inj (hi.symm.trans hu)
    exact ⟨hsink.symm, hpair.symm⟩

/-- A pair is announced and given a payload; its transport answers. -/
def duplexMoves : List Move :=
  [.connect (.ok ()), .answer (.binary (encodeRelayCtrl .serverRegisterOk)),
    .dialer (.read (.binary (encodeRelayCtrl (.pairInbound pairA)))), .dialer .advance, .dialer .accept,
    .dialer (.read (.binary frameA)), .dialer .advance, .dialer (.recv 0), .send 0 [0x2b], .take 0, .write 0 true]

def duplexTrace : RelayLink × List LinkEvent :=
  (Steps.run (Steps.traced step emit) ({ serverId := serverA, publicKey := PublicKey.splat 1 }, []) duplexMoves).getD
    ({ serverId := serverA, publicKey := PublicKey.splat 1 }, [])

theorem run_duplexMoves :
    Steps.run (Steps.traced step emit) ({ serverId := serverA, publicKey := PublicKey.splat 1 }, []) duplexMoves =
      some duplexTrace := by
  rfl

theorem transports_duplex_sample :
    RelayDialer.receivedBy 0 (dialed duplexTrace.2) = [[0x2a]] ∧ sentOn 0 duplexTrace.2 = [[0x2b]] ∧
      (framesOn 0 duplexTrace.2).filterMap (LinkFrame.payloadOf 0) ++ [] = sentOn 0 duplexTrace.2 ∧
      ∃ payloads, (lineStreams (RelayDialer.line (dialed duplexTrace.2)))[0]? = some (pairA, payloads) ∧
        RelayDialer.receivedBy 0 (dialed duplexTrace.2) <+: payloads := by
  have hi : duplexTrace.1.writers[0]? = some { pairId := pairA, sink := 0, fromDaemonRx :=
      { capacity := pairQueueCapacity } } := by rfl
  obtain ⟨⟨queue, payloads, _, hs, hprefix, _⟩, ⟨_, hflow⟩, _⟩ := transports_duplex run_duplexMoves hi
  refine ⟨by rfl, by rfl, hflow (by decide), payloads, hs, ?_⟩
  exact ((List.prefix_append _ _).trans (List.prefix_append _ _)).trans hprefix

end RelayLink

end CliPocket
