import CliPocket.Client.SessionLoop
import CliPocket.Lib.Steps

/-!
# The order of Noise messages

- `Session.Ordered`: what has been encrypted has been handed to the transport, but for one message that is on its way;
- `Ordered.step`: kept by every step that does not give up a send (`Session.GivesUp`);
- `nonces_in_order`: **no nonce is skipped** as long as no send is given up.
-/

namespace CliPocket

open Steps (run Meets)

/-! ## What is on its way -/

/-- The ciphertext whose `transport.send` is awaited. -/
def Setup.inFlight : Setup → Option Ciphertext
  | .helloing ciphertext => some ciphertext
  | _ => none

def Wait.inFlight : Wait → Option Ciphertext
  | .sending ciphertext _ | .selecting (.pinging ciphertext) => some ciphertext
  | _ => none

namespace Session

variable {s t : Session} {c : Connection}

def inFlight (s : Session) : Option Ciphertext :=
  match s.phase with
  | .setup setup => setup.inFlight
  | .connected c => c.wait.inFlight
  | _ => none

theorem inFlight_setup {setup : Setup} (h : s.phase = .setup setup) : s.inFlight = setup.inFlight := by
  unfold inFlight
  rw [h]

theorem inFlight_connected (h : s.phase = .connected c) : s.inFlight = c.wait.inFlight := by
  unfold inFlight
  rw [h]

/-- A ping that is outstanding has been encrypted. -/
def PingSealed (link : Link) (c : Connection) : Prop :=
  c.heartbeat.pingOutstanding = true →
    ∃ ciphertext ∈ link.encrypted, c.ping = some ciphertext ∧ ∃ nonce, ciphertext.frame = .ping nonce

/-- Everything encrypted has been handed over, in the order of the nonces. -/
structure Clear (link : Link) : Prop where
  sent : link.encrypted = link.handed
  nonces : link.encrypted.map Ciphertext.nonce = List.range link.noise.sendNonce

structure Ordered (s : Session) : Prop where
  sent : s.link.encrypted = s.link.handed ++ s.inFlight.toList
  nonces : s.link.encrypted.map Ciphertext.nonce = List.range s.link.noise.sendNonce
  ping : ∀ c, s.phase = .connected c → PingSealed s.link c

theorem Ordered.clear (h : s.Ordered) (hf : s.inFlight = none) : Clear s.link := by
  refine ⟨?_, h.nonces⟩
  rw [h.sent, hf, Option.toList_none, List.append_nil]

/-- A ciphertext that has gone is on its way no more. -/
theorem Ordered.hand (h : s.Ordered) {ciphertext : Ciphertext} (hf : s.inFlight = some ciphertext) :
    Clear (s.hand ciphertext).link := by
  refine ⟨?_, h.nonces⟩
  show s.link.encrypted = s.link.handed ++ [ciphertext]
  rw [h.sent, hf, Option.toList_some]

/-- Nothing is on its way. -/
theorem ordered_of_clear (h : Clear s.link) (hf : s.inFlight = none)
    (hphase : ∀ c, s.phase = .connected c → PingSealed s.link c) : s.Ordered := by
  refine ⟨?_, h.nonces, hphase⟩
  rw [hf, Option.toList_none, List.append_nil]
  exact h.sent

theorem ordered_stop (h : Clear s.link) : s.stop.Ordered := ordered_of_clear h rfl fun _ h => by cases h

theorem ordered_report {willRetry checkStop : Bool} {reason : String} (h : Clear s.link) :
    (s.report willRetry checkStop reason).Ordered := ordered_of_clear h rfl fun _ h => by cases h

theorem ordered_finish {reached : Bool} {outcome : Except ClientError Unit} (h : Clear s.link) :
    (s.finish reached outcome).Ordered := by
  unfold Session.finish
  dsimp only
  split
  · exact ordered_stop h
  · split
    · exact ordered_report h
    · exact ordered_report h

theorem ordered_breakWith {reached : Bool} {outcome : Except ClientError Unit} (h : Clear s.link) :
    (s.breakWith reached outcome).Ordered := ordered_finish h

/-- A frame is encrypted, and its ciphertext is on its way. -/
theorem Clear.encrypt (h : Clear s.link) {frame : FrameBody} {ciphertext : Ciphertext}
    (he : s.encrypt frame = .ok (t, ciphertext)) :
    t.link.encrypted = t.link.handed ++ [ciphertext] ∧
      t.link.encrypted.map Ciphertext.nonce = List.range t.link.noise.sendNonce := by
  obtain ⟨rfl, _, rfl⟩ := encrypt_eq_ok he
  refine ⟨congrArg (· ++ _) h.sent, ?_⟩
  show (s.link.encrypted ++ [_]).map Ciphertext.nonce = List.range (s.link.noise.sendNonce + 1)
  rw [List.map_append, h.nonces, List.range_succ]
  rfl

theorem PingSealed.encrypt (h : PingSealed s.link c) {t : Session} {frame : FrameBody} {ciphertext : Ciphertext}
    (he : s.encrypt frame = .ok (t, ciphertext)) : PingSealed t.link c := by
  obtain ⟨rfl, _⟩ := encrypt_eq_ok he
  intro hping
  obtain ⟨sealed, hmem, hsealed⟩ := h hping
  exact ⟨sealed, List.mem_append_left _ hmem, hsealed⟩

theorem ordered_startSend {frame : FrameBody} {after : AfterSend} (h : Clear s.link) (hping : PingSealed s.link c) :
    (s.startSend c frame after).Ordered := by
  unfold Session.startSend
  split
  · exact ordered_finish h
  · next u ciphertext he =>
    obtain ⟨hsent, hnonces⟩ := Clear.encrypt h he
    refine ⟨hsent, hnonces, ?_⟩
    rintro _ ⟨⟩
    exact (PingSealed.encrypt hping he : PingSealed u.link c)

/-- The loop waits for something that is not a send. -/
theorem ordered_wait (h : Clear s.link) (hphase : s.phase = .connected c) (hping : PingSealed s.link c)
    (hf : s.inFlight = none) : s.Ordered := by
  refine ordered_of_clear h hf fun d hd => ?_
  cases hphase.symm.trans hd
  exact hping

theorem ordered_sendSessionCmd {cmd : SessionCommand} (hs : s.sendSessionCmd c cmd = some t) (h : Clear s.link)
    (hping : PingSealed s.link c) : t.Ordered := by
  obtain ⟨⟨client, request⟩, _, rfl⟩ := Option.map_eq_some_iff.mp hs
  exact ordered_startSend h hping

theorem ordered_sendCmd {cmd : TerminalCmd} (h : Clear s.link) (hping : PingSealed s.link c) :
    (s.sendCmd c cmd).Ordered := by
  unfold Session.sendCmd
  split
  · exact ordered_startSend h hping
  · exact ordered_wait h rfl hping rfl

theorem ordered_turn (h : Clear s.link) (hping : PingSealed s.link c) {nowMs nonce : Nat}
    (hs : s.turn c nowMs nonce = some t) : t.Ordered := by
  unfold Session.turn at hs
  rcases c.heartbeat.poll_cases nowMs nonce with hpoll | hpoll | hpoll
  all_goals rw [hpoll] at hs; dsimp only at hs
  · split at hs
    all_goals cases hs
    · exact ordered_finish h
    · next u ciphertext he =>
      obtain ⟨hsent, hnonces⟩ := Clear.encrypt h he
      refine ⟨hsent, hnonces, ?_⟩
      rintro _ ⟨⟩ _
      obtain ⟨_, _, hframe⟩ := encrypt_eq_ok he
      refine ⟨ciphertext, ?_, rfl, _, by rw [hframe]⟩
      rw [show _ = u.link.handed ++ [ciphertext] from hsent]
      exact List.mem_append_right _ List.mem_cons_self
  · cases hs
    exact ordered_of_clear h rfl fun _ h => by cases h
  · split at hs
    · exact ordered_sendSessionCmd hs h hping
    · split at hs
      all_goals cases hs
      · exact ordered_sendCmd h hping
      · exact ordered_wait h rfl hping rfl

theorem ordered_act {action : Action} (h : Clear s.link) (hping : PingSealed s.link c) : (s.act c action).Ordered := by
  cases action with
  | send frame => exact ordered_startSend h hping
  | emit event => exact ordered_wait h rfl hping rfl
  | «return» result => exact ordered_breakWith h
  | none => exact ordered_wait h rfl hping rfl

theorem ordered_inbound {frame : FrameBody} (h : Clear s.link) (hping : PingSealed s.link c) :
    (s.inbound c frame).Ordered := by
  unfold Session.inbound
  split
  · exact ordered_finish h
  · exact ordered_act h hping

theorem ordered_pollRecv {nowMs nonce : Nat} (h : Clear s.link) (hping : PingSealed s.link c) :
    (s.pollRecv c nowMs nonce).Ordered := by
  unfold Session.pollRecv
  rcases c.heartbeat.poll_cases nowMs nonce with hpoll | hpoll | hpoll
  all_goals rw [hpoll]; dsimp only
  · split
    · exact ordered_finish h
    · next u ciphertext he =>
      obtain ⟨hsent, hnonces⟩ := Clear.encrypt h he
      refine ⟨hsent, hnonces, ?_⟩
      rintro _ ⟨⟩ _
      obtain ⟨_, _, hframe⟩ := encrypt_eq_ok he
      refine ⟨ciphertext, ?_, rfl, _, by rw [hframe]⟩
      rw [show _ = u.link.handed ++ [ciphertext] from hsent]
      exact List.mem_append_right _ List.mem_cons_self
  · exact ordered_wait h rfl hping rfl
  · exact ordered_wait h rfl hping rfl

/-! ## Steps -/

/-- Moves by which a future is dropped that may have a send in it. -/
def GivesUp : Move → Prop
  | .conn .sessionCmd | .conn .sessionCmdsClosed | .conn .cmd | .setup .timedOut => True
  | _ => False

instance decidableGivesUp : (move : Move) → Decidable (GivesUp move)
  | .conn .sessionCmd | .conn .sessionCmdsClosed | .conn .cmd | .setup .timedOut => isTrue trivial
  | .conn (.turn _ _) | .conn .sent | .conn (.sendFailed _) | .conn .emitted | .conn .batch | .conn .batched
  | .conn (.poll _ _) | .conn .pingSent | .conn (.pingFailed _) | .conn .slept | .conn (.frame _ _)
  | .conn .peerClosed | .conn (.recvFailed _) | .conn .closed | .setup .handshaken | .setup .helloSent
  | .setup (.helloOk _ _) | .setup (.failed _) | .caller _ | .loop _ => isFalse id

/-- No send is given up. -/
def SendsOn (s : Session) (move : Move) : Prop := GivesUp move → s.inFlight = none

/-- What a connection does when nothing is on its way. -/
theorem ordered_selectStep {recv : RecvFuture} {move : ConnMove} (h : s.Ordered) (hc : s.SendsOn (.conn move))
    (hphase : s.phase = .connected c) (hwait : c.wait = .selecting recv) (hs : s.selectStep c recv move = some t) :
    t.Ordered := by
  have hping := h.ping c hphase
  have hflight := inFlight_connected hphase
  rw [hwait] at hflight
  unfold selectStep at hs
  revert hc
  split at hs
  · intro hc
    have hclear := h.clear (hc trivial)
    split at hs
    · cases hs
    · cases hs
      exact ordered_finish hclear
    · exact ordered_sendSessionCmd hs hclear hping
  · intro hc
    have hclear := h.clear (hc trivial)
    split at hs
    · cases hs
      exact ordered_finish hclear
    · cases hs
  · intro hc
    have hclear := h.clear (hc trivial)
    split at hs
    · cases hs
    · split at hs
      all_goals cases hs
      · exact ordered_wait hclear rfl hping rfl
      · exact ordered_sendCmd (s := { s with cmds := _, pendingCmds := _ }) hclear hping
  · intro _
    split at hs
    · cases hs
    · unfold recvMove at hs
      split at hs
      all_goals cases hs
      · exact ordered_pollRecv (h.clear hflight) hping
      · exact ordered_wait (h.hand hflight) rfl hping rfl
      · exact ordered_finish (h.hand hflight)
      · exact ordered_wait (h.clear hflight) rfl hping rfl
      · exact ordered_inbound (h.clear hflight) nofun
      · exact ordered_finish (h.clear hflight)
      · exact ordered_finish (h.clear hflight)
      · exact ordered_finish (h.clear hflight)

instance (s : Session) (move : Move) : Decidable (s.SendsOn move) :=
  inferInstanceAs (Decidable (GivesUp move → s.inFlight = none))

theorem Ordered.connStep {move : ConnMove} (h : s.Ordered) (hc : s.SendsOn (.conn move))
    (hs : s.connStep move = some t) : t.Ordered := by
  unfold Session.connStep at hs
  split at hs
  · next c hphase =>
    have hping := h.ping c hphase
    have hflight := inFlight_connected hphase
    split at hs
    · next hwait =>
      rw [hwait] at hflight
      exact ordered_turn (h.clear hflight) hping hs
    · next ciphertext after hwait =>
      rw [hwait] at hflight
      have hclear := h.hand hflight
      cases hs
      cases after with
      | nothing | popCmd | popSessionCmd => exact ordered_wait hclear rfl hping rfl
    · next ciphertext after e hwait =>
      rw [hwait] at hflight
      cases hs
      exact ordered_finish (h.hand hflight)
    · next hwait =>
      rw [hwait] at hflight
      cases hs
      exact ordered_wait (h.clear hflight) rfl hping rfl
    · next cmd deferred hwait =>
      rw [hwait] at hflight
      have hclear := h.clear hflight
      split at hs
      · cases hs
      · split at hs
        all_goals cases hs
        · exact ordered_wait hclear rfl hping rfl
        · exact ordered_wait hclear rfl hping rfl
    · next cmd deferred hwait =>
      rw [hwait] at hflight
      have hclear := h.clear hflight
      cases hs
      exact ordered_sendCmd (s := { s with pendingCmds := _ }) hclear hping
    · next recv hwait => exact ordered_selectStep h hc hphase hwait hs
    · cases hs
  · cases hs

theorem Ordered.setupStep {move : SetupMove} (h : s.Ordered) (hc : s.SendsOn (.setup move))
    (hs : s.setupStep move = some t) : t.Ordered := by
  unfold Session.setupStep at hs
  split at hs
  · next setup hphase =>
    have hflight := inFlight_setup hphase
    split at hs
    · have hnew : Clear ({} : Link) := ⟨rfl, rfl⟩
      split at hs
      · cases hs
        exact ordered_finish (h.clear hflight)
      · next u ciphertext he =>
        cases hs
        obtain ⟨hsent, hnonces⟩ := Clear.encrypt (s := { s with link := {} }) hnew he
        exact ⟨hsent, hnonces, fun _ h => by cases h⟩
    all_goals cases hs
    · exact ordered_of_clear (h.hand hflight) rfl fun _ h => by cases h
    · exact ordered_finish (h.hand hflight)
    · exact ordered_of_clear (h.clear hflight) rfl fun _ h => by cases h
    · next hother =>
      refine ordered_finish (h.clear (hflight.trans ?_))
      cases setup with
      | helloing ciphertext => exact (hother ciphertext rfl).elim
      | handshaking | awaitingReply => rfl
    · exact ordered_of_clear (h.clear (hc trivial)) rfl fun _ h => by cases h
  · cases hs

theorem Ordered.loopStep {move : LoopMove} (h : s.Ordered) (hs : s.loopStep move = some t) : t.Ordered := by
  have hidle : ∀ {phase : SessionPhase}, s.phase = phase →
      (match phase with
        | .setup setup => setup.inFlight
        | .connected c => c.wait.inFlight
        | _ => none) = none → Clear s.link := by
    rintro _ rfl hflight
    exact h.clear hflight
  have htop : Clear s.link → s.top.Ordered := by
    intro hclear
    unfold top
    split
    · exact ordered_stop hclear
    · exact ordered_of_clear hclear rfl fun _ h => by cases h
  unfold Session.loopStep at hs
  split at hs
  · next hphase =>
    cases hs
    exact htop (hidle hphase rfl)
  · next hphase =>
    cases hs
    exact ordered_of_clear (hidle hphase rfl) rfl fun _ h => by cases h
  · next hphase =>
    cases hs
    exact ordered_of_clear (hidle hphase rfl) rfl fun _ h => by cases h
  · next hphase =>
    have hclear := hidle hphase rfl
    split at hs
    all_goals cases hs
    · exact ordered_stop hclear
    · exact ordered_report hclear
  · next hphase =>
    cases hs
    exact ordered_breakWith (hidle hphase rfl)
  · next hphase =>
    cases hs
    exact ordered_wait (hidle hphase rfl) rfl (fun hping => by cases hping) rfl
  · next hphase =>
    have hclear := hidle hphase rfl
    split at hs
    all_goals cases hs
    · exact ordered_stop hclear
    · exact ordered_of_clear hclear rfl fun _ h => by cases h
  · next hphase =>
    cases hs
    exact htop (hidle hphase rfl)
  · cases hs

/-- The callers do not touch the connection. -/
theorem callerStep_link {move : CallerMove} (hs : s.callerStep move = some t) : t.link = s.link ∧ t.phase = s.phase := by
  unfold callerStep at hs
  split at hs
  · cases hs
  · split at hs
    · split at hs
      · cases hs
      · split at hs <;> cases hs
        exact ⟨rfl, rfl⟩
    · cases hs
      exact ⟨rfl, rfl⟩
    · split at hs <;> cases hs
      exact ⟨rfl, rfl⟩
    · split at hs <;> cases hs
      exact ⟨rfl, rfl⟩

/-- **A step that gives up no send keeps the order.** -/
theorem Ordered.step {move : Move} (h : s.Ordered) (hc : s.SendsOn move) (hs : s.step move = some t) : t.Ordered := by
  cases move with
  | caller move =>
    obtain ⟨hlink, hphase⟩ := callerStep_link hs
    have hflight : t.inFlight = s.inFlight := by
      unfold inFlight
      rw [hphase]
    refine ⟨?_, ?_, ?_⟩
    · rw [hlink, hflight]
      exact h.sent
    · rw [hlink]
      exact h.nonces
    · rw [hlink, hphase]
      exact h.ping
  | loop move => exact h.loopStep hs
  | setup move => exact h.setupStep hc hs
  | conn move => exact h.connStep hc hs

/-! ## Sends that are given up -/

/-- Something encrypted has not been handed over, and will not be. -/
theorem not_ordered_of_link (hlink : t.link = s.link) (hf : t.inFlight = none) (hlate : s.link.encrypted ≠ s.link.handed) :
    ¬t.Ordered := by
  intro h
  have hsent := h.sent
  rw [hf, hlink, Option.toList_none, List.append_nil] at hsent
  exact hlate hsent

theorem finish_link (s : Session) (reached : Bool) (outcome : Except ClientError Unit) :
    (s.finish reached outcome).link = s.link ∧ (s.finish reached outcome).inFlight = none := by
  unfold finish
  dsimp only
  split
  · exact ⟨rfl, rfl⟩
  · split
    · exact ⟨rfl, rfl⟩
    · exact ⟨rfl, rfl⟩

theorem not_ordered_finish {reached : Bool} {outcome : Except ClientError Unit}
    (hlate : s.link.encrypted ≠ s.link.handed) : ¬(s.finish reached outcome).Ordered :=
  not_ordered_of_link (finish_link s _ _).1 (finish_link s _ _).2 hlate

theorem not_ordered_startSend {frame : FrameBody} {after : AfterSend} (hlate : s.link.encrypted ≠ s.link.handed) :
    ¬(s.startSend c frame after).Ordered := by
  unfold startSend
  split
  · exact not_ordered_finish hlate
  · next u ciphertext he =>
    obtain ⟨rfl, _⟩ := encrypt_eq_ok he
    intro h
    have hsent : s.link.encrypted ++ [ciphertext] = s.link.handed ++ [ciphertext] := h.sent
    exact hlate (List.append_cancel_right hsent)

/-- **A send that is given up breaks the order.** -/
theorem Ordered.not_ordered_of_givesUp (h : s.Ordered) {move : Move} (hgives : GivesUp move) (hf : s.inFlight ≠ none)
    (hs : s.step move = some t) : ¬t.Ordered := by
  have hlate : s.link.encrypted ≠ s.link.handed := by
    obtain ⟨ciphertext, hciphertext⟩ := Option.ne_none_iff_exists'.mp hf
    rw [h.sent, hciphertext]
    simp
  have hselect : ∀ {move : ConnMove}, GivesUp (.conn move) → s.connStep move = some t →
      ∃ c recv, s.selectStep c recv move = some t := by
    intro move hgives hs
    unfold Session.connStep at hs
    split at hs
    · split at hs
      all_goals first | exact hgives.elim | skip
      · exact ⟨_, _, hs⟩
      · cases hs
    · cases hs
  unfold GivesUp at hgives
  split at hgives
  · obtain ⟨c, recv, hs⟩ := @hselect .sessionCmd trivial hs
    unfold selectStep at hs
    dsimp only at hs
    split at hs
    · cases hs
    · cases hs
      exact not_ordered_finish hlate
    · obtain ⟨⟨client, request⟩, _, rfl⟩ := Option.map_eq_some_iff.mp hs
      exact not_ordered_startSend hlate
  · obtain ⟨c, recv, hs⟩ := @hselect .sessionCmdsClosed trivial hs
    unfold selectStep at hs
    dsimp only at hs
    split at hs
    · cases hs
      exact not_ordered_finish hlate
    · cases hs
  · obtain ⟨c, recv, hs⟩ := @hselect .cmd trivial hs
    unfold selectStep at hs
    dsimp only at hs
    split at hs
    · cases hs
    · split at hs
      all_goals cases hs
      · exact not_ordered_of_link rfl rfl hlate
      · unfold sendCmd
        split
        · exact not_ordered_startSend hlate
        · exact not_ordered_of_link rfl rfl hlate
  · change s.setupStep .timedOut = some t at hs
    unfold Session.setupStep at hs
    split at hs
    · next setup hphase =>
      cases setup
      all_goals cases hs
      all_goals exact not_ordered_of_link rfl rfl hlate
    · cases hs
  · exact hgives.elim

theorem ordered_new (resumeToken : Option ResumeToken) : (new resumeToken).Ordered := by
  refine ordered_of_clear ⟨rfl, rfl⟩ rfl fun _ h => by cases h

/-- **Noise messages in order.** In a run that drops no future with a send in it, what has been handed to the transport
is what has been encrypted, nonce by nonce, but for one message on its way, and an outstanding ping has gone or is
going. The first step that drops such a future breaks this. -/
theorem nonces_in_order (resumeToken : Option ResumeToken) {is : List Move} {s : Session}
    (hmeets : Meets Session.step SendsOn (new resumeToken) is) (hs : run Session.step (new resumeToken) is = some s) :
    (s.link.encrypted = s.link.handed ++ s.inFlight.toList ∧
      s.link.handed.map Ciphertext.nonce = List.range s.link.handed.length ∧
      ∀ c, s.phase = .connected c → c.heartbeat.pingOutstanding = true →
        ∃ ciphertext, c.ping = some ciphertext ∧ (∃ nonce, ciphertext.frame = .ping nonce) ∧
          (ciphertext ∈ s.link.handed ∨ s.inFlight = some ciphertext)) ∧
      ∀ move t, s.step move = some t → (t.Ordered ↔ s.SendsOn move) := by
  have h : s.Ordered := Steps.run_invariant (fun _ _ _ hu hc ht => Ordered.step hu hc ht) hmeets hs (ordered_new resumeToken)
  refine ⟨⟨h.sent, ?_, ?_⟩, ?_⟩
  · have htake : s.link.handed.map Ciphertext.nonce =
        (s.link.encrypted.map Ciphertext.nonce).take s.link.handed.length := by
      rw [h.sent, List.map_append, List.take_left' (List.length_map _)]
    have hlength : s.link.handed.length ≤ s.link.noise.sendNonce := by
      have := congrArg List.length h.nonces
      rw [List.length_map, List.length_range, h.sent, List.length_append] at this
      omega
    rw [htake, h.nonces, List.take_range, Nat.min_eq_left hlength]
  · intro c hphase hping
    obtain ⟨ciphertext, hmem, hc, hframe⟩ := h.ping c hphase hping
    refine ⟨ciphertext, hc, hframe, ?_⟩
    rw [h.sent] at hmem
    rcases List.mem_append.mp hmem with hmem | hmem
    · exact .inl hmem
    · exact .inr (Option.mem_toList.mp hmem)
  · intro move t ht
    constructor
    · intro hordered hgives
      by_contra hf
      exact h.not_ordered_of_givesUp hgives hf ht hordered
    · exact fun hc => h.step hc ht

/-- The moves of a ping that gets to the transport. -/
def toPing : List Move := toSelect ++ [.conn (.poll 10000 7), .conn .pingSent]

theorem nonces_in_order_sample : ∃ s, run Session.step (new none) toPing = some s ∧
    s.link.handed.map Ciphertext.nonce = List.range s.link.handed.length := by
  obtain ⟨s, hs⟩ : ∃ s, run Session.step (new none) toPing = some s := ⟨_, rfl⟩
  exact ⟨s, hs, (nonces_in_order none (by decide) hs).1.2.1⟩

/-- A command comes while the transport still takes the ping: the daemon sees nonce 2 behind nonce 0. -/
theorem ping_nonce_skipped : ¬∀ (is : List Move) (s : Session), run Session.step (new none) is = some s →
    s.link.encrypted = s.link.handed ++ s.inFlight.toList := by
  intro h
  obtain ⟨s, hs, hhanded, hflight, hencrypted⟩ : ∃ s,
      run Session.step (new none) (toSelect ++ [.conn (.poll 10000 7), .caller (.command (.listTerminals 0)),
        .conn .sessionCmd, .conn .sent]) = some s ∧
      s.link.handed.map Ciphertext.nonce = [0, 2] ∧ s.inFlight = none ∧
      s.link.encrypted.map Ciphertext.nonce = [0, 1, 2] := ⟨_, rfl, rfl, rfl, rfl⟩
  have hsent := congrArg (List.map Ciphertext.nonce) (h _ s hs)
  rw [hflight, Option.toList_none, List.append_nil, hhanded, hencrypted] at hsent
  cases hsent

end Session

end CliPocket
