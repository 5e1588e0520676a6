import CliPocket.Daemon.Config
import CliPocket.Lib.Steps

/-!
# Pairing over the relay

The accept path of the daemon: connections from the listener and from the relay dialer, their Noise handshakes, and the
admission of the client key. Noise is abstract: a handshake completes exactly when both sides run the same pattern with
the same pre-shared key, or none.

- `Accepting.step`: one step of one connection, of any number at once;
- `Accepting.Paired`: what is known of the connections a key has come in by (`step_paired`);
- `relay_pairing_needs_psk`: a key comes in over the relay only with the daemon's own pre-shared key, or without one
  where none is configured.
-/

namespace CliPocket

/-! ## Handshakes -/

inductive NoisePattern
  | xk
  | xkPsk2
  | xx
  deriving DecidableEq

/-- What one side of a handshake runs. -/
structure NoiseParty where
  pattern : NoisePattern
  psk : Option Psk
  deriving DecidableEq

/-- `xk_noise_params` and the key. -/
def noiseResponder (psk : Option Psk) : NoiseParty := { pattern := if psk.isSome then .xkPsk2 else .xk, psk }

def noiseAnonymousResponder : NoiseParty := { pattern := .xx, psk := none }

/-- The client: its own static key, and what it runs. -/
structure Initiator where
  publicKey : PublicKey
  party : NoiseParty
  deriving DecidableEq

inductive AcceptedTransportKind
  | direct (autoPair : Bool)
  | relay (autoPair : Bool)
  deriving DecidableEq

def AcceptedTransportKind.autoPair : AcceptedTransportKind → Bool
  | .direct autoPair => autoPair
  | .relay autoPair => autoPair

/-- `HandshakeKind` as `run_accepted_transport` chooses it. -/
def responderParty (relayPsk : Option Psk) : AcceptedTransportKind → NoiseParty
  | .direct _ => noiseAnonymousResponder
  | .relay _ => noiseResponder relayPsk

/-! ## Connections -/

/-- The steps of a handshake, after its messages: the look-up, the pairing of an unknown key, the revocation check. -/
inductive AcceptStage
  | messages
  | lookup
  | unpaired
  | known (record : ClientRecord)
  | done (result : Except DaemonError ClientRecord)

structure AcceptedConn where
  kind : AcceptedTransportKind
  initiator : Initiator
  stage : AcceptStage

/-- The accept path. `paired` lists the connections by which a key has entered the database. -/
structure Accepting where
  relayPsk : Option Psk
  db : DbState
  conns : List AcceptedConn
  paired : List (AcceptedTransportKind × Initiator)

/-- A connection comes in over the relay or directly, or the `i`-th one takes its next step. -/
inductive AcceptMove
  | pairInbound (initiator : Initiator)
  | direct (loopback : Bool) (initiator : Initiator)
  | advance (i : Nat) (clientId : ClientId) (pairedAt : Nat) (written : Bool)

namespace Accepting

/-- `Daemon::start`, when the address can be bound. -/
def start (config : DaemonConfig) (db : DbState) (bound : Bool) : Except DaemonError Accepting :=
  if bound then .ok { relayPsk := CliPocket.relayPsk config, db, conns := [], paired := [] } else .error .io

def setStage (s : Accepting) (i : Nat) (conn : AcceptedConn) (stage : AcceptStage) : Accepting :=
  { s with conns := s.conns.set i { conn with stage } }

/-- `add_or_lookup_by_public` for an unknown key. -/
def pair (s : Accepting) (i : Nat) (conn : AcceptedConn) (record : ClientRecord) (written : Bool) : Accepting :=
  match s.db.lookupByPublic record.publicKey with
  | some existing => s.setStage i conn (.known existing)
  | none =>
    match s.db.withAdded record with
    | .error e => s.setStage i conn (.done (.error e))
    | .ok next =>
      if written then
        { s.setStage i conn (.known record) with
          db := next
          paired := s.paired ++ [(conn.kind, conn.initiator)] }
      else s.setStage i conn (.done (.error .io))

def advance (s : Accepting) (i : Nat) (conn : AcceptedConn) (clientId : ClientId) (pairedAt : Nat) (written : Bool) :
    Option Accepting :=
  match conn.stage with
  | .messages =>
    some (if conn.initiator.party = responderParty s.relayPsk conn.kind then s.setStage i conn .lookup
      else s.setStage i conn (.done (.error .crypto)))
  | .lookup =>
    match s.db.lookupByPublic conn.initiator.publicKey with
    | some record => some (s.setStage i conn (.known record))
    | none =>
      some (if conn.kind.autoPair then s.setStage i conn .unpaired
        else s.setStage i conn (.done (.error (.notPaired (Text.hexEncode conn.initiator.publicKey.bytes)))))
  | .unpaired => some (s.pair i conn { clientId, publicKey := conn.initiator.publicKey, pairedAt } written)
  | .known record =>
    some (if s.db.isRevoked record.clientId then
        s.setStage i conn (.done (.error (.revoked ("ClientId(" ++ record.clientId.uuid.display ++ ")"))))
      else s.setStage i conn (.done (.ok record)))
  | .done _ => none

def step (s : Accepting) : AcceptMove → Option Accepting
  | .pairInbound initiator => some { s with conns := s.conns ++ [⟨.relay true, initiator, .messages⟩] }
  | .direct loopback initiator => some { s with conns := s.conns ++ [⟨.direct loopback, initiator, .messages⟩] }
  | .advance i clientId pairedAt written =>
    match s.conns[i]? with
    | none => none
    | some conn => s.advance i conn clientId pairedAt written

/-! ## The invariant -/

/-- The handshake messages are behind the connection. -/
def AcceptStage.Past : AcceptStage → Prop
  | .lookup | .unpaired | .known _ | .done (.ok _) => True
  | .messages | .done (.error _) => False

/-- Connections past their handshake, and those by which a key has entered, ran what the daemon runs. -/
structure Paired (relayPsk : Option Psk) (s : Accepting) : Prop where
  psk : s.relayPsk = relayPsk
  conns : ∀ conn ∈ s.conns, AcceptStage.Past conn.stage → conn.initiator.party = responderParty relayPsk conn.kind
  paired : ∀ p ∈ s.paired, p.2.party = responderParty relayPsk p.1

variable {relayPsk : Option Psk} {s t : Accepting}

theorem Paired.setStage (h : Paired relayPsk s) (i : Nat) {conn : AcceptedConn} {stage : AcceptStage}
    (hp : AcceptStage.Past stage → conn.initiator.party = responderParty relayPsk conn.kind) :
    Paired relayPsk (s.setStage i conn stage) where
  psk := h.psk
  conns := by
    intro c hc
    rcases List.mem_or_eq_of_mem_set hc with hc | rfl
    · exact h.conns c hc
    · exact hp
  paired := h.paired

/-- Pairing an unknown key. -/
theorem Paired.pair (h : Paired relayPsk s) (i : Nat) {conn : AcceptedConn}
    (hp : conn.initiator.party = responderParty relayPsk conn.kind) (record : ClientRecord) (written : Bool) :
    Paired relayPsk (s.pair i conn record written) := by
  unfold Accepting.pair
  split
  · exact h.setStage i fun _ => hp
  · split
    · exact h.setStage i fun hf => hf.elim
    · split
      · have hset : Paired relayPsk (s.setStage i conn (.known record)) := h.setStage i fun _ => hp
        refine ⟨hset.psk, hset.conns, ?_⟩
        intro p hm
        rcases List.mem_append.mp hm with hm | hm
        · exact h.paired p hm
        · rw [List.mem_singleton.mp hm]
          exact hp
      · exact h.setStage i fun hf => hf.elim

theorem Paired.append (h : Paired relayPsk s) (kind : AcceptedTransportKind) (initiator : Initiator) :
    Paired relayPsk { s with conns := s.conns ++ [⟨kind, initiator, .messages⟩] } where
  psk := h.psk
  conns := by
    intro c hc
    rcases List.mem_append.mp hc with hc | hc
    · exact h.conns c hc
    · rw [List.mem_singleton.mp hc]
      exact False.elim
  paired := h.paired

/-- **One step of one connection.** -/
theorem step_paired (move : AcceptMove) (h : Paired relayPsk s) (hs : s.step move = some t) : Paired relayPsk t := by
  cases move with
  | pairInbound initiator =>
    cases hs
    exact h.append (.relay true) initiator
  | direct loopback initiator =>
    cases hs
    exact h.append (.direct loopback) initiator
  | advance i clientId pairedAt written =>
    simp only [step] at hs
    split at hs
    · cases hs
    · next conn hget =>
      have hpast := h.conns conn (List.mem_of_getElem? hget)
      unfold Accepting.advance at hs
      cases hstage : conn.stage with
      | messages =>
        simp only [hstage] at hs
        split at hs <;> cases hs
        · next hparty => exact h.setStage i fun _ => h.psk ▸ hparty
        · exact h.setStage i fun hf => hf.elim
      | lookup =>
        rw [hstage] at hpast
        simp only [hstage] at hs
        split at hs
        · cases hs
          exact h.setStage i fun _ => hpast trivial
        · split at hs <;> cases hs
          · exact h.setStage i fun _ => hpast trivial
          · exact h.setStage i fun hf => hf.elim
      | unpaired =>
        rw [hstage] at hpast
        simp only [hstage] at hs
        cases hs
        exact h.pair i (hpast trivial) _ _
      | known record =>
        rw [hstage] at hpast
        simp only [hstage] at hs
        split at hs <;> cases hs
        · exact h.setStage i fun hf => hf.elim
        · exact h.setStage i fun _ => hpast trivial
      | done result =>
        simp only [hstage] at hs
        cases hs

theorem start_paired {config : DaemonConfig} {db : DbState} {bound : Bool} {s : Accepting}
    (h : start config db bound = .ok s) : Paired (CliPocket.relayPsk config) s := by
  unfold start at h
  split at h
  · cases h
    refine ⟨rfl, ?_, ?_⟩
    · intro c hc
      cases hc
    · intro p hp
      cases hp
  · cases h

/-- A relay client that completed its handshake ran the daemon's key. -/
theorem psk_of_responderParty {autoPair : Bool} {party : NoiseParty}
    (h : party = responderParty relayPsk (.relay autoPair)) : party.psk = relayPsk := by
  rw [h]
  rfl

/-! ## Keys that come in over the relay -/

/-- **Relay pairing needs the configured key.** In every run of the accept path, a client key enters over the relay only
by a handshake with the key that the pairing links carry, where `relay.psk_hex` is the hexadecimal text of a key; where
it is empty, only by a handshake without one, and there is no pairing link. -/
theorem relay_pairing_needs_psk {config : DaemonConfig} {db : DbState} {bound : Bool} {s₀ s : Accepting}
    (hstart : start config db bound = .ok s₀) {moves : List AcceptMove} (hr : Steps.run step s₀ moves = some s) :
    ∀ autoPair initiator, (.relay autoPair, initiator) ∈ s.paired →
      (∀ k : Psk, Text.hexDecode config.relay.pskHex = .ok k.bytes →
        initiator.party.psk = some k ∧
          ∀ identity label offer, pairingOffer config identity label = .ok offer →
            Text.hexDecode offer.relayPskHex = .ok k.bytes) ∧
      (config.relay.pskHex = "" →
        initiator.party.psk = none ∧ ∀ encode identity label url, pairUrl encode config identity label ≠ .ok url) := by
  have hreach : Steps.Reachable step s₀ s := ⟨moves, hr⟩
  have hpaired := hreach.invariant (start_paired hstart) fun _ move _ h hs => step_paired move h hs
  intro autoPair initiator hm
  have hpsk := psk_of_responderParty (hpaired.paired _ hm)
  refine ⟨fun k hk => ⟨?_, ?_⟩, fun hempty => ⟨?_, ?_⟩⟩
  · rw [hpsk, relayPsk_of_hexDecode hk]
  · exact fun identity label offer ho => pairingOffer_of_hexDecode hk ho
  · rw [hpsk, relayPsk_empty hempty]
  · exact fun encode identity label url => pairUrl_empty encode identity label hempty url

/-! ## Two runs -/

def sampleConfig (pskHex : String) : DaemonConfig :=
  { relay := { baseUrl := "ws://relay", pskHex }, app := { baseUrl := "https://app" } }

/-- A client comes in over the relay and takes all steps of its handshake. -/
def sampleMoves (initiator : Initiator) : List AcceptMove :=
  [.pairInbound initiator, .advance 0 ⟨.splat 5⟩ 1 true, .advance 0 ⟨.splat 5⟩ 1 true, .advance 0 ⟨.splat 5⟩ 1 true,
    .advance 0 ⟨.splat 5⟩ 1 true]

def keyedInitiator : Initiator :=
  { publicKey := .splat 4, party := { pattern := .xkPsk2, psk := some (.splat 0x22) } }

def keylessInitiator : Initiator := { publicKey := .splat 4, party := { pattern := .xk, psk := none } }

theorem relay_pairing_needs_psk_sample :
    ∃ s₀ s, start (sampleConfig "2222222222222222222222222222222222222222222222222222222222222222") {} true = .ok s₀ ∧
      Steps.run step s₀ (sampleMoves keyedInitiator) = some s ∧ (.relay true, keyedInitiator) ∈ s.paired ∧
      keyedInitiator.party.psk = some (.splat 0x22) := by
  refine ⟨_, _, rfl, rfl, List.mem_cons_self, ?_⟩
  have hrun := @relay_pairing_needs_psk
    (sampleConfig "2222222222222222222222222222222222222222222222222222222222222222") {} true _ _ rfl
    (sampleMoves keyedInitiator) rfl true keyedInitiator List.mem_cons_self
  exact (hrun.1 (.splat 0x22) rfl).1

/-- Without a configured key, a client that knows nothing but the server's public key is paired. -/
theorem relay_pairing_without_psk :
    ¬∀ (config : DaemonConfig) (db : DbState) (bound : Bool) (s₀ s : Accepting) (moves : List AcceptMove),
      start config db bound = .ok s₀ → Steps.run step s₀ moves = some s →
      ∀ autoPair initiator, (.relay autoPair, initiator) ∈ s.paired →
        ∃ k : Psk, Text.hexDecode (Text.trim config.relay.pskHex) = .ok k.bytes ∧ initiator.party.psk = some k := by
  intro h
  obtain ⟨k, _, hk⟩ := h (sampleConfig "") {} true _ _ (sampleMoves keylessInitiator) rfl rfl true keylessInitiator
    List.mem_cons_self
  cases hk

end Accepting

end CliPocket
