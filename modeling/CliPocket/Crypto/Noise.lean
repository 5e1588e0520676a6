import CliPocket.Lib.Saturating
import CliPocket.Proto.Codec

/-!
# The transport mode of Noise

- `NoiseSession.encrypt_eq_ok`: what is sealed, and with which nonce.
-/

namespace CliPocket

open Saturating (u64Max)

def noiseMaxMsgLen : Nat := 65535

def noiseTagLen : Nat := 16

/-- The errors of `encrypt`. -/
inductive NoiseError
  | payloadTooLarge
  | exhausted
  deriving DecidableEq

/-- `Display`. -/
def NoiseError.toMessage : NoiseError → String
  | .payloadTooLarge => "payload exceeds Noise message size limit"
  | .exhausted => "snow: state error: Exhausted"

/-- A ciphertext is known by its nonce and what it seals. -/
structure Ciphertext where
  nonce : Nat
  frame : FrameBody

/-- One direction of a session. -/
structure NoiseSession where
  sendNonce : Nat := 0

/-- Plaintexts that fit one message. -/
def fitsNoise (frame : FrameBody) : Prop := (encodeFrame ⟨frame⟩).length + noiseTagLen ≤ noiseMaxMsgLen

instance (frame : FrameBody) : Decidable (fitsNoise frame) := inferInstanceAs (Decidable (_ ≤ _))

/-- `encrypt`, of an encoded frame. -/
def NoiseSession.encrypt (s : NoiseSession) (frame : FrameBody) : Except NoiseError (NoiseSession × Ciphertext) :=
  if noiseMaxMsgLen < (encodeFrame ⟨frame⟩).length + noiseTagLen then .error .payloadTooLarge
  else if s.sendNonce = u64Max then .error .exhausted
  else .ok ({ sendNonce := s.sendNonce + 1 }, { nonce := s.sendNonce, frame })

theorem NoiseSession.encrypt_eq_ok {s t : NoiseSession} {frame : FrameBody} {c : Ciphertext} :
    s.encrypt frame = .ok (t, c) ↔ fitsNoise frame ∧ s.sendNonce ≠ u64Max ∧
      t = { sendNonce := s.sendNonce + 1 } ∧ c = { nonce := s.sendNonce, frame } := by
  unfold encrypt fitsNoise
  split_ifs with hlarge hnonce
  · simp [Nat.not_le.mpr hlarge]
  · simp [hnonce]
  · simp only [Except.ok.injEq, Prod.mk.injEq, hnonce, Nat.not_lt.mp hlarge, ne_eq, not_false_eq_true, true_and]
    constructor
    · rintro ⟨ht, hc⟩
      exact ⟨ht.symm, hc.symm⟩
    · rintro ⟨rfl, rfl⟩
      exact ⟨rfl, rfl⟩

/-- **The size limit.** -/
theorem NoiseSession.encrypt_eq_payloadTooLarge {s : NoiseSession} {frame : FrameBody} :
    s.encrypt frame = .error .payloadTooLarge ↔ ¬fitsNoise frame := by
  unfold encrypt fitsNoise
  split_ifs with hlarge hnonce
  · simp [hlarge]
  · simp [Nat.not_lt.mp hlarge]
  · simp [Nat.not_lt.mp hlarge]

end CliPocket
