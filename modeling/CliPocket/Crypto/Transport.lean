import CliPocket.Crypto.Noise
import CliPocket.Lib.BigEndian
import CliPocket.Proto.Decode

/-!
# Noise messages

The transport mode on bytes. What a session seals and opens in one direction is a `Cipher`; the nonces are counted on
both sides.

- `Cipher.Authentic`: nothing the network brings has been forged;
- `TransportState.encrypt`, `TransportState.decrypt`, `TransportState.sendFrame`, `TransportState.recvFrame`;
- `TransportState.recvFrame_authentic`: **what is received is the frame with the nonce that is due.**
-/

namespace CliPocket

open Postcard (ReadError)
open Saturating (u64Max)

/-! ## The cipher of one direction -/

/-- A message is opened with the nonce it has been sealed with, and nothing else is opened. -/
structure Cipher where
  encrypt : Nat → List UInt8 → List UInt8
  decrypt : Nat → List UInt8 → Option (List UInt8)
  length_encrypt : ∀ n plaintext, (encrypt n plaintext).length = plaintext.length + noiseTagLen
  decrypt_encrypt : ∀ n plaintext, decrypt n (encrypt n plaintext) = some plaintext
  encrypt_of_decrypt : ∀ {n ciphertext plaintext}, decrypt n ciphertext = some plaintext →
    ciphertext = encrypt n plaintext

namespace Cipher

/-- `bytes` have not been forged: a frame that they seal has been sealed with that nonce. -/
def Authentic (c : Cipher) (frames : List FrameBody) (bytes : List UInt8) : Prop :=
  ∀ n plaintext, n < u64Max → bytes = c.encrypt n plaintext →
    (frames.map fun frame => encodeFrame ⟨frame⟩)[n]? = some plaintext

/-- A tag that tells the nonce. -/
def sampleTag (n : Nat) : List UInt8 := BigEndian.toBe noiseTagLen n

def sampleDecrypt (n : Nat) (ciphertext : List UInt8) : Option (List UInt8) :=
  if ciphertext = ciphertext.take (ciphertext.length - noiseTagLen) ++ sampleTag n then
    some (ciphertext.take (ciphertext.length - noiseTagLen))
  else none

theorem length_sampleTag (n : Nat) : (sampleTag n).length = noiseTagLen := BigEndian.length_toBe _ n

theorem sampleDecrypt_encrypt (n : Nat) (plaintext : List UInt8) :
    sampleDecrypt n (plaintext ++ sampleTag n) = some plaintext := by
  have htake : (plaintext ++ sampleTag n).take ((plaintext ++ sampleTag n).length - noiseTagLen) = plaintext := by
    rw [List.length_append, length_sampleTag, Nat.add_sub_cancel, List.take_left]
  unfold sampleDecrypt
  rw [htake, if_pos rfl]

theorem encrypt_of_sampleDecrypt {n : Nat} {ciphertext plaintext : List UInt8}
    (h : sampleDecrypt n ciphertext = some plaintext) :
    ciphertext = plaintext ++ sampleTag n := by
  unfold sampleDecrypt at h
  split at h
  · next heq =>
    cases h
    exact heq
  · cases h

/-- The plaintext and a tag. -/
def sample : Cipher where
  encrypt n plaintext := plaintext ++ sampleTag n
  decrypt := sampleDecrypt
  length_encrypt n plaintext := by rw [List.length_append, length_sampleTag]
  decrypt_encrypt := sampleDecrypt_encrypt
  encrypt_of_decrypt := encrypt_of_sampleDecrypt

/-- What has been sealed is not forged. -/
theorem sample_authentic {frames : List FrameBody} {n : Nat} {frame : FrameBody} (hn : n < u64Max)
    (hframe : frames[n]? = some frame) : sample.Authentic frames (sample.encrypt n (encodeFrame ⟨frame⟩)) := by
  intro m plaintext hm heq
  obtain ⟨rfl, htag⟩ := List.append_inj' heq (by rw [length_sampleTag, length_sampleTag])
  have hnonce : n = m := by
    have hread := congrArg BigEndian.ofBe htag
    unfold sampleTag at hread
    rwa [BigEndian.ofBe_toBe (Nat.lt_trans hn (by decide)), BigEndian.ofBe_toBe (Nat.lt_trans hm (by decide))] at hread
  rw [← hnonce, List.getElem?_map, hframe]
  rfl

end Cipher

/-! ## Nonces -/

/-- The errors of `decrypt`. -/
inductive DecryptError
  | payloadTooLarge
  | exhausted
  | decrypt
  deriving DecidableEq

/-- The nonces of `snow`. -/
structure TransportState where
  sendNonce : Nat := 0
  receiveNonce : Nat := 0
  deriving DecidableEq

/-- The errors of `recv_frame`, the transport's apart. -/
inductive RecvError
  | crypto (error : DecryptError)
  | proto (error : ReadError)

namespace TransportState

variable (c : Cipher)

def encrypt (s : TransportState) (plaintext : List UInt8) : Except NoiseError (TransportState × List UInt8) :=
  if noiseMaxMsgLen < plaintext.length + noiseTagLen then .error .payloadTooLarge
  else if s.sendNonce = u64Max then .error .exhausted
  else .ok ({ s with sendNonce := s.sendNonce + 1 }, c.encrypt s.sendNonce plaintext)

def decrypt (s : TransportState) (ciphertext : List UInt8) : Except DecryptError (TransportState × List UInt8) :=
  if noiseMaxMsgLen < ciphertext.length then .error .payloadTooLarge
  else if ciphertext.length < noiseTagLen then .error .decrypt
  else if u64Max ≤ s.receiveNonce then .error .exhausted
  else
    match c.decrypt s.receiveNonce ciphertext with
    | none => .error .decrypt
    | some plaintext => .ok ({ s with receiveNonce := s.receiveNonce + 1 }, plaintext)

/-- `send_frame` and `send_encrypted`, up to the transport. -/
def sendFrame (s : TransportState) (frame : Frame) : Except NoiseError (TransportState × List UInt8) :=
  s.encrypt c (encodeFrame frame)

/-- `recv_frame` and `recv_encrypted`, from the transport on. -/
def recvFrame (s : TransportState) (ciphertext : List UInt8) : Except RecvError (TransportState × Frame) := do
  let (s, plaintext) ← (s.decrypt c ciphertext).mapError .crypto
  let frame ← (decodeFrame plaintext).mapError .proto
  .ok (s, frame)

variable {c} {s t : TransportState} {ciphertext plaintext : List UInt8} {frame : FrameBody}

theorem sendFrame_eq_ok : s.sendFrame c ⟨frame⟩ = .ok (t, ciphertext) ↔ fitsNoise frame ∧ s.sendNonce ≠ u64Max ∧
    t = { s with sendNonce := s.sendNonce + 1 } ∧ ciphertext = c.encrypt s.sendNonce (encodeFrame ⟨frame⟩) := by
  unfold sendFrame encrypt fitsNoise
  split_ifs with hlarge hnonce
  · simp [Nat.not_le.mpr hlarge]
  · simp [hnonce]
  · simp only [Except.ok.injEq, Prod.mk.injEq, hnonce, Nat.not_lt.mp hlarge, ne_eq, not_false_eq_true, true_and]
    exact and_congr eq_comm eq_comm

/-- The session of symbols counts the same nonces. -/
theorem sendFrame_counts : (∃ t ciphertext, s.sendFrame c ⟨frame⟩ = .ok (t, ciphertext)) ↔
    ∃ t ciphertext, ({ sendNonce := s.sendNonce } : NoiseSession).encrypt frame = .ok (t, ciphertext) := by
  constructor
  · rintro ⟨t, ciphertext, h⟩
    obtain ⟨hfits, hnonce, _, _⟩ := sendFrame_eq_ok.mp h
    exact ⟨_, _, NoiseSession.encrypt_eq_ok.mpr ⟨hfits, hnonce, rfl, rfl⟩⟩
  · rintro ⟨t, ciphertext, h⟩
    obtain ⟨hfits, hnonce, _, _⟩ := NoiseSession.encrypt_eq_ok.mp h
    exact ⟨_, _, sendFrame_eq_ok.mpr ⟨hfits, hnonce, rfl, rfl⟩⟩

theorem decrypt_eq_ok (h : s.decrypt c ciphertext = .ok (t, plaintext)) :
    s.receiveNonce < u64Max ∧ c.decrypt s.receiveNonce ciphertext = some plaintext ∧
      t = { s with receiveNonce := s.receiveNonce + 1 } := by
  unfold decrypt at h
  split at h
  · cases h
  · split at h
    · cases h
    · split at h
      · cases h
      · next hnonce =>
        split at h
        · cases h
        · next heq =>
          cases h
          exact ⟨Nat.not_le.mp hnonce, heq, rfl⟩

/-- **The frame that has been sealed with the nonce that is due.** -/
theorem recvFrame_authentic {frames : List FrameBody} {received : Frame} (hframes : ∀ frame ∈ frames, frame.Typed)
    (hauthentic : c.Authentic frames ciphertext) (h : s.recvFrame c ciphertext = .ok (t, received)) :
    frames[s.receiveNonce]? = some received.body ∧ t = { s with receiveNonce := s.receiveNonce + 1 } := by
  unfold recvFrame at h
  obtain ⟨⟨u, plaintext⟩, hdecrypt, h⟩ := Wire.bind_eq_ok.mp h
  obtain ⟨frame, hdecode, h⟩ := Wire.bind_eq_ok.mp h
  cases h
  obtain ⟨hnonce, hplaintext, hu⟩ := decrypt_eq_ok (Wire.mapError_eq_ok.mp hdecrypt)
  have hsealed := hauthentic _ _ hnonce (c.encrypt_of_decrypt hplaintext)
  rw [List.getElem?_map, Option.map_eq_some_iff] at hsealed
  obtain ⟨sent, hsent, hencode⟩ := hsealed
  have hbytes := decodeFrame_typed (hframes sent (List.mem_of_getElem? hsent))
  rw [hencode, Wire.mapError_eq_ok.mp hdecode] at hbytes
  cases hbytes
  exact ⟨hsent, hu⟩

end TransportState

end CliPocket
