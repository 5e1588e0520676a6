import CliPocket.Lib.Sha256
import CliPocket.Proto.Terminal

/-!
# Resume tokens

A token is a body of fixed fields and the first bytes of its MAC.

- `verify_eq_ok`: **which bytes are accepted**, and what is read from them;
- `verify_mint`: what a minted token says, at every time;
- `resume_tokens_round_trip_iff`: **exactly when a minted token is good until its expiry**.
-/

namespace CliPocket

open BigEndian

def resumeVersion : UInt8 := 1

def resumeTagLen : Nat := 16

/-- Version, client id, terminal id, `issued_ms` and `expiry_ms`. -/
def resumeBodyLen : Nat := 1 + 16 + 16 + 8 + 8

def resumeTokenLen : Nat := resumeBodyLen + resumeTagLen

structure ResumeTokenSecret where
  bytes : List UInt8
  length_eq : bytes.length = 32

/-- The MAC of a body under a secret. -/
structure ResumeMac where
  tag : ResumeTokenSecret → List UInt8 → List UInt8
  length_tag : ∀ secret body, (tag secret body).length = 32

/-- `HmacSha256`. -/
def hmacSha256 : ResumeMac where
  tag secret body := Sha256.hmac secret.bytes body
  length_tag secret body := Sha256.length_hmac secret.bytes body

structure VerifiedResume where
  clientId : ClientId
  terminalId : TerminalId
  issuedMs : UInt64
  expiryMs : UInt64
  deriving DecidableEq

inductive ResumeError
  | malformed
  | badVersion
  | expired
  | badTag
  deriving DecidableEq

/-- `Display`. -/
def ResumeError.toMessage : ResumeError → String
  | .malformed => "malformed token"
  | .badVersion => "bad version"
  | .expired => "token expired"
  | .badTag => "bad tag"

/-- With which checks the daemon has been built. -/
inductive BuildProfile
  | dev
  | release
  deriving DecidableEq

/-- `a + b`: where it does not fit, a `dev` build panics and a `release` build wraps. -/
def BuildProfile.addU64 (profile : BuildProfile) (a b : UInt64) : Option UInt64 :=
  if 2 ^ 64 ≤ a.toNat + b.toNat ∧ profile = .dev then none else some (a + b)

/-- `to_be_bytes`. -/
def toBeBytes (n : UInt64) : List UInt8 := toBe 8 n.toNat

/-- `from_be_bytes`. -/
def fromBeBytes (bytes : List UInt8) : UInt64 := UInt64.ofNat (ofBe bytes)

namespace ResumeTokenSecret

variable (mac : ResumeMac) (secret : ResumeTokenSecret)

/-- The body of a token. -/
def body (client : ClientId) (terminal : TerminalId) (issuedMs expiryMs : UInt64) : List UInt8 :=
  [resumeVersion] ++ (client.uuid.bytes ++ (terminal.uuid.bytes ++ (toBeBytes issuedMs ++ toBeBytes expiryMs)))

/-- The first bytes of the MAC. -/
def tag (body : List UInt8) : List UInt8 := (mac.tag secret body).take resumeTagLen

def mint (profile : BuildProfile) (client : ClientId) (terminal : TerminalId) (nowMs ttlMs : UInt64) :
    Option (List UInt8) := do
  let expiryMs ← profile.addU64 nowMs ttlMs
  let body := body client terminal nowMs expiryMs
  some (body ++ secret.tag mac body)

theorem length_slice {bytes : List UInt8} {len : Nat} (h : bytes.length = len) (i k : Nat) (hik : i + k ≤ len) :
    ((bytes.drop i).take k).length = k := by
  rw [List.length_take, List.length_drop]
  omega

/-- What the fields of a body say. -/
def fields (body : List UInt8) (h : body.length = resumeBodyLen) : VerifiedResume where
  clientId := ⟨⟨(body.drop 1).take 16, length_slice h 1 16 (by decide)⟩⟩
  terminalId := ⟨⟨(body.drop 17).take 16, length_slice h 17 16 (by decide)⟩⟩
  issuedMs := fromBeBytes ((body.drop 33).take 8)
  expiryMs := fromBeBytes ((body.drop 41).take 8)

theorem length_body_of {token : List UInt8} (h : token.length = resumeTokenLen) :
    (token.take resumeBodyLen).length = resumeBodyLen := by
  rw [List.length_take, h]
  decide

def verify (token : List UInt8) (nowMs : UInt64) : Except ResumeError VerifiedResume :=
  if h : token.length = resumeTokenLen then
    let body := token.take resumeBodyLen
    let resume := fields body (length_body_of h)
    if body.head? ≠ some resumeVersion then .error .badVersion
    else if secret.tag mac body ≠ token.drop resumeBodyLen then .error .badTag
    else if resume.expiryMs ≤ nowMs then .error .expired
    else .ok resume
  else .error .malformed

/-! ## What is accepted -/

variable {mac secret} {client : ClientId} {terminal : TerminalId} {issuedMs expiryMs : UInt64}

@[simp] theorem length_toBeBytes (n : UInt64) : (toBeBytes n).length = 8 := length_toBe 8 n.toNat

theorem fromBeBytes_toBeBytes (n : UInt64) : fromBeBytes (toBeBytes n) = n := by
  unfold fromBeBytes toBeBytes
  rw [ofBe_toBe n.toNat_lt, UInt64.ofNat_toNat]

theorem length_tag (body : List UInt8) : (secret.tag mac body).length = resumeTagLen := by
  unfold tag
  rw [List.length_take, mac.length_tag]
  decide

@[simp] theorem length_body : (body client terminal issuedMs expiryMs).length = resumeBodyLen := by
  unfold body
  simp only [List.length_append, client.uuid.length_eq, terminal.uuid.length_eq, length_toBeBytes]
  decide

/-- The fields of a body are what it was made of. -/
theorem fields_body (h : (body client terminal issuedMs expiryMs).length = resumeBodyLen) :
    fields (body client terminal issuedMs expiryMs) h =
      { clientId := client, terminalId := terminal, issuedMs, expiryMs } := by
  have hclient : ((body client terminal issuedMs expiryMs).drop 1).take 16 = client.uuid.bytes :=
    slice_append rfl client.uuid.length_eq
  have hterminal : ((body client terminal issuedMs expiryMs).drop 17).take 16 = terminal.uuid.bytes := by
    unfold body
    rw [← List.append_assoc]
    exact slice_append (by simp [client.uuid.length_eq]) terminal.uuid.length_eq
  have hissued : ((body client terminal issuedMs expiryMs).drop 33).take 8 = toBeBytes issuedMs := by
    unfold body
    rw [← List.append_assoc, ← List.append_assoc]
    exact slice_append (by simp [client.uuid.length_eq, terminal.uuid.length_eq]) (length_toBeBytes _)
  have hexpiry : ((body client terminal issuedMs expiryMs).drop 41).take 8 = toBeBytes expiryMs := by
    unfold body
    rw [← List.append_assoc, ← List.append_assoc, ← List.append_assoc]
    rw [List.drop_left' (by simp [client.uuid.length_eq, terminal.uuid.length_eq])]
    exact List.take_of_length_le (length_toBeBytes _).le
  unfold fields
  simp only [hclient, hterminal, hissued, hexpiry, fromBeBytes_toBeBytes]

/-- **Which bytes are accepted.** -/
theorem verify_eq_ok {token : List UInt8} {nowMs : UInt64} {resume : VerifiedResume} :
    secret.verify mac token nowMs = .ok resume ↔ ∃ body : List UInt8, ∃ h : body.length = resumeBodyLen,
      body.head? = some resumeVersion ∧ token = body ++ secret.tag mac body ∧ fields body h = resume ∧
        nowMs < resume.expiryMs := by
  constructor
  · intro hverify
    unfold verify at hverify
    simp only at hverify
    split_ifs at hverify with hlen hversion htag hexpired
    rw [not_not] at hversion htag
    have hresume := Except.ok.inj hverify
    refine ⟨token.take resumeBodyLen, length_body_of hlen, hversion, ?_, hresume, ?_⟩
    · rw [htag, List.take_append_drop]
    · rw [← hresume]
      exact UInt64.not_le.mp hexpired
  · rintro ⟨body, hbody, hversion, rfl, rfl, hexpiry⟩
    have hlen : (body ++ secret.tag mac body).length = resumeTokenLen := by
      rw [List.length_append, hbody, length_tag]
      rfl
    have htake : (body ++ secret.tag mac body).take resumeBodyLen = body := List.take_left' hbody
    have hdrop : (body ++ secret.tag mac body).drop resumeBodyLen = secret.tag mac body := List.drop_left' hbody
    unfold verify
    rw [dif_pos hlen]
    simp only [htake, hdrop]
    rw [if_neg (not_not.mpr hversion), if_neg (not_not.mpr rfl), if_neg (UInt64.not_le.mpr hexpiry)]

/-! ## What is minted -/

/-- A token with the right tag says what its body was made of. -/
theorem verify_sealed {nowMs : UInt64} {resume : VerifiedResume} :
    secret.verify mac
      (body client terminal issuedMs expiryMs ++ secret.tag mac (body client terminal issuedMs expiryMs))
      nowMs = .ok resume ↔
        resume = { clientId := client, terminalId := terminal, issuedMs, expiryMs } ∧ nowMs < expiryMs := by
  rw [verify_eq_ok]
  constructor
  · rintro ⟨body', hlen, _, heq, hfields, hexpiry⟩
    obtain ⟨rfl, _⟩ := List.append_inj heq (by rw [hlen, length_body])
    rw [fields_body] at hfields
    subst hfields
    exact ⟨rfl, hexpiry⟩
  · rintro ⟨rfl, hexpiry⟩
    exact ⟨_, length_body, rfl, rfl, fields_body _, hexpiry⟩

theorem mint_eq_some {profile : BuildProfile} {nowMs ttlMs : UInt64} {token : List UInt8} :
    secret.mint mac profile client terminal nowMs ttlMs = some token ↔
      (nowMs.toNat + ttlMs.toNat < 2 ^ 64 ∨ profile = .release) ∧
        token = body client terminal nowMs (nowMs + ttlMs) ++
          secret.tag mac (body client terminal nowMs (nowMs + ttlMs)) := by
  unfold mint BuildProfile.addU64
  split_ifs with hpanics
  · constructor
    · intro h
      cases h
    · rintro ⟨hfits | hprofile, _⟩
      · omega
      · rw [hprofile] at hpanics
        cases hpanics.2
  · have hmints : nowMs.toNat + ttlMs.toNat < 2 ^ 64 ∨ profile = .release := by
      cases profile with
      | release => exact .inr rfl
      | dev => exact .inl (by simpa using hpanics)
    constructor
    · intro h
      exact ⟨hmints, (Option.some.inj h).symm⟩
    · rintro ⟨_, rfl⟩
      rfl

variable (mac secret)

/-- A minted token is good until `now + ttl`, and says what it was minted for. -/
def RoundTrips (profile : BuildProfile) (client : ClientId) (terminal : TerminalId) (nowMs ttlMs : UInt64) : Prop :=
  ∃ token, secret.mint mac profile client terminal nowMs ttlMs = some token ∧
    ∀ n : UInt64, (∃ resume, secret.verify mac token n = .ok resume ∧ resume.clientId = client ∧
      resume.terminalId = terminal ∧ resume.issuedMs = nowMs ∧ resume.expiryMs.toNat = nowMs.toNat + ttlMs.toNat) ↔
        n.toNat < nowMs.toNat + ttlMs.toNat

/-- Nothing is accepted but a body of the version and the first bytes of its MAC. -/
def Genuine : Prop :=
  ∀ (token : List UInt8) (n : UInt64) (resume : VerifiedResume), secret.verify mac token n = .ok resume →
    ∃ body : List UInt8, body.length = 49 ∧ body.head? = some 1 ∧ token = body ++ (mac.tag secret body).take 16

variable {mac secret}

theorem genuine : Genuine mac secret := by
  intro token n resume h
  obtain ⟨body, hlen, hversion, htoken, _⟩ := verify_eq_ok.mp h
  exact ⟨body, hlen, hversion, htoken⟩

/-- No field can say an expiry that does not fit: the token would have to be good at the start of time. -/
theorem fits_of_roundTrips {profile : BuildProfile} {nowMs ttlMs : UInt64}
    (h : RoundTrips mac secret profile client terminal nowMs ttlMs) : nowMs.toNat + ttlMs.toNat < 2 ^ 64 := by
  obtain ⟨token, _, hverify⟩ := h
  by_contra hlarge
  have hzero : (0 : UInt64).toNat = 0 := rfl
  obtain ⟨resume, _, _, _, _, hexpiry⟩ := (hverify 0).mpr (by omega)
  have := resume.expiryMs.toNat_lt
  omega

/-- **A minted token is good until its expiry exactly when that fits**, and nothing is accepted but what is genuine. -/
theorem resume_tokens_round_trip_iff (mac : ResumeMac) (secret : ResumeTokenSecret) (profile : BuildProfile)
    (client : ClientId) (terminal : TerminalId) (nowMs ttlMs : UInt64) :
    (RoundTrips mac secret profile client terminal nowMs ttlMs ∧ Genuine mac secret) ↔
      nowMs.toNat + ttlMs.toNat < 2 ^ 64 := by
  constructor
  · rintro ⟨h, _⟩
    exact fits_of_roundTrips h
  · intro hfits
    refine ⟨⟨_, mint_eq_some.mpr ⟨.inl hfits, rfl⟩, fun n => ?_⟩, genuine⟩
    have hadd : (nowMs + ttlMs).toNat = nowMs.toNat + ttlMs.toNat := by
      rw [UInt64.toNat_add, Nat.mod_eq_of_lt hfits]
    constructor
    · rintro ⟨resume, hresume, _⟩
      obtain ⟨rfl, hlt⟩ := verify_sealed.mp hresume
      rw [← hadd]
      exact UInt64.lt_iff_toNat_lt.mp hlt
    · intro hlt
      rw [← hadd] at hlt
      exact ⟨_, verify_sealed.mpr ⟨rfl, UInt64.lt_iff_toNat_lt.mpr hlt⟩, rfl, rfl, rfl, hadd⟩

theorem length_splat (b : UInt8) : (List.replicate 32 b).length = 32 := List.length_replicate

/-- The secret whose bytes are all `b`. -/
def splat (b : UInt8) : ResumeTokenSecret := ⟨List.replicate 32 b, length_splat b⟩

/-- A token for a minute: it is good in its last millisecond, and no longer. -/
theorem resume_tokens_round_trip_sample :
    (RoundTrips hmacSha256 (splat 7) .dev ⟨.splat 1⟩ ⟨.splat 2⟩ 1000 60000 ∧ Genuine hmacSha256 (splat 7)) ∧
      ∃ token, (splat 7).mint hmacSha256 .dev ⟨.splat 1⟩ ⟨.splat 2⟩ 1000 60000 = some token ∧
        (splat 7).verify hmacSha256 token 60999 = .ok ⟨⟨.splat 1⟩, ⟨.splat 2⟩, 1000, 61000⟩ ∧
          (splat 7).verify hmacSha256 token 61000 = .error .expired :=
  ⟨(resume_tokens_round_trip_iff hmacSha256 (splat 7) .dev ⟨.splat 1⟩ ⟨.splat 2⟩ 1000 60000).mpr (by decide),
    _, rfl, verify_sealed.mpr ⟨rfl, by decide⟩, by decide +kernel⟩

/-- The largest time to live, one millisecond after the epoch: a `dev` build panics, and a `release` build mints a token
whose expiry is the epoch. -/
theorem late_expiry_overflows :
    (∀ profile, ¬RoundTrips hmacSha256 (splat 7) profile ⟨.splat 1⟩ ⟨.splat 2⟩ 1 18446744073709551615) ∧
      (splat 7).mint hmacSha256 .dev ⟨.splat 1⟩ ⟨.splat 2⟩ 1 18446744073709551615 = none ∧
        ∃ token, (splat 7).mint hmacSha256 .release ⟨.splat 1⟩ ⟨.splat 2⟩ 1 18446744073709551615 = some token ∧
          ∀ n resume, (splat 7).verify hmacSha256 token n ≠ .ok resume := by
  refine ⟨fun profile h => ?_, rfl, _, rfl, ?_⟩
  · exact absurd (fits_of_roundTrips h) (by decide)
  · intro n resume hverify
    obtain ⟨_, hlt⟩ := verify_sealed.mp hverify
    exact absurd hlt (UInt64.not_lt.mpr (UInt64.le_iff_toNat_le.mpr (Nat.zero_le _)))

end ResumeTokenSecret

end CliPocket
