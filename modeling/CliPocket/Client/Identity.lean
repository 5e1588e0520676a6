import CliPocket.Client.Session
import CliPocket.Lib.Wire
import Mathlib.Logic.Function.Basic

/-!
# The identity of a client

`load_or_create` and `import_serialized` over a store of keys and values whose puts can fail: the key pair is put first,
the client id second, and a reader takes the first for the proof of the second.

- `Kv.loadStored_eq_some`: what a store has to hold for an identity to be read from it;
- `all_or_nothing_iff`: **exactly when a later load gets the old identity or the new one**.
-/

namespace CliPocket

@[ext] structure KeyBytes where
  bytes : List UInt8
  length_eq : bytes.length = 32

theorem KeyBytes.bytes_inj (k k' : KeyBytes) : k.bytes = k'.bytes ↔ k = k' := KeyBytes.ext_iff.symm

instance : DecidableEq KeyBytes := fun k k' => decidable_of_iff (k.bytes = k'.bytes) (KeyBytes.bytes_inj k k')

theorem KeyBytes.length_splat (b : UInt8) : (List.replicate 32 b).length = 32 := List.length_replicate

/-- The key whose bytes are all `b`. -/
def KeyBytes.splat (b : UInt8) : KeyBytes := ⟨List.replicate 32 b, KeyBytes.length_splat b⟩

structure KeyPair where
  publicKey : KeyBytes
  secret : KeyBytes
  deriving DecidableEq

structure ClientIdentity where
  clientId : ClientId
  keypair : KeyPair
  deriving DecidableEq

theorem ClientIdentity.clientId_with (identity : ClientIdentity) (keypair : KeyPair) :
    { identity with keypair }.clientId = identity.clientId := rfl

structure StoredKeyPair where
  version : UInt32
  publicKey : KeyBytes
  privateKey : KeyBytes
  deriving DecidableEq

structure ExportedIdentity where
  version : UInt32
  clientId : ClientId
  keypair : StoredKeyPair
  deriving DecidableEq

def keypairKey : String := "cli-pocket/identity/v1/keypair"

def clientIdKey : String := "cli-pocket/identity/v1/client-id"

def exportVersion : UInt32 := 1

/-- JSON of what is stored, and the public keys of Curve25519. -/
structure IdentityCodec where
  publicOf : KeyBytes → KeyBytes
  encodeKeypair : StoredKeyPair → List UInt8
  decodeKeypair : List UInt8 → Except String StoredKeyPair
  encodeClientId : ClientId → List UInt8
  decodeClientId : List UInt8 → Except String ClientId
  decodeExport : List UInt8 → Except String ExportedIdentity
  decode_encodeKeypair : ∀ keypair, decodeKeypair (encodeKeypair keypair) = .ok keypair
  decode_encodeClientId : ∀ clientId, decodeClientId (encodeClientId clientId) = .ok clientId

/-- The entries of a `KeyValueStore`. -/
abbrev Kv := String → Option (List UInt8)

def Kv.put (kv : Kv) (key : String) (value : List UInt8) : Kv := Function.update kv key (some value)

/-- What `load_or_create` draws when it creates. -/
structure IdentityDraws where
  privateKey : KeyBytes
  idBytes : Uuid

/-- `Builder::from_random_bytes`: version 4 of the variant of RFC 4122. -/
def Uuid.fromRandomBytes (u : Uuid) : Uuid where
  bytes := (u.bytes.set 6 ((u.bytes.getD 6 0 &&& 0x0f) ||| 0x40)).set 8 ((u.bytes.getD 8 0 &&& 0x3f) ||| 0x80)
  length_eq := by rw [List.length_set, List.length_set, u.length_eq]

/-- How the two puts of `persist` end. -/
structure IdentityPuts where
  keypair : Except ClientError Unit := .ok ()
  clientId : Except ClientError Unit := .ok ()

namespace IdentityCodec

variable (codec : IdentityCodec)

def keypairFromPrivate (privateKey : KeyBytes) : KeyPair :=
  { publicKey := codec.publicOf privateKey, secret := privateKey }

/-- `StoredKeyPair::from_keypair`. -/
def fromKeypair (keypair : KeyPair) : StoredKeyPair :=
  { version := exportVersion, publicKey := keypair.publicKey, privateKey := keypair.secret }

def intoKeypair (stored : StoredKeyPair) : Except ClientError KeyPair :=
  if stored.version ≠ exportVersion then .error (.identity ("unknown keypair version " ++ toString stored.version))
  else if codec.publicOf stored.privateKey ≠ stored.publicKey then
    .error (.identity "public key does not match private key")
  else .ok (codec.keypairFromPrivate stored.privateKey)

def decodeStoredKeypair (bytes : List UInt8) : Except ClientError StoredKeyPair :=
  (codec.decodeKeypair bytes).mapError .identity

def decodeStoredClientId (bytes : List UInt8) : Except ClientError ClientId :=
  (codec.decodeClientId bytes).mapError .identity

/-- The head of `load_or_create`: the identity in the store, if there is a key pair. -/
def loadStored (kv : Kv) : Except ClientError (Option ClientIdentity) :=
  match kv keypairKey with
  | none => .ok none
  | some bytes => do
    let stored ← codec.decodeStoredKeypair bytes
    let keypair ← codec.intoKeypair stored
    match kv clientIdKey with
    | none => .error (.identity "missing client-id")
    | some bytes => do
      let clientId ← codec.decodeStoredClientId bytes
      .ok (some { clientId, keypair })

def create (draws : IdentityDraws) : ClientIdentity :=
  { clientId := ⟨draws.idBytes.fromRandomBytes⟩, keypair := codec.keypairFromPrivate draws.privateKey }

/-- What has been put stays, also when the second put fails. -/
def persist (kv : Kv) (identity : ClientIdentity) (puts : IdentityPuts) : Kv × Except ClientError Unit :=
  match puts.keypair with
  | .error e => (kv, .error e)
  | .ok () =>
    let kv := kv.put keypairKey (codec.encodeKeypair (fromKeypair identity.keypair))
    match puts.clientId with
    | .error e => (kv, .error e)
    | .ok () => (kv.put clientIdKey (codec.encodeClientId identity.clientId), .ok ())

def loadOrCreate (kv : Kv) (draws : IdentityDraws) (puts : IdentityPuts) : Kv × Except ClientError ClientIdentity :=
  match codec.loadStored kv with
  | .error e => (kv, .error e)
  | .ok (some identity) => (kv, .ok identity)
  | .ok none =>
    match codec.persist kv (codec.create draws) puts with
    | (kv, .error e) => (kv, .error e)
    | (kv, .ok ()) => (kv, .ok (codec.create draws))

/-- What `import_serialized` reads from its bytes. -/
def readExport (bytes : List UInt8) : Except ClientError ClientIdentity := do
  let exported ← (codec.decodeExport bytes).mapError .identity
  if exported.version ≠ exportVersion then
    .error (.identity ("unknown identity export version " ++ toString exported.version))
  else do
    let keypair ← codec.intoKeypair exported.keypair
    .ok { clientId := exported.clientId, keypair }

def importSerialized (kv : Kv) (bytes : List UInt8) (puts : IdentityPuts) : Kv × Except ClientError Unit :=
  match codec.readExport bytes with
  | .error e => (kv, .error e)
  | .ok identity => codec.persist kv identity puts

end IdentityCodec

/-! ## What has to hold -/

inductive IdentityCall
  | loadOrCreate (draws : IdentityDraws)
  | importSerialized (bytes : List UInt8)

namespace IdentityCodec

variable (codec : IdentityCodec)

/-- The store behind a call. -/
def after (kv : Kv) (call : IdentityCall) (puts : IdentityPuts) : Kv :=
  match call with
  | .loadOrCreate draws => (codec.loadOrCreate kv draws puts).1
  | .importSerialized bytes => (codec.importSerialized kv bytes puts).1

/-- The identity that a call is to store. -/
def newIdentity (kv : Kv) : IdentityCall → Option ClientIdentity
  | .loadOrCreate draws => if kv keypairKey = none then some (codec.create draws) else none
  | .importSerialized bytes => (codec.readExport bytes).toOption

/-- A later load gets what it would have got before the call, or the identity of the call. -/
def AllOrNothing (kv : Kv) (call : IdentityCall) (puts : IdentityPuts) : Prop :=
  ∀ draws, ∃ identity, (codec.loadOrCreate (codec.after kv call puts) draws {}).2 = .ok identity ∧
    ((codec.loadOrCreate kv draws {}).2 = .ok identity ∨ codec.newIdentity kv call = some identity)

/-- The entry of the client id says an id. -/
def HoldsId (kv : Kv) (clientId : ClientId) : Prop :=
  ∃ bytes, kv clientIdKey = some bytes ∧ codec.decodeClientId bytes = .ok clientId

/-- Both entries say an identity. -/
def Holds (kv : Kv) (identity : ClientIdentity) : Prop :=
  (∃ bytes, kv keypairKey = some bytes ∧ codec.decodeKeypair bytes = .ok (fromKeypair identity.keypair)) ∧
    codec.publicOf identity.keypair.secret = identity.keypair.publicKey ∧ codec.HoldsId kv identity.clientId

/-- A store with no key pair, or with an identity. -/
def WellFormed (kv : Kv) : Prop := kv keypairKey = none ∨ ∃ identity, codec.Holds kv identity

/-- The second put does not fail behind the first one, unless it had nothing to change; and a store that is left as it
is has been well formed. -/
def Whole (kv : Kv) (call : IdentityCall) (puts : IdentityPuts) : Prop :=
  match codec.newIdentity kv call, puts.keypair, puts.clientId with
  | some _, .ok (), .ok () => True
  | some new, .ok (), .error _ => codec.HoldsId kv new.clientId ∨ ∃ clientId, codec.Holds kv { new with clientId }
  | _, _, _ => codec.WellFormed kv

/-! ## Reading a store -/

variable {codec} {kv : Kv} {call : IdentityCall} {puts : IdentityPuts} {identity new : ClientIdentity}

theorem intoKeypair_eq_ok {stored : StoredKeyPair} {keypair : KeyPair} : codec.intoKeypair stored = .ok keypair ↔
    stored = fromKeypair keypair ∧ codec.publicOf keypair.secret = keypair.publicKey := by
  unfold intoKeypair
  split_ifs with hversion hpublic
  · constructor
    · intro h
      cases h
    · rintro ⟨rfl, _⟩
      exact absurd rfl hversion
  · constructor
    · intro h
      cases h
    · rintro ⟨rfl, h⟩
      exact absurd h hpublic
  · rw [not_not] at hversion hpublic
    constructor
    · intro h
      cases h
      refine ⟨?_, rfl⟩
      obtain ⟨version, publicKey, privateKey⟩ := stored
      rw [show version = exportVersion from hversion, show publicKey = codec.publicOf privateKey from hpublic.symm]
      rfl
    · rintro ⟨rfl, h⟩
      show Except.ok (codec.keypairFromPrivate keypair.secret) = _
      unfold keypairFromPrivate
      rw [h]

theorem loadStored_eq_none : codec.loadStored kv = .ok none ↔ kv keypairKey = none := by
  unfold loadStored
  cases kv keypairKey with
  | none => exact iff_of_true rfl rfl
  | some bytes =>
    constructor
    · intro h
      obtain ⟨_, _, h⟩ := Wire.bind_eq_ok.mp h
      obtain ⟨_, _, h⟩ := Wire.bind_eq_ok.mp h
      split at h
      · cases h
      · obtain ⟨_, _, h⟩ := Wire.bind_eq_ok.mp h
        cases h
    · intro h
      cases h

/-- **What a store has to hold for an identity to be read from it.** -/
theorem loadStored_eq_some : codec.loadStored kv = .ok (some identity) ↔ codec.Holds kv identity := by
  unfold loadStored Holds HoldsId
  cases hkeypair : kv keypairKey with
  | none => simp
  | some bytes =>
    dsimp only
    constructor
    · intro h
      obtain ⟨stored, hstored, hrest⟩ := Wire.bind_eq_ok.mp h
      obtain ⟨keypair, hinto, hread⟩ := Wire.bind_eq_ok.mp hrest
      obtain ⟨rfl, hpublic⟩ := intoKeypair_eq_ok.mp hinto
      cases hid : kv clientIdKey with
      | none =>
        rw [hid] at hread
        cases hread
      | some idBytes =>
        rw [hid] at hread
        obtain ⟨clientId, hclientId, hidentity⟩ := Wire.bind_eq_ok.mp hread
        cases hidentity
        exact ⟨⟨bytes, rfl, Wire.mapError_eq_ok.mp hstored⟩, hpublic, idBytes, rfl, Wire.mapError_eq_ok.mp hclientId⟩
    · rintro ⟨⟨bytes', heq, hstored⟩, hpublic, idBytes, hid, hclientId⟩
      cases heq
      refine Wire.bind_eq_ok.mpr ⟨_, Wire.mapError_eq_ok.mpr hstored, Wire.bind_eq_ok.mpr
        ⟨identity.keypair, intoKeypair_eq_ok.mpr ⟨rfl, hpublic⟩, ?_⟩⟩
      rw [hid]
      exact Wire.bind_eq_ok.mpr ⟨_, Wire.mapError_eq_ok.mpr hclientId, rfl⟩

/-- **What a load gets**, when all its puts succeed. -/
theorem loadOrCreate_eq_ok {draws : IdentityDraws} : (codec.loadOrCreate kv draws {}).2 = .ok identity ↔
    codec.Holds kv identity ∨ kv keypairKey = none ∧ codec.create draws = identity := by
  rw [← loadStored_eq_some, ← @loadStored_eq_none codec]
  unfold loadOrCreate
  cases codec.loadStored kv with
  | error e => simp
  | ok stored =>
    cases stored with
    | none => simp [persist]
    | some identity => simp

/-! ## What a call leaves -/

theorem readExport_eq_ok {bytes : List UInt8} (h : codec.readExport bytes = .ok new) :
    codec.publicOf new.keypair.secret = new.keypair.publicKey := by
  obtain ⟨exported, _, h⟩ := Wire.bind_eq_ok.mp h
  split_ifs at h
  obtain ⟨keypair, hkeypair, h⟩ := Wire.bind_eq_ok.mp h
  cases h
  exact (intoKeypair_eq_ok.mp hkeypair).2

theorem newIdentity_of_readExport (kv : Kv) {bytes : List UInt8} (h : codec.readExport bytes = .ok new) :
    codec.newIdentity kv (.importSerialized bytes) = some new := by
  unfold newIdentity
  dsimp only
  rw [h]
  rfl

theorem publicOf_newIdentity (h : codec.newIdentity kv call = some new) :
    codec.publicOf new.keypair.secret = new.keypair.publicKey := by
  unfold newIdentity at h
  cases call with
  | loadOrCreate draws =>
    dsimp only at h
    split_ifs at h
    cases h
    rfl
  | importSerialized bytes =>
    dsimp only at h
    cases hread : codec.readExport bytes with
    | error e =>
      rw [hread] at h
      cases h
    | ok identity =>
      rw [hread] at h
      cases h
      exact readExport_eq_ok hread

theorem after_of_none (h : codec.newIdentity kv call = none) : codec.after kv call puts = kv := by
  unfold newIdentity at h
  unfold after
  cases call with
  | loadOrCreate draws =>
    dsimp only at h ⊢
    split_ifs at h with hkeypair
    unfold loadOrCreate
    cases hstored : codec.loadStored kv with
    | error e => rfl
    | ok stored =>
      cases stored with
      | none => exact absurd (loadStored_eq_none.mp hstored) hkeypair
      | some identity => rfl
  | importSerialized bytes =>
    dsimp only at h ⊢
    unfold importSerialized
    cases hread : codec.readExport bytes with
    | error e => rfl
    | ok identity =>
      rw [hread] at h
      cases h

theorem after_of_some (h : codec.newIdentity kv call = some new) :
    codec.after kv call puts = (codec.persist kv new puts).1 := by
  unfold newIdentity at h
  unfold after
  cases call with
  | loadOrCreate draws =>
    dsimp only at h ⊢
    split_ifs at h with hkeypair
    cases h
    unfold loadOrCreate
    rw [loadStored_eq_none.mpr hkeypair]
    rcases codec.persist kv (codec.create draws) puts with ⟨kv', result⟩
    cases result <;> rfl
  | importSerialized bytes =>
    dsimp only at h ⊢
    unfold importSerialized
    cases hread : codec.readExport bytes with
    | error e =>
      rw [hread] at h
      cases h
    | ok identity =>
      rw [hread] at h
      cases h
      rfl

/-- A store that is left as it is. -/
theorem allOrNothing_of_same (h : codec.after kv call puts = kv) :
    codec.AllOrNothing kv call puts ↔ codec.WellFormed kv := by
  unfold AllOrNothing
  rw [h]
  constructor
  · intro hall
    obtain ⟨identity, hload, _⟩ := hall ⟨.splat 0, .splat 0⟩
    rcases loadOrCreate_eq_ok.mp hload with hholds | ⟨hkeypair, _⟩
    · exact .inr ⟨identity, hholds⟩
    · exact .inl hkeypair
  · rintro (hkeypair | ⟨identity, hholds⟩) draws
    · have hload := loadOrCreate_eq_ok.mpr (.inr ⟨hkeypair, rfl⟩ : codec.Holds kv (codec.create draws) ∨ _)
      exact ⟨_, hload, .inl hload⟩
    · have hload := @loadOrCreate_eq_ok codec kv identity draws |>.mpr (.inl hholds)
      exact ⟨_, hload, .inl hload⟩

theorem keypairKey_ne_clientIdKey : keypairKey ≠ clientIdKey := by decide

/-- What a store holds whose key pair has been put. -/
theorem holds_put_keypair {keypair : KeyPair} (hpublic : codec.publicOf keypair.secret = keypair.publicKey) :
    codec.Holds (kv.put keypairKey (codec.encodeKeypair (fromKeypair keypair))) identity ↔
      identity.keypair = keypair ∧ codec.HoldsId kv identity.clientId := by
  unfold Holds HoldsId Kv.put
  rw [Function.update_self, Function.update_of_ne keypairKey_ne_clientIdKey.symm]
  constructor
  · rintro ⟨⟨bytes, heq, hdecode⟩, _, hid⟩
    cases heq
    rw [codec.decode_encodeKeypair] at hdecode
    refine ⟨?_, hid⟩
    have hsame := Except.ok.inj hdecode
    unfold fromKeypair at hsame
    simp only [StoredKeyPair.mk.injEq, true_and] at hsame
    obtain ⟨publicKey, secret⟩ := keypair
    obtain ⟨clientId, publicKey', secret'⟩ := identity
    rw [show publicKey = publicKey' from hsame.1, show secret = secret' from hsame.2]
  · rintro ⟨rfl, hid⟩
    exact ⟨⟨_, rfl, codec.decode_encodeKeypair _⟩, hpublic, hid⟩

/-- Both puts have succeeded. -/
theorem holds_persist (hpublic : codec.publicOf new.keypair.secret = new.keypair.publicKey) :
    codec.Holds (codec.persist kv new {}).1 new := by
  have hkeypair : codec.Holds
      ((kv.put clientIdKey (codec.encodeClientId new.clientId)).put keypairKey
        (codec.encodeKeypair (fromKeypair new.keypair))) new := by
    refine (holds_put_keypair hpublic).mpr ⟨rfl, _, ?_, codec.decode_encodeClientId _⟩
    exact Function.update_self ..
  have hcomm : (codec.persist kv new {}).1 = (kv.put clientIdKey (codec.encodeClientId new.clientId)).put keypairKey
      (codec.encodeKeypair (fromKeypair new.keypair)) := Function.update_comm keypairKey_ne_clientIdKey _ _ _
  rw [hcomm]
  exact hkeypair

/-- A key that is not `key`. -/
theorem exists_ne_key (key : KeyBytes) : ∃ other : KeyBytes, other ≠ key := by
  by_cases h : KeyBytes.splat 0 = key
  · refine ⟨.splat 1, ?_⟩
    rw [← h]
    decide
  · exact ⟨.splat 0, h⟩

/-- The second put has failed behind the first one. -/
theorem allOrNothing_of_halfway (hnew : codec.newIdentity kv call = some new)
    (hafter : codec.after kv call puts = kv.put keypairKey (codec.encodeKeypair (fromKeypair new.keypair))) :
    codec.AllOrNothing kv call puts ↔
      codec.HoldsId kv new.clientId ∨ ∃ clientId, codec.Holds kv { new with clientId } := by
  have hpublic := publicOf_newIdentity hnew
  have hload : ∀ {identity draws}, (codec.loadOrCreate (codec.after kv call puts) draws {}).2 = .ok identity ↔
      identity.keypair = new.keypair ∧ codec.HoldsId kv identity.clientId := by
    intro identity draws
    rw [loadOrCreate_eq_ok, hafter, holds_put_keypair hpublic]
    simp [Kv.put]
  constructor
  · intro hall
    obtain ⟨privateKey, hprivate⟩ := exists_ne_key new.keypair.secret
    obtain ⟨identity, hlater, hold | hsame⟩ := hall ⟨privateKey, .splat 0⟩
    · obtain ⟨hkeypair, _⟩ := hload.mp hlater
      rcases loadOrCreate_eq_ok.mp hold with hholds | ⟨_, hcreated⟩
      · refine .inr ⟨identity.clientId, ?_⟩
        rw [← hkeypair]
        exact hholds
      -- What the later call would create has a key of its own.
      · rw [← hcreated] at hkeypair
        exact absurd (congrArg KeyPair.secret hkeypair) hprivate
    · cases hnew.symm.trans hsame
      exact .inl (hload.mp hlater).2
  · rintro (hid | ⟨clientId, hholds⟩) draws
    · exact ⟨new, hload.mpr ⟨rfl, hid⟩, .inr hnew⟩
    · exact ⟨{ new with clientId }, hload.mpr ⟨rfl, hholds.2.2⟩, .inl (loadOrCreate_eq_ok.mpr (.inl hholds))⟩

/-- **A later load gets the old identity or the new one exactly when no put fails halfway.** -/
theorem all_or_nothing_iff (codec : IdentityCodec) (kv : Kv) (call : IdentityCall) (puts : IdentityPuts) :
    codec.AllOrNothing kv call puts ↔ codec.Whole kv call puts := by
  unfold Whole
  cases hnew : codec.newIdentity kv call with
  | none => exact allOrNothing_of_same (after_of_none hnew)
  | some new =>
    have hafter : codec.after kv call puts = (codec.persist kv new puts).1 := after_of_some hnew
    obtain ⟨first, second⟩ := puts
    cases first with
    | error e => exact allOrNothing_of_same hafter
    | ok =>
      cases second with
      | error e => exact allOrNothing_of_halfway hnew hafter
      | ok =>
        refine iff_of_true (fun draws => ⟨new, ?_, .inr hnew⟩) trivial
        rw [hafter]
        exact loadOrCreate_eq_ok.mpr (.inl (holds_persist (publicOf_newIdentity hnew)))

/-- The second put fails, and the entry of the client id says the new one already. -/
theorem whole_of_holdsId {e : ClientError} (hnew : codec.newIdentity kv call = some new)
    (hid : codec.HoldsId kv new.clientId) : codec.Whole kv call { clientId := .error e } := by
  unfold Whole
  rw [hnew]
  exact .inl hid

/-- A key pair without a client id cannot be read. -/
theorem loadStored_missing_id {keypair : KeyPair} (hpublic : codec.publicOf keypair.secret = keypair.publicKey)
    (hid : kv clientIdKey = none) : codec.loadStored (kv.put keypairKey (codec.encodeKeypair (fromKeypair keypair))) =
      .error (.identity "missing client-id") := by
  have hdecode : codec.decodeStoredKeypair (codec.encodeKeypair (fromKeypair keypair)) = .ok (fromKeypair keypair) :=
    Wire.mapError_eq_ok.mpr (codec.decode_encodeKeypair _)
  have hinto : codec.intoKeypair (fromKeypair keypair) = .ok keypair := intoKeypair_eq_ok.mpr ⟨rfl, hpublic⟩
  unfold loadStored Kv.put
  rw [Function.update_self, Function.update_of_ne keypairKey_ne_clientIdKey.symm, hid]
  simp only [hdecode, Wire.ok_bind, hinto]

/-- On an empty store the second put fails: a later load ends in an error. -/
theorem loadOrCreate_torn {draws later : IdentityDraws} {e : ClientError} (hempty : kv keypairKey = none)
    (hid : kv clientIdKey = none) :
    (codec.loadOrCreate (codec.after kv (.loadOrCreate draws) { clientId := .error e }) later {}).2 =
      .error (.identity "missing client-id") := by
  have hafter : codec.after kv (.loadOrCreate draws) { clientId := .error e } =
      kv.put keypairKey (codec.encodeKeypair (fromKeypair (codec.create draws).keypair)) :=
    after_of_some (if_pos hempty)
  have hstored := @loadStored_missing_id codec kv (codec.create draws).keypair rfl hid
  rw [hafter]
  unfold loadOrCreate
  rw [hstored]

end IdentityCodec

end CliPocket
