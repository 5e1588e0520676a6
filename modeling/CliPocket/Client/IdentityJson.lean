import CliPocket.Client.Identity
import CliPocket.Lib.PrettyJson
import CliPocket.Lib.Utf8
import CliPocket.Lib.X25519
import CliPocket.Proto.UuidText

/-!
# How an identity is stored

Records of an identity as JSON, and X25519 for the public key: the codec that `load_or_create` runs with.

- `StoredKeyPair.ofValue_toValue`, `ClientId.ofValue_toValue`: **a record is read as what it was**;
- `identityJson`: the codec;
- `torn_identity`: a first run whose second put fails leaves no identity that can be loaded.
-/

namespace CliPocket

open Json (Value)

/-! ## Keys -/

/-- An array of thirty-two bytes. -/
def KeyBytes.toValue (key : KeyBytes) : Value := .array (key.bytes.map fun b => .number (.ofNat b.toNat))

/-- A number of at most `max`. -/
def numberUpTo (max : Nat) : Value → Option Nat
  | .number n => n.natural.bind fun n => if n ≤ max then some n else none
  | _ => none

def KeyBytes.ofBytes (bytes : List UInt8) : Option KeyBytes := if h : bytes.length = 32 then some ⟨bytes, h⟩ else none

def KeyBytes.ofValue : Value → Option KeyBytes
  | .array items => (items.mapM fun item => (numberUpTo 255 item).map UInt8.ofNat).bind KeyBytes.ofBytes
  | _ => none

theorem numberUpTo_ofNat {max n : Nat} (h : n ≤ max) : numberUpTo max (.number (.ofNat n)) = some n := by
  unfold numberUpTo
  dsimp only
  rw [Json.natural_ofNat, Option.bind_some, if_pos h]

theorem mapM_bytes : ∀ bytes : List UInt8,
    (bytes.map fun b => Value.number (.ofNat b.toNat)).mapM (fun item => (numberUpTo 255 item).map UInt8.ofNat) =
      some bytes
  | [] => rfl
  | b :: bytes => by
    have hb := b.toNat_lt
    rw [List.map_cons, List.mapM_cons, numberUpTo_ofNat (by omega), mapM_bytes bytes]
    show some (UInt8.ofNat b.toNat :: bytes) = _
    rw [UInt8.ofNat_toNat]

theorem KeyBytes.ofValue_toValue (key : KeyBytes) : KeyBytes.ofValue key.toValue = some key := by
  unfold KeyBytes.ofValue KeyBytes.toValue
  dsimp only
  rw [mapM_bytes, Option.bind_some]
  exact dif_pos key.length_eq

/-! ## Records -/

def StoredKeyPair.toValue (keypair : StoredKeyPair) : Value :=
  .object [("version".toList, .number (.ofNat keypair.version.toNat)), ("public".toList, keypair.publicKey.toValue),
    ("private".toList, keypair.privateKey.toValue)]

def StoredKeyPair.ofValue (value : Value) : Option StoredKeyPair := do
  let version ← (value.member "version").bind (numberUpTo (2 ^ 32 - 1))
  let publicKey ← (value.member "public").bind KeyBytes.ofValue
  let privateKey ← (value.member "private").bind KeyBytes.ofValue
  some { version := .ofNat version, publicKey, privateKey }

def ClientId.toValue (clientId : ClientId) : Value := .string clientId.uuid.display.toList

def ClientId.ofValue : Value → Option ClientId
  | .string text => (Uuid.parseHyphenated text).map ClientId.mk
  | _ => none

def ExportedIdentity.ofValue (value : Value) : Option ExportedIdentity := do
  let version ← (value.member "version").bind (numberUpTo (2 ^ 32 - 1))
  let clientId ← (value.member "client_id").bind ClientId.ofValue
  let keypair ← (value.member "keypair").bind StoredKeyPair.ofValue
  some { version := .ofNat version, clientId, keypair }

def ExportedIdentity.toValue (exported : ExportedIdentity) : Value :=
  .object [("version".toList, .number (.ofNat exported.version.toNat)), ("client_id".toList, exported.clientId.toValue),
    ("keypair".toList, exported.keypair.toValue)]

/-- **A key pair is read as what it was.** -/
theorem StoredKeyPair.ofValue_toValue (keypair : StoredKeyPair) : ofValue keypair.toValue = some keypair := by
  have hversion : keypair.toValue.member "version" = some (.number (.ofNat keypair.version.toNat)) := rfl
  have hpublic : keypair.toValue.member "public" = some keypair.publicKey.toValue := rfl
  have hprivate : keypair.toValue.member "private" = some keypair.privateKey.toValue := rfl
  have hlt := keypair.version.toNat_lt
  unfold ofValue
  rw [hversion, hpublic, hprivate, Option.bind_some, Option.bind_some, Option.bind_some, numberUpTo_ofNat (by omega),
    KeyBytes.ofValue_toValue, KeyBytes.ofValue_toValue]
  show some (StoredKeyPair.mk (UInt32.ofNat keypair.version.toNat) _ _) = _
  rw [UInt32.ofNat_toNat]

/-- **A client id is read as what it was.** -/
theorem ClientId.ofValue_toValue (clientId : ClientId) : ofValue clientId.toValue = some clientId := by
  unfold ofValue toValue
  dsimp only
  rw [Uuid.parseHyphenated_display]
  rfl

/-- **An export is read as what it was.** -/
theorem ExportedIdentity.ofValue_toValue (exported : ExportedIdentity) : ofValue exported.toValue = some exported := by
  have hversion : exported.toValue.member "version" = some (.number (.ofNat exported.version.toNat)) := rfl
  have hclientId : exported.toValue.member "client_id" = some exported.clientId.toValue := rfl
  have hkeypair : exported.toValue.member "keypair" = some exported.keypair.toValue := rfl
  have hlt := exported.version.toNat_lt
  unfold ofValue
  rw [hversion, hclientId, hkeypair, Option.bind_some, Option.bind_some, Option.bind_some,
    numberUpTo_ofNat (by omega), ClientId.ofValue_toValue, StoredKeyPair.ofValue_toValue]
  show some (ExportedIdentity.mk (UInt32.ofNat exported.version.toNat) _ _) = _
  rw [UInt32.ofNat_toNat]

/-! ## The codec -/

/-- `serde_json::to_vec`. -/
def jsonBytes (value : Value) : List UInt8 := Utf8.encode (String.ofList value.render)

/-- `serde_json::from_slice`, but for the text of its error. -/
def readJson {α : Type} (ofValue : Value → Option α) (bytes : List UInt8) : Except String α :=
  match ((Utf8.fromUtf8 bytes).bind fun text => Json.parse text.toList).bind ofValue with
  | some record => .ok record
  | none => .error "invalid record"

theorem readJson_jsonBytes {α : Type} {ofValue : Value → Option α} {value : Value} {record : α}
    (h : ofValue value = some record) : readJson ofValue (jsonBytes value) = .ok record := by
  unfold readJson jsonBytes
  rw [Utf8.fromUtf8_encode, Option.bind_some, String.toList_ofList, Json.parse_render, Option.bind_some, h]

def identityJson : IdentityCodec where
  publicOf privateKey := ⟨X25519.publicOf privateKey.bytes, X25519.length_publicOf privateKey.bytes⟩
  encodeKeypair keypair := jsonBytes keypair.toValue
  decodeKeypair := readJson StoredKeyPair.ofValue
  encodeClientId clientId := jsonBytes clientId.toValue
  decodeClientId := readJson ClientId.ofValue
  decodeExport := readJson ExportedIdentity.ofValue
  decode_encodeKeypair keypair := readJson_jsonBytes keypair.ofValue_toValue
  decode_encodeClientId clientId := readJson_jsonBytes clientId.ofValue_toValue

namespace IdentityCodec

/-- `export_serialized`: `to_vec_pretty`. -/
def exportSerialized (identity : ClientIdentity) : List UInt8 :=
  Utf8.encode (String.ofList ((ExportedIdentity.toValue
    { version := exportVersion, clientId := identity.clientId, keypair := fromKeypair identity.keypair }).pretty 0))

/-- **What has been exported can be imported.** -/
theorem readExport_exportSerialized {identity : ClientIdentity}
    (h : identityJson.publicOf identity.keypair.secret = identity.keypair.publicKey) :
    identityJson.readExport (exportSerialized identity) = .ok identity := by
  have hread : identityJson.decodeExport (exportSerialized identity) =
      .ok ⟨exportVersion, identity.clientId, fromKeypair identity.keypair⟩ := by
    have hdecode : identityJson.decodeExport = readJson ExportedIdentity.ofValue := rfl
    rw [hdecode]
    unfold readJson exportSerialized
    rw [Utf8.fromUtf8_encode, Option.bind_some, String.toList_ofList, Json.parse_pretty, Option.bind_some,
      ExportedIdentity.ofValue_toValue]
  have hkeypair : identityJson.intoKeypair (fromKeypair identity.keypair) = .ok identity.keypair :=
    intoKeypair_eq_ok.mpr ⟨rfl, h⟩
  refine Wire.bind_eq_ok.mpr ⟨_, Wire.mapError_eq_ok.mpr hread, ?_⟩
  rw [if_neg (not_not.mpr rfl)]
  exact Wire.bind_eq_ok.mpr ⟨_, hkeypair, rfl⟩

/-- The identity of a first run. -/
def sevens : ClientIdentity := identityJson.create ⟨.splat 7, .splat 7⟩

/-- Its client id, with another key pair. -/
def rekeyed : ClientIdentity := { sevens with keypair := identityJson.keypairFromPrivate (.splat 9) }

/-- A new key pair is imported over an identity, and the put of the client id, which stays the same, fails. -/
theorem all_or_nothing_sample : identityJson.AllOrNothing (identityJson.persist (fun _ => none) sevens {}).1
    (.importSerialized (exportSerialized rekeyed)) { clientId := .error .closed } := by
  have hread : identityJson.readExport (exportSerialized rekeyed) = .ok rekeyed := readExport_exportSerialized rfl
  -- Nothing below is to read the export by evaluating it.
  generalize exportSerialized rekeyed = bytes at hread ⊢
  refine (all_or_nothing_iff identityJson (identityJson.persist (fun _ => none) sevens {}).1
    (.importSerialized bytes) { clientId := .error .closed }).mpr ?_
  have hstored : identityJson.Holds (identityJson.persist (fun _ => none) sevens {}).1 sevens := holds_persist rfl
  have hid : rekeyed.clientId = sevens.clientId := sevens.clientId_with _
  refine whole_of_holdsId (newIdentity_of_readExport _ hread) ?_
  rw [hid]
  exact hstored.2.2

/-- On an empty store the second put of the first run fails: every later load ends in an error. -/
theorem torn_identity :
    ¬identityJson.AllOrNothing (fun _ => none) (.loadOrCreate ⟨.splat 7, .splat 7⟩) { clientId := .error .closed } ∧
      ∀ draws, (identityJson.loadOrCreate (identityJson.after (fun _ => none) (.loadOrCreate ⟨.splat 7, .splat 7⟩)
        { clientId := .error .closed }) draws {}).2 = .error (.identity "missing client-id") := by
  refine ⟨fun hall => ?_, fun draws => loadOrCreate_torn rfl rfl⟩
  obtain ⟨identity, hload, _⟩ := hall ⟨.splat 0, .splat 0⟩
  rw [loadOrCreate_torn rfl rfl] at hload
  cases hload

end IdentityCodec

end CliPocket
