import CliPocket.Daemon.ClientDb
import CliPocket.Lib.Text

/-!
# Configuration and pairing links

The part of the daemon's configuration that pairing depends on: the pre-shared key of the relay, read once by the accept
path (`relayPsk`) and once by the pairing link (`pairingOffer`).

- `relayPsk_of_hexDecode`, `pairingOffer_of_hexDecode`: where the text decodes as it stands, both read the same key;
- `relayPsk_empty`, `pairUrl_empty`: without a text there is no key and no link.
-/

namespace CliPocket

/-- A pre-shared key. -/
@[ext] structure Psk where
  bytes : List UInt8
  length_eq : bytes.length = 32

theorem Psk.bytes_inj (k k' : Psk) : k.bytes = k'.bytes ↔ k = k' := Psk.ext_iff.symm

instance : DecidableEq Psk := fun k k' => decidable_of_iff (k.bytes = k'.bytes) (Psk.bytes_inj k k')

theorem Psk.length_splat (b : UInt8) : (List.replicate 32 b).length = 32 := List.length_replicate

def Psk.splat (b : UInt8) : Psk := ⟨List.replicate 32 b, Psk.length_splat b⟩

structure RelayConfig where
  baseUrl : String
  pskHex : String
  deriving DecidableEq

structure AppConfig where
  baseUrl : String
  deriving DecidableEq

structure DaemonConfig where
  relay : RelayConfig
  app : AppConfig
  deriving DecidableEq

/-- What pairing shows of the daemon's identity. -/
structure DaemonIdentity where
  serverId : ServerId
  publicKey : PublicKey
  deriving DecidableEq

/-! ## The key of the accept path -/

/-- `relay_psk` in `Daemon::start`. -/
def relayPsk (config : DaemonConfig) : Option Psk :=
  match Text.hexDecode config.relay.pskHex with
  | .error _ => none
  | .ok bytes => if h : bytes.length = 32 then some ⟨bytes, h⟩ else none

/-! ## Pairing links -/

def relayWsUrl (baseUrl suffix : String) : Except DaemonError String :=
  let trimmed := Text.trim baseUrl
  if !("ws://".toList.isPrefixOf trimmed.toList || "wss://".toList.isPrefixOf trimmed.toList) then
    .error (.config "relay.base_url must start with ws:// or wss://")
  else .ok (Text.trimEndMatches '/' trimmed ++ suffix)

def relayClientWsUrlForServer (baseUrl : String) (serverId : ServerId) : Except DaemonError String := do
  let url ← relayWsUrl baseUrl "/ws/client"
  .ok (url ++ "?server=" ++ serverId.uuid.display)

structure PairingOffer where
  label : Option String
  serverId : ServerId
  serverPublicHex : String
  relayUrl : String
  relayPskHex : String
  deriving DecidableEq

/-- The payload of a link: version 1, without a blank label. -/
structure PairingOfferPayload where
  v : Nat
  label : Option String
  serverId : String
  serverPublicHex : String
  relayUrl : String
  pskHex : String
  deriving DecidableEq

/-- `encode` is JSON in URL-safe base64. -/
def buildPairingOfferUrl (encode : PairingOfferPayload → String) (appBaseUrl : String) (offer : PairingOffer) :
    Except DaemonError String :=
  let base := Text.trim appBaseUrl
  if !("http://".toList.isPrefixOf base.toList || "https://".toList.isPrefixOf base.toList) then
    .error (.config "app.base_url must start with http:// or https://")
  else
    let payload : PairingOfferPayload :=
      { v := 1
        label := offer.label.filter fun label => !(Text.trim label).isEmpty
        serverId := offer.serverId.uuid.display
        serverPublicHex := offer.serverPublicHex
        relayUrl := offer.relayUrl
        pskHex := offer.relayPskHex }
    .ok (Text.trimEndMatches '/' base ++ "/#pair=" ++ encode payload)

/-- `pair_url` up to the encoding of the offer. -/
def pairingOffer (config : DaemonConfig) (identity : DaemonIdentity) (label : Option String) :
    Except DaemonError PairingOffer := do
  let relayUrl ← relayClientWsUrlForServer config.relay.baseUrl identity.serverId
  let relayPskHex := Text.trim config.relay.pskHex
  if relayPskHex.isEmpty then .error (.config "pair-url requires relay.psk_hex")
  else
    match Text.hexDecode relayPskHex with
    | .error e => .error (.config ("relay.psk_hex: " ++ e.toMessage))
    | .ok psk =>
      if psk.length ≠ 32 then .error (.config "pair-url requires relay.psk_hex to decode to 32 bytes")
      else
        .ok
          { label
            serverId := identity.serverId
            serverPublicHex := Text.hexEncode identity.publicKey.bytes
            relayUrl
            relayPskHex }

def pairUrl (encode : PairingOfferPayload → String) (config : DaemonConfig) (identity : DaemonIdentity)
    (label : Option String) : Except DaemonError String := do
  let offer ← pairingOffer config identity label
  buildPairingOfferUrl encode config.app.baseUrl offer

/-! ## The two readings of the key -/

theorem relayPsk_of_hexDecode {config : DaemonConfig} {k : Psk} (h : Text.hexDecode config.relay.pskHex = .ok k.bytes) :
    relayPsk config = some k := by
  unfold relayPsk
  rw [h]
  exact dif_pos k.length_eq

theorem relayPsk_empty {config : DaemonConfig} (h : config.relay.pskHex = "") : relayPsk config = none := by
  unfold relayPsk
  rw [h]
  rfl

/-- The key a link carries is the text without its white space. -/
theorem relayPskHex_of_pairingOffer {config : DaemonConfig} {identity : DaemonIdentity} {label : Option String}
    {offer : PairingOffer} (h : pairingOffer config identity label = .ok offer) :
    offer.relayPskHex = Text.trim config.relay.pskHex := by
  unfold pairingOffer at h
  cases hu : relayClientWsUrlForServer config.relay.baseUrl identity.serverId with
  | error e => simp [hu, bind, Except.bind] at h
  | ok url =>
    simp only [hu, bind, Except.bind] at h
    split at h
    · cases h
    split at h
    · cases h
    split at h
    · cases h
    · cases h
      rfl

/-- **One key.** Where the text decodes as it stands, a link carries the key of the accept path. -/
theorem pairingOffer_of_hexDecode {config : DaemonConfig} {identity : DaemonIdentity} {label : Option String}
    {offer : PairingOffer} {k : Psk} (h : Text.hexDecode config.relay.pskHex = .ok k.bytes)
    (ho : pairingOffer config identity label = .ok offer) : Text.hexDecode offer.relayPskHex = .ok k.bytes := by
  rw [relayPskHex_of_pairingOffer ho, Text.trim_eq_self_of_hexDecode h, h]

/-- Without a key there is no link. -/
theorem pairUrl_empty (encode : PairingOfferPayload → String) {config : DaemonConfig} (identity : DaemonIdentity)
    (label : Option String) (h : config.relay.pskHex = "") (url : String) :
    pairUrl encode config identity label ≠ .ok url := by
  intro hp
  unfold pairUrl pairingOffer at hp
  rw [h] at hp
  cases hu : relayClientWsUrlForServer config.relay.baseUrl identity.serverId with
  | error e => simp [hu, bind, Except.bind] at hp
  | ok u =>
    have htrim : (Text.trim "").isEmpty = true := by decide
    simp [hu, bind, Except.bind, htrim] at hp

end CliPocket
