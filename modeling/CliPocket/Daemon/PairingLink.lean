import CliPocket.Daemon.Config
import CliPocket.Lib.Base64Url
import CliPocket.Lib.Json
import CliPocket.Lib.Utf8

/-!
# The text of a pairing link

- `offerText`: the payload as JSON, in URL-safe base64;
- `pairUrl_eq_ok`: what is in a link that `pair_url` gives.
-/

namespace CliPocket

/-- `Serialize` of `PairingOfferPayload`: no label is left out. -/
def PairingOfferPayload.toJson (payload : PairingOfferPayload) : Json.Value :=
  .object ([("v".toList, .number (.ofNat payload.v))] ++
    (payload.label.map fun label => ("label".toList, Json.Value.string label.toList)).toList ++
    [("serverId".toList, .string payload.serverId.toList),
      ("serverPublicHex".toList, .string payload.serverPublicHex.toList),
      ("relay".toList, .object [
        ("url".toList, .string payload.relayUrl.toList),
        ("pskHex".toList, .string payload.pskHex.toList)])])

/-- The bytes that `serde_json::to_vec` gives. -/
def PairingOfferPayload.toVec (payload : PairingOfferPayload) : List UInt8 :=
  Utf8.encode (String.ofList payload.toJson.render)

def offerText (payload : PairingOfferPayload) : String := String.ofList (Base64.encodeUrl payload.toVec)

/-- What stands in front of the slash and the fragment. -/
def linkBase (config : DaemonConfig) : String := Text.trimEndMatches '/' (Text.trim config.app.baseUrl)

/-- What a link is made of. -/
structure LinkParts (config : DaemonConfig) (identity : DaemonIdentity) (label : Option String) (url : String)
    (payload : PairingOfferPayload) : Prop where
  url : url = linkBase config ++ "/#pair=" ++ offerText payload
  scheme : (linkBase config).toList.head? = some 'h'
  v : payload.v = 1
  label : payload.label = label.filter fun label => !(Text.trim label).isEmpty
  serverId : payload.serverId = identity.serverId.uuid.display
  serverPublicHex : payload.serverPublicHex = Text.hexEncode identity.publicKey.bytes
  relayUrl : relayClientWsUrlForServer config.relay.baseUrl identity.serverId = .ok payload.relayUrl
  pskHex : payload.pskHex = Text.trim config.relay.pskHex
  psk : ∃ psk, Text.hexDecode payload.pskHex = .ok psk ∧ psk.length = 32

/-- The offer behind a link. -/
theorem pairingOffer_eq_ok {config : DaemonConfig} {identity : DaemonIdentity} {label : Option String} {offer : PairingOffer}
    (h : pairingOffer config identity label = .ok offer) :
    offer.label = label ∧ offer.serverId = identity.serverId ∧
      offer.serverPublicHex = Text.hexEncode identity.publicKey.bytes ∧
      relayClientWsUrlForServer config.relay.baseUrl identity.serverId = .ok offer.relayUrl ∧
      ∃ psk, Text.hexDecode offer.relayPskHex = .ok psk ∧ psk.length = 32 := by
  unfold pairingOffer at h
  cases hurl : relayClientWsUrlForServer config.relay.baseUrl identity.serverId with
  | error e => simp [hurl, bind, Except.bind] at h
  | ok url =>
    simp only [hurl, bind, Except.bind] at h
    split at h
    · cases h
    split at h
    · cases h
    next psk hpsk =>
    split at h
    · cases h
    next hlength =>
    cases h
    exact ⟨rfl, rfl, rfl, rfl, psk, hpsk, not_not.mp hlength⟩

/-- Slashes at the end are cut off, but not the letter at the front. -/
theorem head_trimEndMatches {s : String} {c : Char} (h : s.toList.head? = some c) (hc : c ≠ '/') :
    (Text.trimEndMatches '/' s).toList.head? = some c := by
  obtain ⟨rest, hrest⟩ := List.head?_eq_some_iff.mp h
  unfold Text.trimEndMatches Text.dropEndWhile
  rw [String.toList_ofList, hrest, List.reverse_cons, List.head?_reverse, List.dropWhile_append]
  split
  · rw [List.dropWhile_cons_of_neg (by simpa using hc)]
    rfl
  · rw [List.getLast?_concat]

theorem head_of_isPrefixOf {p s : List Char} {c : Char} (hp : p.head? = some c) (h : p.isPrefixOf s = true) :
    s.head? = some c := by
  obtain ⟨rest, rfl⟩ := List.isPrefixOf_iff_prefix.mp h
  obtain ⟨more, rfl⟩ := List.head?_eq_some_iff.mp hp
  rfl

/-- `build_pairing_offer_url`'s payload. -/
def PairingOffer.payload (offer : PairingOffer) : PairingOfferPayload where
  v := 1
  label := offer.label.filter fun label => !(Text.trim label).isEmpty
  serverId := offer.serverId.uuid.display
  serverPublicHex := offer.serverPublicHex
  relayUrl := offer.relayUrl
  pskHex := offer.relayPskHex

theorem buildPairingOfferUrl_eq_ok {encode : PairingOfferPayload → String} {appBaseUrl url : String} {offer : PairingOffer}
    (h : buildPairingOfferUrl encode appBaseUrl offer = .ok url) :
    (Text.trim appBaseUrl).toList.head? = some 'h' ∧
      url = Text.trimEndMatches '/' (Text.trim appBaseUrl) ++ "/#pair=" ++ encode offer.payload := by
  unfold buildPairingOfferUrl at h
  dsimp only at h
  cases hscheme : "http://".toList.isPrefixOf (Text.trim appBaseUrl).toList ||
      "https://".toList.isPrefixOf (Text.trim appBaseUrl).toList with
  | false =>
    rw [hscheme, if_pos (show (!false) = true from rfl)] at h
    cases h
  | true =>
    rw [hscheme, if_neg (by decide)] at h
    refine ⟨?_, (Except.ok.inj h).symm⟩
    rcases Bool.or_eq_true_iff.mp hscheme with hprefixed | hprefixed
    · exact head_of_isPrefixOf rfl hprefixed
    · exact head_of_isPrefixOf rfl hprefixed

theorem pairUrl_eq_ok {config : DaemonConfig} {identity : DaemonIdentity} {label : Option String} {url : String}
    (h : pairUrl offerText config identity label = .ok url) : ∃ payload, LinkParts config identity label url payload := by
  unfold pairUrl at h
  cases hoffer : pairingOffer config identity label with
  | error e => simp [hoffer, bind, Except.bind] at h
  | ok offer =>
    simp only [hoffer, bind, Except.bind] at h
    obtain ⟨hlabel, hserverId, hpublic, hrelay, hpsk⟩ := pairingOffer_eq_ok hoffer
    obtain ⟨hhead, hurl⟩ := buildPairingOfferUrl_eq_ok h
    refine ⟨offer.payload, hurl, head_trimEndMatches hhead (by decide), rfl, ?_, ?_, hpublic, hrelay, ?_, hpsk⟩
    · exact congrArg (Option.filter _) hlabel
    · exact congrArg (fun serverId => serverId.uuid.display) hserverId
    · exact relayPskHex_of_pairingOffer hoffer

end CliPocket
