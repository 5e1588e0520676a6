import CliPocket.App.DaemonRegistry
import CliPocket.Daemon.PairingLink
import CliPocket.Lib.Url
import CliPocket.Proto.UuidText
import Mathlib.Data.Bool.AllAny

/-!
# Pairing links

What the daemon writes into a link, the app reads out of its fragment again: base64, JSON and a schema. The two sides
differ about blanks, and only the app asks whether a URL is one.

- `importPairingOfferUrl`: the record of a link;
- `RoundTrips`: it is that of the daemon that has written the link;
- `links_round_trip_iff`: **so it is, if and only if the URLs are URLs, the one of the app has no fragment, and both sides
  trim the label alike.**
-/

namespace CliPocket.App

/-! ## The app's side -/

inductive ImportError
  /-- `new URL` throws. -/
  | invalidUrl
  | missingPair
  | invalidPayload
  /-- A `ZodError`. -/
  | schema
  deriving DecidableEq

/-- The texts of the two errors that the module throws itself. -/
def ImportError.toMessage : ImportError → Option String
  | .missingPair => some "pairing url must include #pair="
  | .invalidPayload => some "invalid #pair= payload"
  | .invalidUrl | .schema => none

/-- `WhiteSpace` and `LineTerminator`: unlike `White_Space` with U+FEFF, and without U+0085. -/
def blanks : List Char :=
  ['\t', '\n', '\x0b', '\x0c', '\r', ' ', '\u00a0', '\u1680', '\u2000', '\u2001', '\u2002', '\u2003', '\u2004',
    '\u2005', '\u2006', '\u2007', '\u2008', '\u2009', '\u200a', '\u2028', '\u2029', '\u202f', '\u205f', '\u3000', '\ufeff']

/-- `String.prototype.trim`. -/
def trim (cs : List Char) : List Char := Text.dropEndWhile (· ∈ blanks) (cs.dropWhile (· ∈ blanks))

def isHexDigit (c : Char) : Bool := (Json.hexValue c).isSome

/-- `/^[0-9a-f]{64}$/i`. -/
def isHex64 (cs : List Char) : Bool := cs.length = 64 && cs.all isHexDigit

/-- `z.string().uuid()`: eight, four, four, four and twelve hexadecimal digits. -/
def isUuid (cs : List Char) : Bool :=
  (cs.splitOn '-').map List.length = [8, 4, 4, 4, 12] && cs.all fun c => c = '-' || isHexDigit c

structure OfferPayload where
  label : Option (List Char)
  serverId : List Char
  serverPublicHex : List Char
  relayUrl : List Char
  relayPskHex : List Char

/-- `z.string()`. An ill-formed text, which it takes too, is refused: no record that a daemon's link brings has one. -/
def parseText : Json.Value → Option (List Char)
  | .string cs => some cs
  | _ => none

/-- `z.literal(1)`. -/
def isOne : Json.Value → Bool
  | .number n => n.isOne
  | _ => false

/-- `z.string().trim().min(1).optional()`. -/
def parseLabel : Option Json.Value → Option (Option (List Char))
  | none => some none
  | some value => do
    let cs ← parseText value
    if trim cs = [] then none else some (some (trim cs))

/-- `PairingOfferPayload.parse`. -/
def parseOffer (accepts : List Char → Bool) (value : Json.Value) : Option OfferPayload := do
  let v ← value.member "v"
  let label ← parseLabel (value.member "label")
  let serverId ← (value.member "serverId").bind parseText
  let serverPublicHex ← (value.member "serverPublicHex").bind parseText
  let relay ← value.member "relay"
  let relayUrl ← (relay.member "url").bind parseText
  let relayPskHex ← (relay.member "pskHex").bind parseText
  if isOne v && isUuid serverId && isHex64 serverPublicHex && (Url.parse accepts relayUrl).isSome && isHex64 relayPskHex then
    some { label, serverId, serverPublicHex, relayUrl, relayPskHex }
  else none

def decodeBase64Url (value : List Char) : Option (List Char) :=
  (Base64.forgivingDecode (Base64.pad (value.map Base64.ofUrlSafe))).map fun bytes => (Utf8.textDecoder bytes).toList

def OfferPayload.record (payload : OfferPayload) : DaemonRecord where
  id := String.ofList payload.serverId
  label := String.ofList (payload.label.getD payload.serverId)
  target := .relay (String.ofList payload.serverPublicHex) (String.ofList payload.serverId)
    (String.ofList payload.relayUrl) (String.ofList payload.relayPskHex)

/-- `importPairingOfferUrl`, behind the value of the parameter. -/
def importValue (accepts : List Char → Bool) (value : List Char) : Except ImportError DaemonRecord :=
  match (decodeBase64Url value).bind Json.parse with
  | none => .error .invalidPayload
  | some json =>
    match parseOffer accepts json with
    | none => .error .schema
    | some payload => .ok payload.record

/-- `importPairingOfferUrl`, behind the parameters of the fragment. -/
def importParams (accepts : List Char → Bool) (params : List (List Char × List Char)) : Except ImportError DaemonRecord :=
  match Url.get "pair".toList params with
  | none | some [] => .error .missingPair
  | some value => importValue accepts value

/-- `accepts`: what `new URL` accepts, in front of a fragment. -/
def importPairingOfferUrl (accepts : List Char → Bool) (rawUrl : String) : Except ImportError DaemonRecord :=
  match Url.parse accepts rawUrl.toList with
  | none => .error .invalidUrl
  | some url =>
    let fragment := match url.hash with
      | '#' :: fragment => fragment
      | hash => hash
    importParams accepts (Url.searchParams fragment)

/-! ## What a link is to bring -/

/-- The trimmed label, or the server id where there is none. -/
def importedLabel (identity : DaemonIdentity) (label : Option String) : String :=
  match label.map Text.trim with
  | none => identity.serverId.uuid.display
  | some trimmed => if trimmed = "" then identity.serverId.uuid.display else trimmed

/-- The record of the daemon. -/
structure Brings (config : DaemonConfig) (identity : DaemonIdentity) (label : Option String) (record : DaemonRecord) :
    Prop where
  label : record.label = importedLabel identity label
  target : ∃ relayUrl, relayClientWsUrlForServer config.relay.baseUrl identity.serverId = .ok relayUrl ∧
    record.target = .relay (Text.hexEncode identity.publicKey.bytes) identity.serverId.uuid.display relayUrl
      (Text.trim config.relay.pskHex)

/-- The link is imported as what it stands for. -/
def RoundTrips (accepts : List Char → Bool) (config : DaemonConfig) (identity : DaemonIdentity) (label : Option String)
    (url : String) : Prop :=
  ∃ record, importPairingOfferUrl accepts url = .ok record ∧ Brings config identity label record

/-! ## When it does -/

/-- The app's URL, as the parser looks at it. -/
def appBase (config : DaemonConfig) : List Char := (linkBase config).toList.filter fun c => !Url.isTabOrNewline c

/-- A fragment that the app's URL has by itself, up to its last parameter, which the link's own runs into. -/
def ownFragment (base : List Char) : List Char := Url.beforeLast '&' (base.dropWhile (· ≠ '#')).tail

/-- Both sides trim the label alike, unless the daemon leaves it out. -/
def LabelKept (label : Option String) : Prop :=
  ∀ text ∈ label, Text.trim text ≠ "" → trim text.toList = (Text.trim text).toList

/-- The URLs of the app and of the relay are URLs, the one of the app has no fragment, and the label is kept; or the app's
URL is itself a link to this daemon. -/
def Importable (accepts : List Char → Bool) (config : DaemonConfig) (identity : DaemonIdentity) (label : Option String) :
    Prop :=
  if '#' ∈ appBase config then
    accepts (Url.front (appBase config)) = true ∧ ∃ record,
      importParams accepts (Url.searchParams (Url.encodeFragment (ownFragment (appBase config)))) = .ok record ∧
        Brings config identity label record
  else
    accepts (appBase config ++ ['/']) = true ∧
      (∀ relayUrl, relayClientWsUrlForServer config.relay.baseUrl identity.serverId = .ok relayUrl →
        (Url.parse accepts relayUrl.toList).isSome = true) ∧
      LabelKept label

/-! ## Hexadecimal digits -/

theorem isHexDigit_digitChar : ∀ n < 16, isHexDigit (Nat.digitChar n) = true := by decide

theorem isHexDigit_of_mem_hexChars {bytes : List UInt8} {c : Char} (h : c ∈ hexChars bytes) : isHexDigit c = true := by
  obtain ⟨b, -, hc⟩ := List.mem_flatMap.mp h
  have hb := b.toNat_lt
  rcases List.mem_pair.mp hc with rfl | rfl
  · exact isHexDigit_digitChar _ (by omega)
  · exact isHexDigit_digitChar _ (by omega)

theorem isHex64_hexChars {bytes : List UInt8} (h : bytes.length = 32) : isHex64 (hexChars bytes) = true := by
  have hlength : (hexChars bytes).length = 64 := by rw [length_hexChars, h]
  unfold isHex64
  rw [hlength]
  exact List.all_eq_true.mpr fun c hc => isHexDigit_of_mem_hexChars hc

theorem toList_hexEncode (bytes : List UInt8) : (Text.hexEncode bytes).toList = hexChars bytes := String.toList_ofList

/-- **The daemon writes UUIDs that the app takes.** -/
theorem isUuid_display (u : Uuid) : isUuid u.display.toList = true := by
  unfold isUuid
  rw [u.splitOn_display, u.toList_display]
  refine List.all_eq_true.mpr fun c hc => ?_
  have hdigit : ∀ {bytes}, c ∈ hexChars bytes → (decide (c = '-') || isHexDigit c) = true := by
    intro bytes hmem
    rw [isHexDigit_of_mem_hexChars hmem, Bool.or_true]
  simp only [List.mem_append, List.mem_cons] at hc
  rcases hc with hc | rfl | hc | rfl | hc | rfl | hc | rfl | hc
  · exact hdigit hc
  · rfl
  · exact hdigit hc
  · rfl
  · exact hdigit hc
  · rfl
  · exact hdigit hc
  · rfl
  · exact hdigit hc

theorem length_of_hexPairs : ∀ {bytes : List UInt8} {index : Nat} {out : List UInt8}, bytes.length % 2 = 0 →
    Text.hexPairs bytes index = .ok out → bytes.length = 2 * out.length
  | [], _, _, _, h => by
    cases h
    rfl
  | [_], _, _, hlen, _ => by simp at hlen
  | hi :: lo :: rest, index, out, hlen, h => by
    unfold Text.hexPairs at h
    cases hh : Text.hexDigit hi index with
    | error e => simp [hh, bind, Except.bind] at h
    | ok vh =>
      cases hl : Text.hexDigit lo (index + 1) with
      | error e => simp [hh, hl, bind, Except.bind] at h
      | ok vl =>
        cases hr : Text.hexPairs rest (index + 2) with
        | error e => simp [hh, hl, hr, bind, Except.bind] at h
        | ok more =>
          simp only [hh, hl, hr, bind, Except.bind] at h
          cases h
          have hrest := length_of_hexPairs (by simp only [List.length_cons] at hlen; omega) hr
          simp only [List.length_cons]
          omega

theorem hexVal_ascii : ∀ n < 128, (Text.hexVal (UInt8.ofNat n)).isSome = isHexDigit (Char.ofNat n) := by decide +kernel

theorem hexVal_none : ∀ n < 256, 128 ≤ n → Text.hexVal (UInt8.ofNat n) = none := by decide +kernel

/-- What the `hex` crate reads as a digit is one character. -/
theorem ascii_of_hexVal {c : Char} (h : ∀ b ∈ String.utf8EncodeChar c, (Text.hexVal b).isSome = true) :
    c.toNat < 0x80 ∧ isHexDigit c = true := by
  have hlast : c.toNat < 0x80 := by
    by_contra hbig
    have hmem : UInt8.ofNat (c.val.toNat % 0x40 + 0x80) ∈ String.utf8EncodeChar c := by
      unfold String.utf8EncodeChar
      dsimp only
      rw [if_neg (show ¬c.val.toNat ≤ 0x7f from fun hle => hbig (Nat.lt_succ_of_le hle))]
      split
      · simp
      · split <;> simp
    have hnone := hexVal_none (c.val.toNat % 0x40 + 0x80) (by omega) (by omega)
    have hsome := h _ hmem
    rw [hnone] at hsome
    cases hsome
  refine ⟨hlast, ?_⟩
  have hbyte := h (UInt8.ofNat c.toNat) (by rw [Url.utf8EncodeChar_ascii hlast]; exact List.mem_singleton.mpr rfl)
  rw [hexVal_ascii c.toNat hlast, Char.ofNat_toNat] at hbyte
  exact hbyte

/-- **The app takes every key that the daemon takes.** -/
theorem isHex64_of_hexDecode {s : String} {out : List UInt8} (h : Text.hexDecode s = .ok out) (hlength : out.length = 32) :
    isHex64 s.toList = true := by
  unfold Text.hexDecode at h
  split at h
  · cases h
  next heven =>
  have hbytes := Text.isSome_hexVal_of_hexPairs (by omega) h
  have hchars : ∀ c ∈ s.toList, c.toNat < 0x80 ∧ isHexDigit c = true :=
    fun c hc => ascii_of_hexVal fun b hb => hbytes b (List.mem_flatMap.mpr ⟨c, hc, hb⟩)
  have hutf8 : (Text.utf8 s).length = s.toList.length := by
    unfold Text.utf8
    generalize s.toList = cs at hchars
    induction cs with
    | nil => rfl
    | cons c cs ih =>
      rw [List.flatMap_cons, List.length_append, ih fun d hd => hchars d (List.mem_cons_of_mem _ hd),
        Url.utf8EncodeChar_ascii (hchars c List.mem_cons_self).1, List.length_cons]
      exact Nat.add_comm _ _
  have htwice := length_of_hexPairs (by omega) h
  have hsixtyfour : s.toList.length = 64 := by omega
  unfold isHex64
  rw [hsixtyfour]
  exact List.all_eq_true.mpr fun c hc => (hchars c hc).2

/-! ## The payload -/

section Payload

variable {payload : PairingOfferPayload}

/-- What the schema looks at. -/
structure Members (payload : PairingOfferPayload) : Prop where
  v : payload.toJson.member "v" = some (.number (.ofNat payload.v))
  label : payload.toJson.member "label" = payload.label.map fun label => .string label.toList
  serverId : payload.toJson.member "serverId" = some (.string payload.serverId.toList)
  serverPublicHex : payload.toJson.member "serverPublicHex" = some (.string payload.serverPublicHex.toList)
  relay : ∃ relay, payload.toJson.member "relay" = some relay ∧
    relay.member "url" = some (.string payload.relayUrl.toList) ∧
    relay.member "pskHex" = some (.string payload.pskHex.toList)

theorem members (payload : PairingOfferPayload) : Members payload := by
  obtain ⟨v, label, serverId, serverPublicHex, relayUrl, pskHex⟩ := payload
  cases label with
  | none => exact ⟨rfl, rfl, rfl, rfl, _, rfl, rfl, rfl⟩
  | some label => exact ⟨rfl, rfl, rfl, rfl, _, rfl, rfl, rfl⟩

/-- What the schema makes of a payload. -/
theorem parseOffer_toJson (accepts : List Char → Bool) (hv : payload.v = 1)
    (hserverId : isUuid payload.serverId.toList = true) (hpublic : isHex64 payload.serverPublicHex.toList = true)
    (hpsk : isHex64 payload.pskHex.toList = true) : parseOffer accepts payload.toJson =
      (parseLabel (payload.label.map fun label => .string label.toList)).bind fun label =>
        if (Url.parse accepts payload.relayUrl.toList).isSome then
          some {
            label
            serverId := payload.serverId.toList
            serverPublicHex := payload.serverPublicHex.toList
            relayUrl := payload.relayUrl.toList
            relayPskHex := payload.pskHex.toList }
        else none := by
  obtain ⟨hv', hlabel, hserverId', hpublic', relay, hrelay, hurl, hpsk'⟩ := members payload
  have hone : isOne (.number (.ofNat payload.v)) = true := by
    rw [hv]
    exact Json.isOne_one
  unfold parseOffer
  rw [hv', hlabel, hserverId', hpublic', hrelay]
  simp only [Option.bind_eq_bind, Option.bind_some, parseText, hurl, hpsk', hone, hserverId, hpublic, hpsk, Bool.true_and,
    Bool.and_true]

end Payload

/-! ## The fragment -/

/-- The characters of a link's parameter: they stand for themselves wherever they are looked at. -/
theorem plain_of_mem_urlAlphabet : ∀ c ∈ Base64.urlAlphabet, Url.Plain c ∧ Url.inFragmentSet c = false ∧
    Url.isTabOrNewline c = false ∧ Url.isEdge c = false ∧ c ≠ '&' :=
  List.all_iff_forall_prop.mp (by decide +kernel)

theorem mem_offerText {payload : PairingOfferPayload} {c : Char} (h : c ∈ (offerText payload).toList) :
    c ∈ Base64.urlAlphabet := by
  unfold offerText at h
  rw [String.toList_ofList] at h
  exact Base64.mem_encodeUrl h

/-- **The payload is read back.** -/
theorem decodeBase64Url_offerText (payload : PairingOfferPayload) :
    (decodeBase64Url (offerText payload).toList).bind Json.parse = some payload.toJson := by
  have hhead : payload.toJson.render.head? ≠ some '\ufeff' := by
    unfold PairingOfferPayload.toJson
    nofun
  unfold decodeBase64Url offerText PairingOfferPayload.toVec
  rw [String.toList_ofList, Base64.forgivingDecode_pad, Option.map_some, Utf8.textDecoder_encode, String.toList_ofList,
    if_neg hhead, String.toList_ofList]
  exact Json.parse_render _

theorem offerText_ne_nil (payload : PairingOfferPayload) : (offerText payload).toList ≠ [] := by
  intro hnil
  have hread := decodeBase64Url_offerText payload
  rw [hnil] at hread
  cases hread

/-- What stands in a link behind the app's URL. -/
def linkTail (payload : PairingOfferPayload) : List Char := "pair=".toList ++ (offerText payload).toList

theorem mem_linkTail {payload : PairingOfferPayload} {c : Char} (h : c ∈ linkTail payload) :
    Url.inFragmentSet c = false ∧ Url.isTabOrNewline c = false ∧ Url.isEdge c = false ∧ c ≠ '&' := by
  have hname : ∀ c ∈ "pair=".toList,
      Url.inFragmentSet c = false ∧ Url.isTabOrNewline c = false ∧ Url.isEdge c = false ∧ c ≠ '&' :=
    List.all_iff_forall_prop.mp (by decide)
  rcases List.mem_append.mp h with h | h
  · exact hname c h
  · exact (plain_of_mem_urlAlphabet c (mem_offerText h)).2

theorem linkTail_ne_nil (payload : PairingOfferPayload) : linkTail payload ≠ [] := by
  unfold linkTail
  exact List.cons_ne_nil _ _

theorem searchParams_linkTail (payload : PairingOfferPayload) :
    Url.searchParams (Url.encodeFragment (linkTail payload)) = [("pair".toList, (offerText payload).toList)] := by
  have hamp : '&' ∉ linkTail payload := fun h => (mem_linkTail h).2.2.2 rfl
  rw [Url.encodeFragment_eq_self fun c hc => (mem_linkTail hc).1]
  refine (Url.searchParams_eq (by decide) _).trans ?_
  refine (Url.params_single (linkTail_ne_nil payload) hamp).trans ?_
  have hparam := @Url.decodeParam_of_plain "pair".toList (offerText payload).toList
    (List.all_iff_forall_prop.mp (by decide)) fun c hc => (plain_of_mem_urlAlphabet c (mem_offerText hc)).1
  exact congrArg (· :: []) hparam

variable {accepts : List Char → Bool} {config : DaemonConfig} {identity : DaemonIdentity} {label : Option String} {url : String}
  {payload : PairingOfferPayload}

/-- What the URL parser looks at. -/
theorem clean_url (h : LinkParts config identity label url payload) :
    Url.clean url.toList = appBase config ++ '/' :: '#' :: linkTail payload := by
  have htext : url.toList = (linkBase config).toList ++ '/' :: '#' :: linkTail payload := by
    rw [h.url, String.toList_append, String.toList_append, List.append_assoc]
    rfl
  have hkept : ('/' :: '#' :: linkTail payload).filter (fun c => !Url.isTabOrNewline c) = '/' :: '#' :: linkTail payload := by
    refine List.filter_eq_self.mpr fun c hc => ?_
    rcases List.mem_cons.mp hc with rfl | hc
    · rfl
    rcases List.mem_cons.mp hc with rfl | hc
    · rfl
    · rw [(mem_linkTail hc).2.1]
      rfl
  rw [Url.clean_eq, htext, List.filter_append, hkept]
  · rfl
  · rw [htext, List.head?_append, h.scheme]
    rintro _ ⟨⟩
    rfl
  · rw [htext, List.getLast?_append_of_ne_nil _ (List.cons_ne_nil _ _), List.getLast?_cons_cons,
      List.getLast?_cons_of_ne_nil (linkTail_ne_nil payload)]
    intro c hc
    exact (mem_linkTail (List.mem_of_getLast? hc)).2.2.1

/-! ## Links without another fragment -/

/-- The parameter of a link. -/
theorem importParams_linkTail : importParams accepts (Url.searchParams (Url.encodeFragment (linkTail payload))) =
    match parseOffer accepts payload.toJson with
    | none => .error .schema
    | some payload => .ok payload.record := by
  have hget : Url.get "pair".toList [("pair".toList, (offerText payload).toList)] = some (offerText payload).toList := rfl
  have hread := decodeBase64Url_offerText payload
  have hne := offerText_ne_nil payload
  unfold importParams
  rw [searchParams_linkTail, hget]
  cases htext : (offerText payload).toList with
  | nil => exact absurd htext hne
  | cons c cs =>
    rw [htext] at hread
    dsimp only
    unfold importValue
    rw [hread]

theorem importPairingOfferUrl_plain (h : LinkParts config identity label url payload) (hplain : '#' ∉ appBase config) :
    importPairingOfferUrl accepts url =
      if accepts (appBase config ++ ['/']) then
        match parseOffer accepts payload.toJson with
        | none => .error .schema
        | some payload => .ok payload.record
      else .error .invalidUrl := by
  have hclean : Url.clean url.toList = (appBase config ++ ['/']) ++ '#' :: linkTail payload := by
    rw [clean_url h, List.append_assoc]
    rfl
  have hbase : '#' ∉ appBase config ++ ['/'] := by
    rw [List.mem_append, List.mem_singleton]
    rintro (hmem | heq)
    · exact hplain hmem
    · cases heq
  unfold importPairingOfferUrl
  rw [Url.parse_of_clean hclean hbase (linkTail_ne_nil payload)]
  split
  · next hparse =>
    cases haccepts : accepts (appBase config ++ ['/']) with
    | true =>
      rw [haccepts, if_pos rfl] at hparse
      cases hparse
    | false => rfl
  · next parsed hparse =>
    cases haccepts : accepts (appBase config ++ ['/']) with
    | true =>
      rw [haccepts, if_pos rfl] at hparse
      cases hparse
      rw [if_pos rfl]
      exact importParams_linkTail
    | false =>
      rw [haccepts, if_neg Bool.false_ne_true] at hparse
      cases hparse

/-- The label comes through if and only if both sides trim it alike. -/
theorem label_iff (h : LinkParts config identity label url payload) :
    (∃ imported, parseLabel (payload.label.map fun label => .string label.toList) = some imported ∧
      String.ofList (imported.getD payload.serverId.toList) = importedLabel identity label) ↔ LabelKept label := by
  have hserverId : String.ofList payload.serverId.toList = identity.serverId.uuid.display := by
    rw [String.ofList_toList, h.serverId]
  rw [h.label]
  cases label with
  | none =>
    refine ⟨fun _ text htext => (by cases htext), fun _ => ⟨none, rfl, hserverId⟩⟩
  | some text =>
    unfold importedLabel LabelKept
    by_cases hblank : Text.trim text = ""
    · have hfilter : (some text).filter (fun label => !(Text.trim label).isEmpty) = none := by
        simp [Option.filter, hblank]
      rw [hfilter]
      simp only [Option.map_some, hblank, if_true]
      refine ⟨fun _ other hother hne => ?_, fun _ => ⟨none, rfl, hserverId⟩⟩
      cases hother
      exact absurd hblank hne
    · have hfilter : (some text).filter (fun label => !(Text.trim label).isEmpty) = some text := by
        simp [Option.filter, hblank]
      rw [hfilter]
      simp only [Option.map_some, hblank, if_false]
      unfold parseLabel
      simp only [parseText, Option.bind_eq_bind, Option.bind_some]
      constructor
      · rintro ⟨imported, himported, heq⟩ other hother -
        cases hother
        split at himported
        · cases himported
        · cases himported
          rw [← heq]
          exact String.toList_ofList.symm
      · intro hkept
        have htrim := hkept text rfl hblank
        refine ⟨some (trim text.toList), if_neg ?_, ?_⟩
        · rw [htrim]
          exact fun hnil => hblank (String.toList_eq_nil_iff.mp hnil)
        · show String.ofList (trim text.toList) = _
          rw [htrim, String.ofList_toList]

/-- The schema takes the payload, and the record is the daemon's. -/
theorem parseOffer_iff (h : LinkParts config identity label url payload) :
    (∃ offer, parseOffer accepts payload.toJson = some offer ∧ Brings config identity label offer.record) ↔
      (∀ relayUrl, relayClientWsUrlForServer config.relay.baseUrl identity.serverId = .ok relayUrl →
        (Url.parse accepts relayUrl.toList).isSome = true) ∧ LabelKept label := by
  obtain ⟨psk, hpsk, hlength⟩ := h.psk
  have hpublic : isHex64 payload.serverPublicHex.toList = true := by
    rw [h.serverPublicHex, toList_hexEncode]
    exact isHex64_hexChars identity.publicKey.length_eq
  have hserverId : isUuid payload.serverId.toList = true := by
    rw [h.serverId]
    exact isUuid_display _
  rw [← label_iff h, parseOffer_toJson accepts h.v hserverId hpublic (isHex64_of_hexDecode hpsk hlength)]
  constructor
  · rintro ⟨offer, hoffer, hbrings⟩
    obtain ⟨imported, himported, hoffer⟩ := Option.bind_eq_some_iff.mp hoffer
    split at hoffer
    · next hurl =>
      cases hoffer
      refine ⟨fun relayUrl hrelay => ?_, imported, himported, hbrings.label⟩
      cases h.relayUrl.symm.trans hrelay
      exact hurl
    · cases hoffer
  · rintro ⟨hurl, imported, himported, hlabel⟩
    refine ⟨_, Option.bind_eq_some_iff.mpr ⟨imported, himported, if_pos (hurl _ h.relayUrl)⟩, hlabel, ?_⟩
    refine ⟨payload.relayUrl, h.relayUrl, ?_⟩
    unfold OfferPayload.record
    simp only [String.ofList_toList]
    rw [h.serverPublicHex, h.serverId, h.pskHex]

theorem roundTrips_plain (h : LinkParts config identity label url payload) (hplain : '#' ∉ appBase config) :
    RoundTrips accepts config identity label url ↔ accepts (appBase config ++ ['/']) = true ∧
      (∀ relayUrl, relayClientWsUrlForServer config.relay.baseUrl identity.serverId = .ok relayUrl →
        (Url.parse accepts relayUrl.toList).isSome = true) ∧ LabelKept label := by
  rw [← parseOffer_iff h]
  unfold RoundTrips
  rw [importPairingOfferUrl_plain h hplain]
  cases haccepts : accepts (appBase config ++ ['/']) with
  | false =>
    constructor
    · rintro ⟨record, himport, -⟩
      cases himport
    · rintro ⟨hfalse, -⟩
      cases hfalse
  | true =>
    rw [if_pos rfl]
    constructor
    · rintro ⟨record, himport, hbrings⟩
      cases hoffer : parseOffer accepts payload.toJson with
      | none =>
        rw [hoffer] at himport
        cases himport
      | some offer =>
        rw [hoffer] at himport
        cases himport
        exact ⟨rfl, offer, rfl, hbrings⟩
    · rintro ⟨-, offer, hoffer, hbrings⟩
      refine ⟨offer.record, ?_, hbrings⟩
      rw [hoffer]

/-! ## Links behind another fragment -/

/-- No value with a number sign in it is a payload. -/
theorem decodeBase64Url_hash {value : List Char} (h : '#' ∈ value) : decodeBase64Url value = none := by
  have hmapped : '#' ∈ value.map Base64.ofUrlSafe := List.mem_map.mpr ⟨'#', h, rfl⟩
  have hpadded : '#' ∈ Base64.pad (value.map Base64.ofUrlSafe) := by
    unfold Base64.pad
    split
    · exact hmapped
    · exact List.mem_append_left _ hmapped
  unfold decodeBase64Url
  rw [Base64.forgivingDecode_eq_none hpadded (by decide +kernel) (by decide) (by decide)]
  rfl

/-- A last parameter with a number sign in it brings nothing. -/
theorem importParams_append {params : List (List Char × List Char)} {last : List Char × List Char}
    (hhash : '#' ∈ last.1 ∨ '#' ∈ last.2) (record : DaemonRecord) :
    importParams accepts (params ++ [last]) = .ok record ↔ importParams accepts params = .ok record := by
  obtain ⟨name, value⟩ := last
  have hget : Url.get "pair".toList (params ++ [(name, value)]) =
      (Url.get "pair".toList params).or (Url.get "pair".toList [(name, value)]) := List.lookup_append
  unfold importParams
  rw [hget]
  cases hown : Url.get "pair".toList params with
  | some value => rw [Option.some_or]
  | none =>
    rw [Option.none_or]
    refine ⟨fun h => ?_, fun h => (by cases h)⟩
    by_cases hname : "pair".toList = name
    · subst hname
      have hsign : '#' ∉ "pair".toList := by decide
      have hvalue : '#' ∈ value := hhash.resolve_left hsign
      have hfail : importValue accepts value = .error .invalidPayload := by
        unfold importValue
        rw [decodeBase64Url_hash hvalue]
        rfl
      have hfound : Url.get "pair".toList [("pair".toList, value)] = some value := rfl
      rw [hfound] at h
      cases value with
      | nil => cases hvalue
      | cons c cs =>
        dsimp only at h
        rw [hfail] at h
        cases h
    · have hmissing : Url.get "pair".toList [(name, value)] = none := by
        unfold Url.get
        rw [List.lookup_cons, beq_false_of_ne hname]
        rfl
      rw [hmissing] at h
      cases h

/-- One parameter with a number sign. -/
theorem searchParams_single {cs : List Char} (hhash : '#' ∈ cs) (hamp : '&' ∉ cs) :
    ∃ last, Url.searchParams cs = [last] ∧ ('#' ∈ last.1 ∨ '#' ∈ last.2) := by
  cases cs with
  | nil => cases hhash
  | cons c cs =>
    by_cases hc : c = '?'
    · subst hc
      have hhash' : '#' ∈ cs := (List.mem_cons.mp hhash).resolve_left (by decide)
      refine ⟨_, Url.params_single (List.ne_nil_of_mem hhash') fun h => hamp (List.mem_cons_of_mem _ h), ?_⟩
      exact Url.hash_mem_decodeParam hhash'
    · refine ⟨_, (Url.searchParams_eq hc cs).trans (Url.params_single (List.cons_ne_nil _ _) hamp), ?_⟩
      exact Url.hash_mem_decodeParam hhash

/-- The parameters of another fragment stay, up to the one that the link runs into. -/
theorem searchParams_fragment {own : List Char} {tail : List Char} (hhash : '#' ∈ tail) (hamp : '&' ∉ tail) :
    ∃ last, Url.searchParams (Url.encodeFragment (own ++ tail)) =
      Url.searchParams (Url.encodeFragment (Url.beforeLast '&' own)) ++ [last] ∧
        ('#' ∈ last.1 ∨ '#' ∈ last.2) := by
  have hencoded : ∀ behind, '&' ∉ behind → '#' ∈ Url.encodeFragment (behind ++ tail) ∧
      '&' ∉ Url.encodeFragment (behind ++ tail) := by
    intro behind hbehind
    refine ⟨Url.mem_encodeFragment rfl (List.mem_append_right _ hhash), Url.amp_not_mem_encodeFragment fun h => ?_⟩
    exact (List.mem_append.mp h).elim hbehind hamp
  by_cases hown : '&' ∈ own
  · obtain ⟨behind, hbehind, hown⟩ := Url.split_last hown
    obtain ⟨hhash', hamp'⟩ := hencoded behind hbehind
    refine ⟨_, ?_, Url.hash_mem_decodeParam hhash'⟩
    conv_lhs => rw [hown, List.append_assoc, List.cons_append]
    rw [Url.encodeFragment_append, Url.encodeFragment_cons rfl]
    exact Url.searchParams_append _ (List.ne_nil_of_mem hhash') hamp'
  · obtain ⟨hhash', hamp'⟩ := hencoded own hown
    obtain ⟨last, hlast, hsign⟩ := searchParams_single hhash' hamp'
    refine ⟨last, ?_, hsign⟩
    rw [hlast, Url.beforeLast_of_not_mem hown]
    rfl

theorem roundTrips_fragment (h : LinkParts config identity label url payload) (hfragment : '#' ∈ appBase config) :
    RoundTrips accepts config identity label url ↔ accepts (Url.front (appBase config)) = true ∧ ∃ record,
      importParams accepts (Url.searchParams (Url.encodeFragment (ownFragment (appBase config)))) = .ok record ∧
        Brings config identity label record := by
  have hfront : '#' ∉ Url.front (appBase config) := Url.not_mem_takeWhile '#' _
  have hbase := Url.split_first hfragment
  have hclean : Url.clean url.toList = Url.front (appBase config) ++ '#' ::
      (((appBase config).dropWhile (· ≠ '#')).tail ++ '/' :: '#' :: linkTail payload) := by
    rw [clean_url h]
    conv_lhs => rw [hbase, List.append_assoc]
    rfl
  generalize hown : ((appBase config).dropWhile (· ≠ '#')).tail = own at hclean
  have hhash : '#' ∈ '/' :: '#' :: linkTail payload := List.mem_cons_of_mem _ List.mem_cons_self
  have hamp : '&' ∉ '/' :: '#' :: linkTail payload := by
    intro hmem
    rcases List.mem_cons.mp hmem with heq | hmem
    · cases heq
    rcases List.mem_cons.mp hmem with heq | hmem
    · cases heq
    · exact (mem_linkTail hmem).2.2.2 rfl
  obtain ⟨last, hparams, hsign⟩ := @searchParams_fragment own _ hhash hamp
  have hne : own ++ '/' :: '#' :: linkTail payload ≠ [] := List.append_ne_nil_of_right_ne_nil _ (List.cons_ne_nil _ _)
  have himport : importPairingOfferUrl accepts url = if accepts (Url.front (appBase config)) then
      importParams accepts (Url.searchParams (Url.encodeFragment (own ++ '/' :: '#' :: linkTail payload)))
      else .error .invalidUrl := by
    unfold importPairingOfferUrl
    rw [Url.parse_of_clean hclean hfront hne]
    cases accepts (Url.front (appBase config)) <;> rfl
  unfold RoundTrips
  rw [himport, hparams]
  cases haccepts : accepts (Url.front (appBase config)) with
  | false =>
    constructor
    · rintro ⟨record, hrecord, -⟩
      cases hrecord
    · rintro ⟨hfalse, -⟩
      cases hfalse
  | true =>
    rw [if_pos rfl]
    unfold ownFragment
    rw [hown]
    constructor
    · rintro ⟨record, hrecord, hbrings⟩
      exact ⟨rfl, record, (importParams_append hsign record).mp hrecord, hbrings⟩
    · rintro ⟨-, record, hrecord, hbrings⟩
      exact ⟨record, (importParams_append hsign record).mpr hrecord, hbrings⟩

/-- **A link is imported as what it stands for if and only if it is `Importable`.** -/
theorem links_round_trip_iff (h : pairUrl offerText config identity label = .ok url) :
    RoundTrips accepts config identity label url ↔ Importable accepts config identity label := by
  obtain ⟨payload, hparts⟩ := pairUrl_eq_ok h
  unfold Importable
  split
  · next hfragment => exact roundTrips_fragment hparts hfragment
  · next hplain => exact roundTrips_plain hparts hplain

/-! ## Two links -/

/-- A daemon whose URLs are URLs. -/
def linkConfig : DaemonConfig where
  relay := { baseUrl := "wss://r", pskHex := String.ofList (List.replicate 64 '2') }
  app := { baseUrl := "https://a/" }

def linkIdentity : DaemonIdentity := { serverId := ⟨.splat 1⟩, publicKey := .splat 3 }

theorem appBase_linkConfig : '#' ∉ appBase linkConfig := by decide +kernel

theorem exists_of_isOk {ε α : Type} {r : Except ε α} (h : r.isOk = true) : ∃ a, r = .ok a := by
  cases r with
  | ok a => exact ⟨a, rfl⟩
  | error e => cases h

/-- A label with blanks around it. -/
theorem links_round_trip_iff_sample : ∃ url, pairUrl offerText linkConfig linkIdentity (some " x ") = .ok url ∧
    RoundTrips (fun _ => true) linkConfig linkIdentity (some " x ") url := by
  have hok : (pairUrl offerText linkConfig linkIdentity (some " x ")).isOk = true := by decide +kernel
  obtain ⟨url, hurl⟩ := exists_of_isOk hok
  refine ⟨url, hurl, (links_round_trip_iff hurl).mpr ?_⟩
  unfold Importable
  rw [if_neg appBase_linkConfig]
  refine ⟨rfl, fun relayUrl _ => ?_, ?_⟩
  · unfold Url.parse
    rw [if_pos rfl]
    split <;> rfl
  · rintro _ ⟨⟩ _
    decide +kernel

/-- A label that only the app trims away. -/
theorem byte_order_mark_label : ¬∀ config identity label url, pairUrl offerText config identity label = .ok url →
    RoundTrips (fun _ => true) config identity label url := by
  intro h
  have hok : (pairUrl offerText linkConfig linkIdentity (some "\ufeff")).isOk = true := by decide +kernel
  obtain ⟨url, hurl⟩ := exists_of_isOk hok
  obtain ⟨payload, hparts⟩ := pairUrl_eq_ok hurl
  obtain ⟨-, -, hlabel⟩ := (roundTrips_plain hparts appBase_linkConfig).mp (h _ _ _ url hurl)
  have htrimmed : trim "\ufeff".toList ≠ (Text.trim "\ufeff").toList := by decide +kernel
  exact htrimmed (hlabel _ rfl (by decide +kernel))

end CliPocket.App
