import EveTrade.EnvelopeSigning
import EveTrade.GatewayResponses
import EveTrade.Utf8Order

set_option autoImplicit false

/-!
# The simulator's side of the envelope

The client signs and checks texts of its own printer, and the gateway texts of another. The two
printers sort keys alike, since texts are ordered as their bytes are, and differ in two characters:
the line separators U+2028 and U+2029, which the gateway escapes and the client does not.
-/
namespace EveTrade.SimulatorClient

open JsonText GoJson GoJsonText GatewayPackets GatewayIdentity EnvelopeSigning
open EveTrade.LocalDevWorld (sellerId)
open EveTrade.GatewayResponses (responseEnvelope edgeResponseEnvelopeSchema hmacSha256Name)

section Printing

/-- The order of two strings by their code points. -/
def codePointsLE (a b : String) : Prop := a.toList ≤ b.toList

instance : DecidableRel codePointsLE := fun a b => inferInstanceAs (Decidable (a.toList ≤ b.toList))

mutual

/-- `json.dumps` with sorted keys and without blanks; `quote` writes a string. -/
def dumps (quote : String → List Char) : Json → List Char
  | .null => ['n', 'u', 'l', 'l']
  | .bool true => ['t', 'r', 'u', 'e']
  | .bool false => ['f', 'a', 'l', 's', 'e']
  | .num n => numberText n
  | .str s => quote s
  | .arr items => '[' :: (commaSeparated (dumpsItems quote items) ++ [']'])
  | .obj fields =>
    '\x7b' :: (commaSeparated (((dumpsFields quote fields).insertionSort fun a b =>
      codePointsLE a.1 b.1).map (encodeField quote)) ++ ['\x7d'])

def dumpsItems (quote : String → List Char) : List Json → List (List Char)
  | [] => []
  | x :: xs => dumps quote x :: dumpsItems quote xs

def dumpsFields (quote : String → List Char) : List (String × Json) → List (String × List Char)
  | [] => []
  | (k, v) :: fs => (k, dumps quote v) :: dumpsFields quote fs

end

/-- A string with `ensure_ascii=False`. -/
def quoteText (s : String) : List Char := quoted s.toList

def hex4 (n : ℕ) : List Char :=
  [hexDigit (n / 4096 % 16), hexDigit (n / 256 % 16), hexDigit (n / 16 % 16), hexDigit (n % 16)]

/-- A character with `ensure_ascii=True`; one beyond U+FFFF is written as two surrogates. -/
def asciiChar (c : Char) : List Char :=
  if c.toNat < 127 then escapeChar c
  else if c.toNat < 65536 then ['\x5c', 'u'] ++ hex4 c.toNat
  else
    let n := c.toNat - 65536
    ['\x5c', 'u'] ++ hex4 (55296 + n / 1024) ++ ['\x5c', 'u'] ++ hex4 (56320 + n % 1024)

def quoteAscii (s : String) : List Char := '\x22' :: (s.toList.flatMap asciiChar ++ ['\x22'])

/-- A value as it is sent. -/
def wire (j : Json) : ByteArray := (String.ofList (dumps quoteAscii j)).toByteArray

def edgeRequestSchema : String := "eve-trade-edge.v2"

def edgeResponseSchema : String := "eve-trade-edge-response.v2"

def hmacSha256Algorithm : String := "hmac-sha256"

def signedValue (schemaVersion algorithm keyId : String) (payload : Json) : Json :=
  .obj [
    ("algorithm", .str algorithm),
    ("domain", .str envelopeSigningDomain),
    ("key_id", .str keyId),
    ("payload", payload),
    ("schema_version", .str schemaVersion)]

def envelopeSigningBytes (schemaVersion algorithm keyId : String) (payload : Json) : ByteArray :=
  (String.ofList (dumps quoteText (signedValue schemaVersion algorithm keyId payload))).toByteArray

end Printing

section Client

variable (codec : Codec)

def authFields (algorithm keyId signature : String) : Json :=
  .obj [("algorithm", .str algorithm), ("key_id", .str keyId), ("signature", .str signature)]

def envelopeFields (schemaVersion : String) (payload auth : Json) : List (String × Json) :=
  [("schema_version", .str schemaVersion), ("payload", payload), ("auth", auth)]

def packetSignature (keyId secret : String) (packet : Json) : String :=
  let signingBytes := envelopeSigningBytes edgeRequestSchema hmacSha256Algorithm keyId packet
  codec.encodeBase64 (codec.hmacSha256 secret.toByteArray signingBytes)

/-- `encode_udp_packet` with the credential that it found for the packet's principal. -/
def encodeUdpPacket (keyId secret : String) (packet : Json) : ByteArray :=
  wire (.obj (envelopeFields edgeRequestSchema packet
    (authFields hmacSha256Algorithm keyId (packetSignature codec keyId secret packet))))

/-- `str(value or "")`. -/
def textOrEmpty : Option Json → String
  | some (.str s) => s
  | some (.num n) => if n = 0 then "" else String.ofList (numberText n)
  | some (.bool true) => "True"
  | some (.arr (x :: xs)) => render (.arr (x :: xs))
  | some (.obj (f :: fs)) => render (.obj (f :: fs))
  | _ => ""

structure Settings where
  hmacKeyId : String
  hmacSecret : String

def decodeUdpResponse (loads : ByteArray → Option Json) (settings : Settings)
    (response : ByteArray) : Except String Json :=
  match loads response with
  | none => .error "UDP response is not valid JSON"
  | some (.obj fields) =>
    let decoded := Json.obj fields
    match decoded.field? "schema_version" with
    | some (.str schemaVersion) =>
      if schemaVersion ≠ edgeResponseSchema then
        .error "UDP response is not an authenticated edge response envelope"
      else
        match decoded.field? "payload", decoded.field? "auth" with
        | some (.obj payload), some (.obj auth) =>
          let auth := Json.obj auth
          match auth.field? "algorithm", auth.field? "key_id" with
          | some (.str algorithm), some (.str keyId) =>
            if algorithm ≠ hmacSha256Algorithm ∨ keyId ≠ settings.hmacKeyId then
              .error "signed UDP response uses unexpected authentication metadata"
            else
              let canonical := envelopeSigningBytes schemaVersion hmacSha256Algorithm keyId
                (.obj payload)
              let expected := codec.encodeBase64
                (codec.hmacSha256 settings.hmacSecret.toByteArray canonical)
              if textOrEmpty (auth.field? "signature") ≠ expected then
                .error "signed UDP response signature is invalid"
              else .ok (.obj payload)
          | _, _ => .error "signed UDP response uses unexpected authentication metadata"
        | _, _ => .error "signed UDP response envelope is malformed"
    | _ => .error "UDP response is not an authenticated edge response envelope"
  | some _ => .error "UDP response envelope must be a JSON object"

end Client

section Comparison

mutual

/-- The value that the gateway decodes a value of the client to. -/
def toGo : Json → GoValue
  | .null => .null
  | .bool b => .bool b
  | .num n => .number (String.ofList (numberText n))
  | .str s => .string s
  | .arr items => .array (toGoItems items)
  | .obj fields => .object (toGoFields fields)

def toGoItems : List Json → List GoValue
  | [] => []
  | x :: xs => toGo x :: toGoItems xs

def toGoFields : List (String × Json) → List (String × GoValue)
  | [] => []
  | (k, v) :: fs => (k, toGo v) :: toGoFields fs

end

def isSeparator (c : Char) : Bool := c.toNat == 8232 || c.toNat == 8233

/-- How many line separators a text contains. -/
def textSeparators (s : String) : ℕ := s.toList.countP isSeparator

mutual

/-- How many line separators the strings and keys of a value contain. -/
def separators : Json → ℕ
  | .str s => textSeparators s
  | .arr items => itemsSeparators items
  | .obj fields => fieldsSeparators fields
  | _ => 0

def itemsSeparators : List Json → ℕ
  | [] => 0
  | x :: xs => separators x + itemsSeparators xs

def fieldsSeparators : List (String × Json) → ℕ
  | [] => 0
  | (k, v) :: fs => textSeparators k + separators v + fieldsSeparators fs

end

theorem codePointsLE_iff (a b : String) : codePointsLE a b ↔ bytesLE a b :=
  (Utf8Order.bytes_le_iff a b).symm

theorem sort_eq {α : Type} (fields : List (String × α)) :
    (fields.insertionSort fun a b => codePointsLE a.1 b.1) = sortFields fields := by
  have h := List.map_insertionSort (r := fun a b : String × α => codePointsLE a.1 b.1)
    (s := fun a b : String × α => bytesLE a.1 b.1) id fields
    (fun a _ b _ => codePointsLE_iff a.1 b.1)
  simpa [sortFields] using h

theorem escapeChar_separator {c : Char} (h : isSeparator c = true) : escapeChar c = [c] := by
  have hc : c.toNat = 8232 ∨ c.toNat = 8233 := by simpa [isSeparator] using h
  unfold escapeChar
  have hquote : c ≠ '\x22' := by
    rintro rfl
    revert hc
    decide
  have hbackslash : c ≠ '\x5c' := by
    rintro rfl
    revert hc
    decide
  rw [if_neg hquote, if_neg hbackslash]
  split_ifs <;> first | omega | rfl

theorem encodeChar_of_not_separator {c : Char} (h : isSeparator c = false) :
    encodeChar c = escapeChar c := by
  have hc : c.toNat ≠ 8232 ∧ c.toNat ≠ 8233 := by simpa [isSeparator] using h
  simp [encodeChar, hc.1, hc.2]

theorem length_encodeChar (c : Char) :
    (encodeChar c).length = (escapeChar c).length + if isSeparator c then 5 else 0 := by
  by_cases h : isSeparator c = true
  · rw [escapeChar_separator h]
    have hc : c.toNat = 8232 ∨ c.toNat = 8233 := by simpa [isSeparator] using h
    rcases hc with hc | hc <;> simp [encodeChar, hc, h]
  · simp [encodeChar_of_not_separator (by simpa using h), h]

theorem length_flatMap_encodeChar (cs : List Char) :
    (cs.flatMap encodeChar).length =
      (cs.flatMap escapeChar).length + 5 * cs.countP isSeparator := by
  induction cs with
  | nil => rfl
  | cons c cs ih =>
    rw [List.flatMap_cons, List.flatMap_cons, List.length_append, List.length_append, ih,
      length_encodeChar, List.countP_cons]
    split_ifs <;> omega

theorem length_encodeString (s : String) :
    (encodeString s).length = (quoteText s).length + 5 * textSeparators s := by
  simp only [encodeString, quoteText, quoted, textSeparators, List.length_cons, List.length_append,
    length_flatMap_encodeChar, List.length_nil]
  omega

theorem encodeString_eq {s : String} (h : textSeparators s = 0) : encodeString s = quoteText s := by
  unfold encodeString quoteText quoted
  have hall := List.countP_eq_zero.mp h
  congr 2
  apply List.flatMap_congr
  intro c hc
  exact encodeChar_of_not_separator (by simpa using hall c hc)

theorem length_commaSeparated (ps : List (List Char)) :
    (commaSeparated ps).length = (ps.map List.length).sum + (ps.length - 1) := by
  cases ps with
  | nil => rfl
  | cons p ps =>
    rw [commaSeparated_cons, List.length_append, List.length_flatMap]
    have hsum : (ps.map fun q => (',' :: q).length).sum = (ps.map List.length).sum + ps.length := by
      induction ps with
      | nil => rfl
      | cons q qs ih =>
        simp only [List.map_cons, List.sum_cons, List.length_cons] at ih ⊢
        omega
    rw [hsum]
    simp only [List.map_cons, List.sum_cons, List.length_cons]
    omega

theorem length_sorted (quote : String → List Char) (fields : List (String × List Char)) :
    (commaSeparated ((sortFields fields).map (encodeField quote))).length =
      (fields.map fun f => (encodeField quote f).length).sum + (fields.length - 1) := by
  have hperm : (sortFields fields).Perm fields := List.perm_insertionSort _ _
  rw [length_commaSeparated, List.map_map, List.length_map, hperm.length_eq]
  congr 1
  exact (hperm.map fun f => (encodeField quote f).length).sum_eq

theorem length_encodeField (quote : String → List Char) (f : String × List Char) :
    (encodeField quote f).length = (quote f.1).length + (f.2.length + 1) := by
  simp [encodeField]

mutual

/-- The gateway's text is longer by five characters for each line separator. -/
theorem length_encode : (j : Json) →
    (encode (toGo j)).length = (dumps quoteText j).length + 5 * separators j
  | .null => rfl
  | .bool true => rfl
  | .bool false => rfl
  | .num n => by simp [encode, toGo, dumps, separators]
  | .str s => length_encodeString s
  | .arr items => by
    obtain ⟨hsum, hlength⟩ := length_encodeItems items
    simp only [encode, toGo, dumps, separators, List.length_cons, List.length_append,
      length_commaSeparated, List.length_nil]
    omega
  | .obj fields => by
    obtain ⟨hsum, hlength⟩ := length_encodeFields fields
    simp only [toGo, encode, dumps, separators, List.length_cons, List.length_append,
      List.length_nil, sort_eq]
    change (commaSeparated ((sortFields (encodeFields (toGoFields fields))).map
      (encodeField encodeString))).length + _ + _ = _
    rw [length_sorted, length_sorted]
    omega

theorem length_encodeItems : (xs : List Json) →
    ((encodeItems (toGoItems xs)).map List.length).sum =
        ((dumpsItems quoteText xs).map List.length).sum + 5 * itemsSeparators xs ∧
      (encodeItems (toGoItems xs)).length = (dumpsItems quoteText xs).length
  | [] => ⟨rfl, rfl⟩
  | x :: xs => by
    have hx := length_encode x
    obtain ⟨hsum, hlength⟩ := length_encodeItems xs
    simp only [toGoItems, encodeItems, dumpsItems, itemsSeparators, List.map_cons, List.sum_cons,
      List.length_cons]
    omega

theorem length_encodeFields : (fs : List (String × Json)) →
    ((encodeFields (toGoFields fs)).map fun f => (encodeField encodeString f).length).sum =
        ((dumpsFields quoteText fs).map fun f => (encodeField quoteText f).length).sum +
          5 * fieldsSeparators fs ∧
      (encodeFields (toGoFields fs)).length = (dumpsFields quoteText fs).length
  | [] => ⟨rfl, rfl⟩
  | (k, v) :: fs => by
    have hk := length_encodeString k
    have hv := length_encode v
    obtain ⟨hsum, hlength⟩ := length_encodeFields fs
    simp only [toGoFields, encodeFields, dumpsFields, fieldsSeparators, List.map_cons,
      List.sum_cons, List.length_cons, length_encodeField] at hsum ⊢
    omega

end

theorem keys_of_fieldsSeparators {fs : List (String × Json)} (h : fieldsSeparators fs = 0) :
    ∀ f ∈ dumpsFields quoteText fs, textSeparators f.1 = 0 := by
  induction fs with
  | nil => simp [dumpsFields]
  | cons f fs ih =>
    obtain ⟨k, v⟩ := f
    simp only [fieldsSeparators] at h
    intro f hf
    rcases List.mem_cons.mp hf with rfl | hf
    · simp only
      omega
    · exact ih (by omega) f hf

mutual

theorem encode_eq_dumps : (j : Json) → separators j = 0 → encode (toGo j) = dumps quoteText j
  | .null, _ => rfl
  | .bool true, _ => rfl
  | .bool false, _ => rfl
  | .num n, _ => by simp [encode, toGo, dumps]
  | .str _, h => encodeString_eq h
  | .arr items, h => by
    rw [toGo, encode, dumps, encodeItems_eq_dumps items h]
  | .obj fields, h => by
    rw [toGo, encode, dumps, encodeFields_eq_dumps fields h, sort_eq]
    congr 3
    change (sortFields (dumpsFields quoteText fields)).map (encodeField encodeString) = _
    apply List.map_congr_left
    intro f hf
    have hkey := keys_of_fieldsSeparators h f ((List.mem_insertionSort _).mp hf)
    simp only [encodeField, encodeString_eq hkey]

theorem encodeItems_eq_dumps : (xs : List Json) → itemsSeparators xs = 0 →
    encodeItems (toGoItems xs) = dumpsItems quoteText xs
  | [], _ => rfl
  | x :: xs, h => by
    simp only [itemsSeparators] at h
    rw [toGoItems, encodeItems, dumpsItems, encode_eq_dumps x (by omega),
      encodeItems_eq_dumps xs (by omega)]

theorem encodeFields_eq_dumps : (fs : List (String × Json)) → fieldsSeparators fs = 0 →
    encodeFields (toGoFields fs) = dumpsFields quoteText fs
  | [], _ => rfl
  | (k, v) :: fs, h => by
    simp only [fieldsSeparators] at h
    rw [toGoFields, encodeFields, dumpsFields, encode_eq_dumps v (by omega),
      encodeFields_eq_dumps fs (by omega)]

end

/-- The two printers agree exactly on values without line separators. -/
theorem encode_eq_dumps_iff (j : Json) :
    encode (toGo j) = dumps quoteText j ↔ separators j = 0 := by
  constructor
  · intro h
    have hlength := length_encode j
    rw [h] at hlength
    omega
  · exact encode_eq_dumps j

theorem toGo_signedValue (schemaVersion algorithm keyId : String) (payload : Json) :
    toGo (signedValue schemaVersion algorithm keyId payload) =
      signedEnvelope schemaVersion algorithm keyId (toGo payload) := by
  simp [signedValue, signedEnvelope, toGo, toGoFields]

/-- No part of the envelope has a line separator. -/
def Unseparated (schemaVersion algorithm keyId : String) (payload : Json) : Prop :=
  textSeparators schemaVersion = 0 ∧ textSeparators algorithm = 0 ∧ textSeparators keyId = 0 ∧
    separators payload = 0

theorem separators_signedValue (schemaVersion algorithm keyId : String) (payload : Json) :
    separators (signedValue schemaVersion algorithm keyId payload) = 0 ↔
      Unseparated schemaVersion algorithm keyId payload := by
  have hdomain : textSeparators envelopeSigningDomain = 0 := by decide
  have hkeys : textSeparators "algorithm" = 0 ∧ textSeparators "domain" = 0 ∧
      textSeparators "key_id" = 0 ∧ textSeparators "payload" = 0 ∧
      textSeparators "schema_version" = 0 := by decide
  obtain ⟨h1, h2, h3, h4, h5⟩ := hkeys
  simp only [signedValue, separators, fieldsSeparators, hdomain, h1, h2, h3, h4, h5, Unseparated]
  omega

theorem signing_eq_iff (schemaVersion algorithm keyId : String) (payload : Json) :
    marshalCanonicalJson (signedEnvelope schemaVersion algorithm keyId (toGo payload)) =
        envelopeSigningBytes schemaVersion algorithm keyId payload ↔
      Unseparated schemaVersion algorithm keyId payload := by
  rw [← separators_signedValue, ← encode_eq_dumps_iff, toGo_signedValue]
  unfold marshalCanonicalJson envelopeSigningBytes
  rw [String.toByteArray_inj]
  exact ⟨fun h => String.ofList_injective h, fun h => by rw [h]⟩

end Comparison

section Agreement

variable {codec : Codec}
variable {body : ByteArray} {payload : Json} {keyId : String}

def DecodesBase64 (codec : Codec) : Prop :=
  ∀ bytes, codec.decodeBase64 (codec.encodeBase64 bytes) = some bytes

/-- The gateway's decoder reads a text as the client's value. -/
def ReadsAs (codec : Codec) (body : ByteArray) (payload : Json) : Prop :=
  ∃ v, codec.decodeValue body = some v ∧ SameValue v (toGo payload)

/-- The gateway's decoder takes the envelope apart that the client has written, and leaves the
payload as the text that stands in it. -/
structure ReadsPacket (codec : Codec) (keyId secret : String) (packet : Json) : Prop where
  decoded : codec.decodeEnvelope (encodeUdpPacket codec keyId secret packet) =
    some ⟨edgeRequestSchema, wire packet,
      some ⟨hmacSha256Algorithm, keyId, packetSignature codec keyId secret packet⟩⟩
  valued : ReadsAs codec (wire packet) packet

/-- The client's decoder reads the envelope that the gateway has written. -/
structure ReadsResponse (codec : Codec) (loads : ByteArray → Option Json) (envelope : EdgeEnvelope)
    (response : ByteArray) (payload : Json) : Prop where
  decoded : ∃ auth ∈ envelope.auth, loads response = some (.obj (envelopeFields
    envelope.schemaVersion payload (authFields auth.algorithm auth.keyId auth.signature)))
  valued : ReadsAs codec envelope.payload payload

theorem signingBytes_of_readsAs
    (h : ReadsAs codec body payload) (schemaVersion algorithm keyId : String) :
    GatewayPackets.envelopeSigningBytes codec schemaVersion algorithm keyId body =
      some (marshalCanonicalJson (signedEnvelope schemaVersion algorithm keyId (toGo payload))) := by
  obtain ⟨v, hv, hsame⟩ := h
  refine envelopeSigningBytes_eq_some.mpr ⟨v, hv, ?_⟩
  exact marshal_eq_of_same (signedEnvelope_same.mpr ⟨rfl, rfl, rfl, hsame⟩)

theorem canonical_of_readsAs (reads : ReadsJson codec) (h : ReadsAs codec body payload) :
    ∃ canonical, canonicalJson codec body = some canonical ∧ ReadsAs codec canonical payload := by
  obtain ⟨v, hv, hsame⟩ := h
  obtain ⟨w, hw, hwv⟩ := reads.readsBack body v hv
  exact ⟨_, canonicalJson_eq_some.mpr ⟨v, hv, rfl⟩, w, hw, hwv.trans hsame⟩

theorem bytes_agree_iff (reads : ReadsJson codec)
    (hpayload : ReadsAs codec (wire payload) payload) (schemaVersion algorithm keyId : String) :
    (canonicalJson codec (wire payload)).bind
        (GatewayPackets.envelopeSigningBytes codec schemaVersion algorithm keyId) =
      some (envelopeSigningBytes schemaVersion algorithm keyId payload) ↔
    Unseparated schemaVersion algorithm keyId payload := by
  obtain ⟨canonical, hcanonical, hreads⟩ := canonical_of_readsAs reads hpayload
  rw [hcanonical, Option.bind_some, signingBytes_of_readsAs hreads, Option.some.injEq]
  exact signing_eq_iff schemaVersion algorithm keyId payload

theorem unseparated_request_iff :
    Unseparated edgeRequestSchema hmacSha256Algorithm keyId payload ↔
      textSeparators keyId = 0 ∧ separators payload = 0 := by
  have hnames : textSeparators edgeRequestSchema = 0 ∧ textSeparators hmacSha256Algorithm = 0 := by
    decide
  simp [Unseparated, hnames]

theorem unseparated_response_iff :
    Unseparated edgeResponseSchema hmacSha256Algorithm keyId payload ↔
      textSeparators keyId = 0 ∧ separators payload = 0 := by
  have hnames : textSeparators edgeResponseSchema = 0 ∧ textSeparators hmacSha256Algorithm = 0 := by
    decide
  simp [Unseparated, hnames]

/-- A packet of the client passes the gateway's check of its signature exactly when it has no line
separator. -/
theorem packet_signed_iff (reads : ReadsJson codec) (base64 : DecodesBase64 codec)
    (separates : SeparatesMessages codec) {packet : Json}
    {credential : UdpPrincipalCredential}
    (hpacket : ReadsPacket codec keyId credential.secret packet) :
    SignedBy codec (encodeUdpPacket codec keyId credential.secret packet) credential ↔
      textSeparators keyId = 0 ∧ separators packet = 0 := by
  obtain ⟨canonical, hcanonical, hreads⟩ := canonical_of_readsAs reads hpacket.valued
  have hbytes := signingBytes_of_readsAs hreads edgeRequestSchema hmacSha256Algorithm keyId
  have hparts : signedParts codec (encodeUdpPacket codec keyId credential.secret packet) =
      some (codec.hmacSha256 credential.secret.toByteArray
          (envelopeSigningBytes edgeRequestSchema hmacSha256Algorithm keyId packet),
        marshalCanonicalJson (signedEnvelope edgeRequestSchema hmacSha256Algorithm keyId
          (toGo packet))) := by
    simp only [signedParts, hpacket.decoded, hcanonical, packetSignature, base64 _, hbytes,
      Option.bind_eq_bind, Option.bind_some]
  rw [← unseparated_request_iff, ← signing_eq_iff]
  constructor
  · rintro ⟨parts, hmem, hmac⟩
    rw [hparts, Option.mem_some_iff] at hmem
    subst hmem
    dsimp only at hmac
    have hmessage := separates _ _ _ _ hmac
    exact hmessage.symm
  · intro heq
    refine ⟨_, Option.mem_def.mpr hparts, ?_⟩
    dsimp only
    rw [heq]

theorem decodeUdpResponse_envelope {loads : ByteArray → Option Json} {settings : Settings}
    {response : ByteArray} {payload : List (String × Json)} {signature : String}
    (h : loads response = some (.obj (envelopeFields edgeResponseSchema (.obj payload)
      (authFields hmacSha256Algorithm settings.hmacKeyId signature)))) :
    decodeUdpResponse codec loads settings response =
      if signature = codec.encodeBase64 (codec.hmacSha256 settings.hmacSecret.toByteArray
          (envelopeSigningBytes edgeResponseSchema hmacSha256Algorithm settings.hmacKeyId
            (.obj payload))) then
        .ok (.obj payload)
      else .error "signed UDP response signature is invalid" := by
  unfold decodeUdpResponse
  rw [h]
  simp [envelopeFields, authFields, Json.field?, textOrEmpty]

theorem responseEnvelope_ok {server : QuilkinUdpServer} {envelope : EdgeEnvelope}
    (h : responseEnvelope codec server body = .ok envelope) : ∃ signingBytes,
      GatewayPackets.envelopeSigningBytes codec edgeResponseSchema hmacSha256Algorithm
        server.hmacKeyId envelope.payload = some signingBytes ∧
      envelope.schemaVersion = edgeResponseSchema ∧
      envelope.auth = some ⟨hmacSha256Algorithm, server.hmacKeyId,
        codec.encodeBase64 (codec.hmacSha256 server.hmacSecret signingBytes)⟩ := by
  unfold responseEnvelope at h
  split at h
  · cases h
  · split at h
    · cases h
    · next hbytes =>
      cases h
      exact ⟨_, hbytes, rfl, rfl⟩

/-- A response that the gateway signs is taken by the client exactly when it has no line
separator. -/
theorem response_accepted_iff (base64 : DecodesBase64 codec) (separates : SeparatesMessages codec)
    {loads : ByteArray → Option Json} {server : QuilkinUdpServer} {settings : Settings}
    (hkey : server.hmacKeyId = settings.hmacKeyId)
    (hsecret : server.hmacSecret = settings.hmacSecret.toByteArray) {body response : ByteArray}
    {envelope : EdgeEnvelope} {payload : List (String × Json)}
    (hsigned : responseEnvelope codec server body = .ok envelope)
    (hresponse : ReadsResponse codec loads envelope response (.obj payload)) :
    decodeUdpResponse codec loads settings response = .ok (.obj payload) ↔
      textSeparators settings.hmacKeyId = 0 ∧ separators (.obj payload) = 0 := by
  obtain ⟨signingBytes, hbytes, hschema, hauth⟩ := responseEnvelope_ok hsigned
  obtain ⟨auth, hmem, hloads⟩ := hresponse.decoded
  rw [hauth, Option.mem_some_iff] at hmem
  subst hmem
  rw [signingBytes_of_readsAs hresponse.valued, Option.some.injEq] at hbytes
  rw [hschema, hkey] at hloads
  rw [decodeUdpResponse_envelope hloads, ← unseparated_response_iff, ← signing_eq_iff, ← hkey,
    ← hbytes, hsecret]
  constructor
  · intro h
    split_ifs at h with hsignature
    have hcode := congrArg codec.decodeBase64 hsignature
    rw [base64, base64, Option.some.injEq] at hcode
    exact separates _ _ _ _ hcode
  · intro heq
    rw [heq, if_pos rfl]

end Agreement

/-- The client and the gateway sign the same bytes exactly when no text of the envelope has a line
separator; so a packet passes the check of its signature exactly when neither it nor the key id has
one, and the client takes a signed response under the same condition. -/
theorem envelopes_agree_iff (codec : Codec) (reads : ReadsJson codec) (base64 : DecodesBase64 codec)
    (separates : SeparatesMessages codec) :
    (∀ (fields : List (String × Json)) schemaVersion algorithm keyId,
      ReadsAs codec (wire (.obj fields)) (.obj fields) →
      ((canonicalJson codec (wire (.obj fields))).bind
          (GatewayPackets.envelopeSigningBytes codec schemaVersion algorithm keyId) =
        some (envelopeSigningBytes schemaVersion algorithm keyId (.obj fields)) ↔
      Unseparated schemaVersion algorithm keyId (.obj fields))) ∧
    (∀ (fields : List (String × Json)) keyId credential,
      ReadsPacket codec keyId credential.secret (.obj fields) →
      (SignedBy codec (encodeUdpPacket codec keyId credential.secret (.obj fields)) credential ↔
        textSeparators keyId = 0 ∧ separators (.obj fields) = 0)) ∧
    ∀ loads server settings body envelope response (fields : List (String × Json)),
      server.hmacKeyId = settings.hmacKeyId →
      server.hmacSecret = settings.hmacSecret.toByteArray →
      responseEnvelope codec server body = .ok envelope →
      ReadsResponse codec loads envelope response (.obj fields) →
      (decodeUdpResponse codec loads settings response = .ok (.obj fields) ↔
        textSeparators settings.hmacKeyId = 0 ∧ separators (.obj fields) = 0) := by
  refine ⟨?_, ?_, ?_⟩
  · intro fields schemaVersion algorithm keyId hvalued
    exact bytes_agree_iff reads hvalued schemaVersion algorithm keyId
  · intro fields keyId credential hpacket
    exact packet_signed_iff reads base64 separates hpacket
  · intro loads server settings body envelope response fields hkey hsecret hsigned hresponse
    exact response_accepted_iff base64 separates hkey hsecret hsigned hresponse

section Seeded

def byteText (bytes : ByteArray) : String :=
  String.ofList (bytes.data.toList.map fun b => Char.ofNat b.toNat)

def textBytes (s : String) : ByteArray :=
  ⟨(s.toList.map fun c => UInt8.ofNat c.toNat).toArray⟩

theorem textBytes_byteText (bytes : ByteArray) : textBytes (byteText bytes) = bytes := by
  have hbyte : ∀ b : UInt8, UInt8.ofNat (Char.ofNat b.toNat).toNat = b := by
    intro b
    have hvalid : b.toNat.isValidChar := Or.inl (by have := b.toNat_lt; omega)
    rw [Char.ofNat, dif_pos hvalid]
    exact UInt8.ofNat_toNat
  simp [textBytes, byteText, hbyte, Function.comp_def]

/-- Libraries that know one packet of the seller; a code is the message itself. -/
def knowingOnly (packet : Json) : Codec :=
  { sellOrderCodec with
    decodeValue := fun _ => some (toGo packet)
    encodeBase64 := byteText
    decodeBase64 := fun s => some (textBytes s)
    hmacSha256 := fun _ message => message
    decodeEnvelope := fun _ => some ⟨edgeRequestSchema, wire packet,
      some ⟨hmacSha256Algorithm, "seller", byteText
        (envelopeSigningBytes edgeRequestSchema hmacSha256Algorithm "seller" packet)⟩⟩ }

/-- The client's library, for a response of the gateway with that packet in it. -/
def loadsOnly (packet : Json) (_ : ByteArray) : Option Json :=
  some (.obj (envelopeFields edgeResponseSchema packet (authFields hmacSha256Algorithm "edge"
    (byteText (marshalCanonicalJson
      (signedEnvelope edgeResponseSchema hmacSha256Algorithm "edge" (toGo packet)))))))

def edgeSettings : Settings := ⟨"edge", "edge"⟩

def echoed (packet : Json) : EdgeEnvelope :=
  ⟨edgeResponseEnvelopeSchema, marshalCanonicalJson (toGo packet),
    some ⟨hmacSha256Name, "edge", byteText (marshalCanonicalJson
      (signedEnvelope edgeResponseSchema hmacSha256Algorithm "edge" (toGo packet)))⟩⟩

theorem knowingOnly_reads (packet : Json) (numeric : Numeric (toGo packet)) :
    ReadsJson (knowingOnly packet) where
  numeric := by
    intro body v h
    cases h
    exact numeric
  readsBack := by
    intro body v h
    cases h
    exact ⟨_, rfl, rfl⟩

theorem knowingOnly_decodes (packet : Json) : DecodesBase64 (knowingOnly packet) :=
  fun bytes => congrArg some (textBytes_byteText bytes)

theorem knowingOnly_signature (packet : Json) :
    packetSignature (knowingOnly packet) "seller" "s" packet = byteText
      (envelopeSigningBytes edgeRequestSchema hmacSha256Algorithm "seller" packet) := by
  simp only [packetSignature, knowingOnly]

theorem knowingOnly_packet (packet : Json) :
    ReadsPacket (knowingOnly packet) "seller" "s" packet where
  decoded := by
    rw [knowingOnly_signature]
    rfl
  valued := ⟨toGo packet, rfl, rfl⟩

theorem knowingOnly_response (packet : Json) (response : ByteArray) :
    ReadsResponse (knowingOnly packet) (loadsOnly packet) (echoed packet) response packet :=
  ⟨⟨_, Option.mem_some_self _, rfl⟩, toGo packet, rfl, rfl⟩

theorem knowingOnly_signs (packet : Json) (body : ByteArray) :
    responseEnvelope (knowingOnly packet) guardedServer body = .ok (echoed packet) := rfl

def note (text : String) : List (String × Json) := [("note", .str text)]

def separated : Json := .obj (note "\u2028")

/-- A packet with a line separator: the two sides sign different bytes, the gateway refuses the
packet and the client the response. -/
theorem lineSeparator_refused :
    ReadsPacket (knowingOnly separated) "seller" "s" separated ∧
    ReadsResponse (knowingOnly separated) (loadsOnly separated) (echoed separated) (wire separated)
      separated ∧
    (canonicalJson (knowingOnly separated) (wire separated)).bind
        (GatewayPackets.envelopeSigningBytes (knowingOnly separated) edgeRequestSchema
          hmacSha256Algorithm "seller") ≠
      some (envelopeSigningBytes edgeRequestSchema hmacSha256Algorithm "seller" separated) ∧
    ¬ SignedBy (knowingOnly separated)
      (encodeUdpPacket (knowingOnly separated) "seller" "s" separated) ⟨sellerId, "s"⟩ ∧
    responseEnvelope (knowingOnly separated) guardedServer (wire separated) =
      .ok (echoed separated) ∧
    decodeUdpResponse (knowingOnly separated) (loadsOnly separated) edgeSettings (wire separated) ≠
      .ok separated := by
  have hreads := knowingOnly_reads separated ⟨trivial, trivial⟩
  refine ⟨knowingOnly_packet _, knowingOnly_response _ _, ?_, ?_, knowingOnly_signs _ _, ?_⟩
  · intro h
    have hnone := unseparated_request_iff.mp
      ((bytes_agree_iff hreads (knowingOnly_packet separated).valued _ _ _).mp h)
    revert hnone
    decide
  · intro h
    have hnone := (packet_signed_iff hreads (knowingOnly_decodes separated) (fun _ _ _ _ h => h)
      (knowingOnly_packet separated)).mp h
    revert hnone
    decide
  · intro h
    have hnone := (response_accepted_iff (knowingOnly_decodes separated) (fun _ _ _ _ h => h) rfl
      rfl (knowingOnly_signs separated (wire separated)) (knowingOnly_response separated _)).mp h
    revert hnone
    decide

/-- A packet and a response without line separators pass. -/
theorem envelopes_agree_iff_plain :
    SignedBy (knowingOnly (.obj (note "plain")))
      (encodeUdpPacket (knowingOnly (.obj (note "plain"))) "seller" "s" (.obj (note "plain")))
      ⟨sellerId, "s"⟩ ∧
    decodeUdpResponse (knowingOnly (.obj (note "plain"))) (loadsOnly (.obj (note "plain")))
      edgeSettings ByteArray.empty = .ok (.obj (note "plain")) := by
  obtain ⟨-, hpackets, hresponses⟩ := envelopes_agree_iff (knowingOnly (.obj (note "plain")))
    (knowingOnly_reads _ ⟨trivial, trivial⟩) (knowingOnly_decodes _) (fun _ _ _ _ h => h)
  refine ⟨(hpackets (note "plain") "seller" ⟨sellerId, "s"⟩
    (knowingOnly_packet _)).mpr (by decide), ?_⟩
  exact (hresponses _ guardedServer edgeSettings ByteArray.empty (echoed _) _ (note "plain") rfl rfl
    (knowingOnly_signs _ _) (knowingOnly_response _ _)).mpr (by decide)

end Seeded

end EveTrade.SimulatorClient
