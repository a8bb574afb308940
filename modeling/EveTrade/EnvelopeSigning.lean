import EveTrade.GatewayIdentity
import EveTrade.GoJsonText

set_option autoImplicit false

/-!
# What a signature covers

The bytes that are signed determine the schema, the algorithm, the key id and the value of the
payload. So the payload that is passed on is the value that was signed, and an envelope in which one
of them is changed is not accepted with the same signature.
-/
namespace EveTrade.EnvelopeSigning

open GoJson GoJsonText GatewayPackets GatewayIdentity

/-- What `encoding/json` promises: it hands out numbers as they are written in JSON, and what it
writes for a value that it has read, it reads as the same value. -/
structure ReadsJson (codec : Codec) : Prop where
  numeric : ∀ body v, codec.decodeValue body = some v → Numeric v
  readsBack : ∀ body v, codec.decodeValue body = some v →
    ∃ w, codec.decodeValue (marshalCanonicalJson v) = some w ∧ SameValue w v

/-- Two messages never have the same code, under whatever secrets. -/
def SeparatesMessages (codec : Codec) : Prop :=
  ∀ secret other message message',
    codec.hmacSha256 secret message = codec.hmacSha256 other message' → message = message'

section Values

def signedEnvelope (schemaVersion algorithm keyId : String) (payload : GoValue) : GoValue :=
  .object [
    ("algorithm", .string algorithm),
    ("domain", .string envelopeSigningDomain),
    ("key_id", .string keyId),
    ("payload", payload),
    ("schema_version", .string schemaVersion)]

theorem sorted_signedEnvelope (schemaVersion algorithm keyId : String) (payload : GoValue) :
    sorted (signedEnvelope schemaVersion algorithm keyId payload) =
      signedEnvelope schemaVersion algorithm keyId (sorted payload) := by
  have horder : bytesLE "algorithm" "domain" ∧ bytesLE "domain" "key_id" ∧
      bytesLE "key_id" "payload" ∧ bytesLE "payload" "schema_version" := by decide
  obtain ⟨h1, h2, h3, h4⟩ := horder
  simp [signedEnvelope, sorted, sortedFields, sortFields, h1, h2, h3, h4]

theorem numeric_signedEnvelope {schemaVersion algorithm keyId : String} {payload : GoValue}
    (h : Numeric payload) : Numeric (signedEnvelope schemaVersion algorithm keyId payload) :=
  ⟨trivial, trivial, trivial, h, trivial, trivial⟩

theorem signedEnvelope_same {schemaVersion algorithm keyId schemaVersion' algorithm' keyId' : String}
    {v w : GoValue} :
    SameValue (signedEnvelope schemaVersion algorithm keyId v)
        (signedEnvelope schemaVersion' algorithm' keyId' w) ↔
      schemaVersion = schemaVersion' ∧ algorithm = algorithm' ∧ keyId = keyId' ∧
        SameValue v w := by
  unfold SameValue
  rw [sorted_signedEnvelope, sorted_signedEnvelope]
  constructor
  · intro h
    simp only [signedEnvelope, GoValue.object.injEq, List.cons.injEq, Prod.mk.injEq,
      GoValue.string.injEq, true_and, and_true] at h
    obtain ⟨halgorithm, hkey, hvalue, hschema⟩ := h
    exact ⟨hschema, halgorithm, hkey, hvalue⟩
  · rintro ⟨rfl, rfl, rfl, h⟩
    rw [h]

end Values

variable {codec : Codec} {server : QuilkinUdpServer}

section Bytes

theorem envelopeSigningBytes_eq_some {schemaVersion algorithm keyId : String}
    {body bytes : ByteArray} :
    envelopeSigningBytes codec schemaVersion algorithm keyId body = some bytes ↔
      ∃ v, codec.decodeValue body = some v ∧
        marshalCanonicalJson (signedEnvelope schemaVersion algorithm keyId v) = bytes :=
  Option.map_eq_some_iff

theorem canonicalJson_eq_some {body canonical : ByteArray} :
    canonicalJson codec body = some canonical ↔
      ∃ v, codec.decodeValue body = some v ∧ marshalCanonicalJson v = canonical :=
  Option.map_eq_some_iff

/-- The two bodies decode to the same value. -/
def SameBody (codec : Codec) (body other : ByteArray) : Prop :=
  ∃ v w, codec.decodeValue body = some v ∧ codec.decodeValue other = some w ∧ SameValue v w

theorem signingBytes_determine (reads : ReadsJson codec)
    {schemaVersion algorithm keyId schemaVersion' algorithm' keyId' : String}
    {body other bytes : ByteArray}
    (h : envelopeSigningBytes codec schemaVersion algorithm keyId body = some bytes)
    (h' : envelopeSigningBytes codec schemaVersion' algorithm' keyId' other = some bytes) :
    schemaVersion = schemaVersion' ∧ algorithm = algorithm' ∧ keyId = keyId' ∧
      SameBody codec body other := by
  obtain ⟨v, hv, rfl⟩ := envelopeSigningBytes_eq_some.mp h
  obtain ⟨w, hw, heq⟩ := envelopeSigningBytes_eq_some.mp h'
  have hsame := same_of_marshal_eq (numeric_signedEnvelope (reads.numeric other w hw))
    (numeric_signedEnvelope (reads.numeric body v hv)) heq
  obtain ⟨hschema, halgorithm, hkey, hvalue⟩ := signedEnvelope_same.mp hsame
  exact ⟨hschema.symm, halgorithm.symm, hkey.symm, v, w, hv, hw, hvalue.symm⟩

theorem signingBytes_of_same {schemaVersion algorithm keyId : String} {body other : ByteArray}
    (h : SameBody codec body other) :
    envelopeSigningBytes codec schemaVersion algorithm keyId body =
      envelopeSigningBytes codec schemaVersion algorithm keyId other := by
  obtain ⟨v, w, hv, hw, hsame⟩ := h
  unfold envelopeSigningBytes
  rw [hv, hw]
  exact congrArg some (marshal_eq_of_same (signedEnvelope_same.mpr ⟨rfl, rfl, rfl, hsame⟩))

theorem canonicalJson_of_same {body other : ByteArray} (h : SameBody codec body other) :
    canonicalJson codec body = canonicalJson codec other := by
  obtain ⟨v, w, hv, hw, hsame⟩ := h
  unfold canonicalJson
  rw [hv, hw]
  exact congrArg some (marshal_eq_of_same hsame)

theorem canonicalJson_same (reads : ReadsJson codec) {body canonical : ByteArray}
    (h : canonicalJson codec body = some canonical) : SameBody codec body canonical := by
  obtain ⟨v, hv, rfl⟩ := canonicalJson_eq_some.mp h
  obtain ⟨w, hw, hsame⟩ := reads.readsBack body v hv
  exact ⟨v, w, hv, hw, hsame.symm⟩

theorem canonicalJson_idempotent (reads : ReadsJson codec) {body canonical : ByteArray}
    (h : canonicalJson codec body = some canonical) :
    canonicalJson codec canonical = some canonical := by
  rw [← canonicalJson_of_same (canonicalJson_same reads h), h]

end Bytes

section Packets

/-- The parts of an envelope that a signature has to cover agree in two envelopes. -/
def SameContent (codec : Codec) (envelope envelope' : EdgeEnvelope) (auth auth' : EdgeAuth) :
    Prop :=
  envelope.schemaVersion = envelope'.schemaVersion ∧ auth.algorithm = auth'.algorithm ∧
    auth.keyId = auth'.keyId ∧ SameBody codec envelope.payload envelope'.payload

theorem accepted_covers (reads : ReadsJson codec) (checks : ChecksSignatures server)
    {packet : ByteArray} {request : AuthenticatedPayload} {envelope : EdgeEnvelope}
    {auth : EdgeAuth} (accepted : authenticatedPayload codec server packet = .ok request)
    (decoded : codec.decodeEnvelope packet = some envelope) (sealed : envelope.auth = some auth) :
    SameBody codec envelope.payload request.payload ∧
      ∃ credential bytes, usableCredential server auth.keyId = some credential ∧
        envelopeSigningBytes codec envelope.schemaVersion auth.algorithm auth.keyId
          request.payload = some bytes ∧
        codec.decodeBase64 auth.signature =
          some (codec.hmacSha256 credential.secret.toByteArray bytes) := by
  cases verified_of_authenticatedPayload checks accepted with
  | intro envelope₀ auth₀ signature credential bytes decoded₀ valid sealed₀ canonical encoded known
      covered signed named actor principal =>
    rw [decoded] at decoded₀
    cases decoded₀
    rw [sealed] at sealed₀
    cases sealed₀
    rw [signed] at encoded
    exact ⟨canonicalJson_same reads canonical, credential, bytes, known, covered, encoded⟩

theorem same_content_of_signature (reads : ReadsJson codec) (separates : SeparatesMessages codec)
    (checks : ChecksSignatures server) {packet packet' : ByteArray}
    {request request' : AuthenticatedPayload} {envelope envelope' : EdgeEnvelope}
    {auth auth' : EdgeAuth} (decoded : codec.decodeEnvelope packet = some envelope)
    (sealed : envelope.auth = some auth) (decoded' : codec.decodeEnvelope packet' = some envelope')
    (sealed' : envelope'.auth = some auth') (kept : auth'.signature = auth.signature)
    (accepted : authenticatedPayload codec server packet = .ok request)
    (accepted' : authenticatedPayload codec server packet' = .ok request') :
    SameContent codec envelope envelope' auth auth' := by
  obtain ⟨hpayload, credential, bytes, -, hbytes, hsignature⟩ :=
    accepted_covers reads checks accepted decoded sealed
  obtain ⟨hpayload', credential', bytes', -, hbytes', hsignature'⟩ :=
    accepted_covers reads checks accepted' decoded' sealed'
  rw [kept, hsignature] at hsignature'
  have hmessage : bytes = bytes' := separates _ _ _ _ (Option.some.inj hsignature')
  subst hmessage
  obtain ⟨hschema, halgorithm, hkey, hsame⟩ := signingBytes_determine reads
    ((signingBytes_of_same hpayload).trans hbytes) ((signingBytes_of_same hpayload').trans hbytes')
  exact ⟨hschema, halgorithm, hkey, hsame⟩

end Packets

/-- Equal bytes to sign come from equal schemas, algorithms, key ids and values; the canonical text
depends on the value alone and is its own canonical text; an accepted packet passes on the value that
its signature covers; and no envelope with another schema, algorithm, key id or value is accepted
with the same signature. -/
theorem signature_covers_envelope (codec : Codec) (reads : ReadsJson codec)
    (separates : SeparatesMessages codec) :
    (∀ schemaVersion algorithm keyId schemaVersion' algorithm' keyId' body other bytes,
      envelopeSigningBytes codec schemaVersion algorithm keyId body = some bytes →
      envelopeSigningBytes codec schemaVersion' algorithm' keyId' other = some bytes →
      schemaVersion = schemaVersion' ∧ algorithm = algorithm' ∧ keyId = keyId' ∧
        SameBody codec body other) ∧
    (∀ body canonical, canonicalJson codec body = some canonical →
      canonicalJson codec canonical = some canonical) ∧
    (∀ body other, SameBody codec body other →
      canonicalJson codec body = canonicalJson codec other) ∧
    ∀ server, ChecksSignatures server → ∀ packet request envelope auth,
      authenticatedPayload codec server packet = .ok request →
      codec.decodeEnvelope packet = some envelope → envelope.auth = some auth →
      (SameBody codec envelope.payload request.payload ∧
        ∃ credential bytes, usableCredential server auth.keyId = some credential ∧
          envelopeSigningBytes codec envelope.schemaVersion auth.algorithm auth.keyId
            request.payload = some bytes ∧
          codec.decodeBase64 auth.signature =
            some (codec.hmacSha256 credential.secret.toByteArray bytes)) ∧
      ∀ packet' envelope' auth', codec.decodeEnvelope packet' = some envelope' →
        envelope'.auth = some auth' → auth'.signature = auth.signature →
        ¬ SameContent codec envelope envelope' auth auth' →
        ∃ rejection, authenticatedPayload codec server packet' = .error rejection := by
  refine ⟨?_, ?_, ?_, ?_⟩
  · intro _ _ _ _ _ _ _ _ _ h h'
    exact signingBytes_determine reads h h'
  · intro _ _ h
    exact canonicalJson_idempotent reads h
  · intro _ _ h
    exact canonicalJson_of_same h
  · intro server checks packet request envelope auth accepted decoded sealed
    refine ⟨accepted_covers reads checks accepted decoded sealed, ?_⟩
    intro packet' envelope' auth' decoded' sealed' kept changed
    cases hresult : authenticatedPayload codec server packet' with
    | error rejection => exact ⟨rejection, rfl⟩
    | ok request' =>
      exact absurd (same_content_of_signature reads separates checks decoded sealed decoded' sealed'
        kept accepted hresult) changed

section Seeded

/-- The libraries of the sell order with a code that is the message itself, which is what every
signature decodes to. -/
def messageCodec : Codec :=
  { sellOrderCodec with
    hmacSha256 := fun _ message => message
    decodeBase64 := fun _ => envelopeSigningBytes sellOrderCodec "eve-trade-edge.v2" "hmac-sha256"
      "seller" "\"sell\"".toByteArray }

theorem messageCodec_reads : ReadsJson messageCodec where
  numeric := by
    intro body v h
    cases h
    trivial
  readsBack := by
    intro body v h
    cases h
    exact ⟨_, rfl, rfl⟩

theorem messageCodec_accepts :
    authenticatedPayload messageCodec guardedServer "sell".toByteArray = .ok sellOrderPayload := by
  decide +kernel

theorem signature_covers_envelope_sellOrder :
    authenticatedPayload messageCodec guardedServer "sell".toByteArray = .ok sellOrderPayload ∧
      SameBody messageCodec "sell".toByteArray sellOrderPayload.payload := by
  obtain ⟨-, -, -, hpackets⟩ :=
    signature_covers_envelope messageCodec messageCodec_reads (fun _ _ _ _ h => h)
  exact ⟨messageCodec_accepts,
    (hpackets guardedServer (.inl rfl) _ _ _ _ messageCodec_accepts rfl rfl).1.1⟩

end Seeded

end EveTrade.EnvelopeSigning
