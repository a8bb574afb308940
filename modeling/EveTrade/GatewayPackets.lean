import EveTrade.GoJson
import EveTrade.MarketGui
import Mathlib

set_option autoImplicit false

/-!
# Packets at the gateway

The keyring of principals, the envelope of a packet, the check of its signature, and the check that
the actor whom the payload names is the principal who signed it. A packet that passes all of them is
admitted with the canonical text of its payload.
-/
namespace EveTrade.GatewayPackets

open FieldText TransactionMonad ValidationRules GoJson MarketGui

structure UdpPrincipalCredential where
  capsuleerId : Int
  secret : String
deriving DecidableEq

structure EdgeAuth where
  algorithm : String
  keyId : String
  signature : String
deriving DecidableEq

/-- An envelope with the bytes of its payload as they were sent, none of them if it has no payload. -/
structure EdgeEnvelope where
  schemaVersion : String
  payload : ByteArray
  auth : Option EdgeAuth
deriving DecidableEq

structure GuiPacketHeader where
  schemaVersion : String
  interactionId : String
deriving DecidableEq

/-- What the decoder finds where the keyring has its next entry. -/
inductive KeyringEntry where
  | unreadable (error : String)
  | notString
  | entry (keyId : String) (credential : Except String UdpPrincipalCredential)

/-- The text of a keyring as the decoder hands it out token by token. -/
structure KeyringText where
  opening : Except String Bool
  entries : List KeyringEntry
  closing : Option String
  trailing : Option String

/-- The libraries that the gateway works with. -/
structure Codec where
  text : ByteArray → String
  quote : String → String
  readKeyring : String → KeyringText
  decodeEnvelope : ByteArray → Option EdgeEnvelope
  unmarshalEnvelope : ByteArray → Option EdgeEnvelope
  decodeHeader : ByteArray → Option GuiPacketHeader
  decodeValue : ByteArray → Option GoValue
  decodeBase64 : String → Option ByteArray
  encodeBase64 : ByteArray → String
  sha256 : ByteArray → ByteArray
  hmacSha256 (secret message : ByteArray) : ByteArray
  protojson : ProtoJson

section Keyring

variable (codec : Codec)

structure Keyring where
  credentials : List (String × UdpPrincipalCredential)
  capsuleerKeys : List (Int × String)
  secretKeys : List (ByteArray × String)

def validCredential (keyId : String) (credential : UdpPrincipalCredential) : Prop :=
  trim keyId ≠ "" ∧ 0 < credential.capsuleerId ∧ trim credential.secret ≠ ""

instance (keyId : String) (credential : UdpPrincipalCredential) :
    Decidable (validCredential keyId credential) :=
  inferInstanceAs (Decidable (_ ∧ _ ∧ _))

def invalidCredential (keyId : String) : String :=
  s!"API_GATEWAY_UDP_PRINCIPAL_KEYS_JSON contains an invalid credential for key {codec.quote keyId}"

def secretFingerprint (credential : UdpPrincipalCredential) : ByteArray :=
  codec.sha256 credential.secret.toByteArray

/-- The credential with its secret trimmed joins the keyring unless its capsuleer or its secret is
there already. -/
def addCredential (ring : Keyring) (keyId : String) (sent : UdpPrincipalCredential) :
    Except String Keyring := do
  check (validCredential keyId sent) (invalidCredential codec keyId)
  match ring.capsuleerKeys.lookup sent.capsuleerId with
  | some previous => .error s!"API_GATEWAY_UDP_PRINCIPAL_KEYS_JSON maps capsuleer {sent.capsuleerId} to duplicate key IDs {codec.quote previous} and {codec.quote keyId}"
  | none =>
    let credential := { sent with secret := trim sent.secret }
    match ring.secretKeys.find? fun key => key.1 = secretFingerprint codec credential with
    | some previous => .error s!"API_GATEWAY_UDP_PRINCIPAL_KEYS_JSON reuses secret material for key IDs {codec.quote previous.2} and {codec.quote keyId}"
    | none => .ok {
        credentials := (keyId, credential) :: ring.credentials
        capsuleerKeys := (credential.capsuleerId, keyId) :: ring.capsuleerKeys
        secretKeys := (secretFingerprint codec credential, keyId) :: ring.secretKeys }

def addEntry (ring : Keyring) : KeyringEntry → Except String Keyring
  | .unreadable e => .error s!"parse API_GATEWAY_UDP_PRINCIPAL_KEYS_JSON: {e}"
  | .notString => .error "parse API_GATEWAY_UDP_PRINCIPAL_KEYS_JSON: key ID is not a string"
  | .entry keyId credential =>
    if (ring.credentials.lookup keyId).isSome then
      .error s!"API_GATEWAY_UDP_PRINCIPAL_KEYS_JSON contains duplicate key ID {codec.quote keyId}"
    else
      match credential with
      | .error e => .error s!"parse API_GATEWAY_UDP_PRINCIPAL_KEYS_JSON credential {codec.quote keyId}: {e}"
      | .ok credential => addCredential codec ring keyId credential

def addEntries (ring : Keyring) : List KeyringEntry → Except String Keyring
  | [] => .ok ring
  | e :: es => do addEntries (← addEntry codec ring e) es

def unparsed : Option String → Except String Unit
  | none => .ok ()
  | some e => .error s!"parse API_GATEWAY_UDP_PRINCIPAL_KEYS_JSON: {e}"

def opened : Except String Bool → Except String Unit
  | .error e => unparsed (some e)
  | .ok false => unparsed (some "principal keyring must be a JSON object")
  | .ok true => .ok ()

def parseUdpPrincipalKeys (value : String) :
    Except String (List (String × UdpPrincipalCredential)) :=
  if trim value = "" then .ok []
  else do
    let text := codec.readKeyring (trim value)
    opened text.opening
    let ring ← addEntries codec ⟨[], [], []⟩ text.entries
    unparsed text.closing
    unparsed text.trailing
    match ring.credentials.find? fun c => ¬ validCredential c.1 c.2 with
    | some c => .error (invalidCredential codec c.1)
    | none => .ok ring.credentials

end Keyring

structure PacketRejection where
  code : String
  clientMessage : String
deriving DecidableEq

def malformedPacket : PacketRejection := ⟨"malformed_packet", "malformed packet"⟩

def invalidSignature : PacketRejection := ⟨"invalid_signature", "invalid signature"⟩

def orReject {α : Type} (rejection : PacketRejection) : Option α → Except PacketRejection α
  | none => .error rejection
  | some a => .ok a

section Envelope

def EdgeAuth.violations (auth : EdgeAuth) : List Violation :=
  hmacSha256Algorithm.check "algorithm" auth.algorithm ++
  nonBlankString.check "key_id" auth.keyId ++
  nonBlankString.check "signature" auth.signature

def trimAuth (auth : EdgeAuth) : EdgeAuth :=
  ⟨trim auth.algorithm, trim auth.keyId, trim auth.signature⟩

def envelopeViolations (codec : Codec) (envelope : EdgeEnvelope) : List Violation :=
  edgeSchemaVersion.check "schema_version" (trim envelope.schemaVersion) ++
  nonBlankString.check "payload_json" (trim (codec.text envelope.payload)) ++
  requiredMessage "auth" EdgeAuth.violations (envelope.auth.map trimAuth)

def violationRejection (v : Violation) : Option PacketRejection :=
  if v.ruleId = "eve.string.edge_schema_version" then
    some ⟨"unsupported_envelope", "unsupported packet envelope"⟩
  else if v.fieldPath = "payload_json" then some ⟨"empty_payload", "empty payload"⟩
  else if v.fieldPath = "auth" then some ⟨"missing_signature", "missing signature"⟩
  else if v.ruleId = "eve.string.hmac_sha256_algorithm" then
    some ⟨"unsupported_signature", "unsupported signature"⟩
  else if v.fieldPath.startsWith "auth." then some invalidSignature
  else none

def edgeEnvelopeRejection (vs : List Violation) : PacketRejection :=
  (vs.findSome? violationRejection).getD malformedPacket

def validateEdgeEnvelope (codec : Codec) (envelope : EdgeEnvelope) : Except PacketRejection Unit :=
  check (envelopeViolations codec envelope = [])
    (edgeEnvelopeRejection (envelopeViolations codec envelope))

end Envelope

section Actor

structure AuthenticatedTradeGuiActor where
  authenticatedCapsuleerId : Int
  action : String
  issuedByCapsuleerId : Int
  buyerCapsuleerId : Int
  cancelledByCapsuleerId : Int
  itemStackOwnerId : Int
  sellerCapsuleerId : Int
  acceptedByCapsuleerId : Int
  delegatedCapsuleerId : Int

/-- One of the rules that bind the actor of an action to the principal. -/
def actorMatchesPrincipal (id message : String) (actions : List String)
    (field : AuthenticatedTradeGuiActor → Int) : Rule AuthenticatedTradeGuiActor where
  id := id
  message := message
  holds := fun a => !actions.contains a.action || field a == a.authenticatedCapsuleerId

def issueMatchesPrincipal : Rule AuthenticatedTradeGuiActor :=
  actorMatchesPrincipal "gateway.actor.issue_matches_principal"
    "authenticated capsuleer does not match issue actor" issueActions (·.issuedByCapsuleerId)

def acceptMatchesPrincipal : Rule AuthenticatedTradeGuiActor :=
  actorMatchesPrincipal "gateway.actor.accept_matches_principal"
    "authenticated capsuleer does not match accept actor" acceptActions (·.buyerCapsuleerId)

def cancelMatchesPrincipal : Rule AuthenticatedTradeGuiActor :=
  actorMatchesPrincipal "gateway.actor.cancel_matches_principal"
    "authenticated capsuleer does not match cancel actor" cancelActions (·.cancelledByCapsuleerId)

/-- An unset field claims nothing. -/
def claimMatches (a : AuthenticatedTradeGuiActor) (claim : Int) : Bool :=
  claim == 0 || claim == a.authenticatedCapsuleerId

def itemStackOwnerMatchesPrincipal : Rule AuthenticatedTradeGuiActor where
  id := "gateway.actor.item_stack_owner_matches_principal"
  message := "authenticated capsuleer does not match item stack owner"
  holds := fun a => claimMatches a a.itemStackOwnerId

def allKnownActorClaimsMatchPrincipal : Rule AuthenticatedTradeGuiActor where
  id := "gateway.actor.all_known_actor_claims_match_principal"
  message := "authenticated capsuleer does not match actor field"
  holds := fun a => claimMatches a a.issuedByCapsuleerId && claimMatches a a.buyerCapsuleerId &&
    claimMatches a a.cancelledByCapsuleerId && claimMatches a a.sellerCapsuleerId &&
    claimMatches a a.acceptedByCapsuleerId && claimMatches a a.delegatedCapsuleerId

def AuthenticatedTradeGuiActor.violations (a : AuthenticatedTradeGuiActor) : List Violation :=
  issueMatchesPrincipal.check "" a ++
  acceptMatchesPrincipal.check "" a ++
  cancelMatchesPrincipal.check "" a ++
  itemStackOwnerMatchesPrincipal.check "" a ++
  allKnownActorClaimsMatchPrincipal.check "" a ++
  positiveInt64.check "authenticated_capsuleer_id" a.authenticatedCapsuleerId ++
  tradeGuiAction.check "action" a.action

def mismatchedActorField (a : AuthenticatedTradeGuiActor) : String :=
  let claims := [("issued_by_capsuleer_id", a.issuedByCapsuleerId),
    ("buyer_capsuleer_id", a.buyerCapsuleerId),
    ("cancelled_by_capsuleer_id", a.cancelledByCapsuleerId),
    ("seller_capsuleer_id", a.sellerCapsuleerId),
    ("accepted_by_capsuleer_id", a.acceptedByCapsuleerId),
    ("delegated_capsuleer_id", a.delegatedCapsuleerId)]
  match claims.find? fun c => !claimMatches a c.2 with
  | some c => c.1
  | none => "actor field"

/-- A missing actor is told apart from another's. -/
def principalRejection (claim : Int) : PacketRejection :=
  if claim ≤ 0 then ⟨"missing_principal", "capsuleer identity is required"⟩
  else ⟨"principal_mismatch", "authenticated capsuleer does not match request actor"⟩

def actorViolationRejection (a : AuthenticatedTradeGuiActor) (v : Violation) :
    Option PacketRejection :=
  if v.ruleId = "eve.string.trade_gui_action" then
    some ⟨"unsupported_action", "unsupported trade GUI action"⟩
  else if v.ruleId = "gateway.actor.issue_matches_principal" then
    some (principalRejection a.issuedByCapsuleerId)
  else if v.ruleId = "gateway.actor.accept_matches_principal" then
    some (principalRejection a.buyerCapsuleerId)
  else if v.ruleId = "gateway.actor.cancel_matches_principal" then
    some (principalRejection a.cancelledByCapsuleerId)
  else if v.ruleId = "gateway.actor.item_stack_owner_matches_principal" then
    some ⟨"principal_mismatch", "authenticated capsuleer does not match item_stack.owner_id"⟩
  else if v.ruleId = "gateway.actor.all_known_actor_claims_match_principal" then
    some ⟨"principal_mismatch", s!"authenticated capsuleer does not match {mismatchedActorField a}"⟩
  else none

def actorRejection (a : AuthenticatedTradeGuiActor) : PacketRejection :=
  (a.violations.findSome? (actorViolationRejection a)).getD malformedPacket

def authenticatedActor (i : TradeGuiInteraction) (authenticatedCapsuleerId : Int) :
    AuthenticatedTradeGuiActor where
  authenticatedCapsuleerId := authenticatedCapsuleerId
  action := trim i.getUi.action
  issuedByCapsuleerId := i.getInput.issuedByCapsuleerId
  buyerCapsuleerId := i.getInput.buyerCapsuleerId
  cancelledByCapsuleerId := i.getInput.cancelledByCapsuleerId
  itemStackOwnerId := match i.getInput.itemStack with
    | none => 0
    | some s => s.ownerId
  sellerCapsuleerId := i.getInput.sellerCapsuleerId
  acceptedByCapsuleerId := i.getInput.acceptedByCapsuleerId
  delegatedCapsuleerId := i.getInput.delegatedCapsuleerId

def validateAuthenticatedActor (codec : Codec) (rawPayload : ByteArray)
    (authenticatedCapsuleerId : Int) : Except PacketRejection Unit :=
  match codec.protojson.unmarshal true rawPayload with
  | .error _ => .error malformedPacket
  | .ok interaction =>
    let actor := authenticatedActor interaction authenticatedCapsuleerId
    check (actor.violations = []) (actorRejection actor)

end Actor

section Signing

variable (codec : Codec)

def canonicalJson (body : ByteArray) : Option ByteArray :=
  (codec.decodeValue body).map marshalCanonicalJson

def envelopeSigningDomain : String := "eve-trade.udp-envelope.hmac-sha256.v1"

def envelopeSigningBytes (schemaVersion algorithm keyId : String) (canonicalBody : ByteArray) :
    Option ByteArray :=
  (codec.decodeValue canonicalBody).map fun payload => marshalCanonicalJson (.object [
    ("algorithm", .string algorithm),
    ("domain", .string envelopeSigningDomain),
    ("key_id", .string keyId),
    ("payload", payload),
    ("schema_version", .string schemaVersion)])

def extractInteractionId (rawPayload : ByteArray) : Option String :=
  (codec.decodeHeader rawPayload).map fun header =>
    if header.schemaVersion = "eve-trade-gui.v1" then trim header.interactionId else ""

/-- The id to answer with when nothing better is known. -/
def bestEffortInteractionId (packet : ByteArray) : String :=
  let enclosed := do
    let envelope ← codec.unmarshalEnvelope packet
    if 0 < envelope.payload.size then extractInteractionId codec envelope.payload else none
  (enclosed.or (extractInteractionId codec packet)).getD ""

end Signing

structure QuilkinUdpServer where
  authRequired : Bool
  hmacSecret : ByteArray
  hmacKeyId : String
  principals : List (String × UdpPrincipalCredential)

structure AuthenticatedPayload where
  payload : ByteArray
  interactionId : String
  principalId : Int
deriving DecidableEq

section Admission

variable (codec : Codec) (server : QuilkinUdpServer)

/-- The credential of a key id, if the gateway can use it. -/
def usableCredential (keyId : String) : Option UdpPrincipalCredential :=
  (server.principals.lookup keyId).filter fun c => 0 < c.capsuleerId && trim c.secret != ""

def authenticatedPayload (packet : ByteArray) : Except PacketRejection AuthenticatedPayload :=
  if server.authRequired = false ∧ server.hmacSecret.size = 0 then do
    let interactionId ← orReject malformedPacket (extractInteractionId codec packet)
    pure ⟨packet, interactionId, 0⟩
  else if server.hmacSecret.size = 0 then
    .error ⟨"auth_not_configured", "authentication unavailable"⟩
  else do
    let envelope ← orReject malformedPacket (codec.decodeEnvelope packet)
    validateEdgeEnvelope codec envelope
    let auth ← orReject malformedPacket envelope.auth
    let canonicalPayload ← orReject malformedPacket (canonicalJson codec envelope.payload)
    let signature ← orReject invalidSignature (codec.decodeBase64 auth.signature)
    let credential ← orReject invalidSignature (usableCredential server auth.keyId)
    let signingBytes ← orReject malformedPacket
      (envelopeSigningBytes codec envelope.schemaVersion auth.algorithm auth.keyId canonicalPayload)
    check (signature = codec.hmacSha256 credential.secret.toByteArray signingBytes) invalidSignature
    let interactionId ← orReject malformedPacket (extractInteractionId codec canonicalPayload)
    validateAuthenticatedActor codec canonicalPayload credential.capsuleerId
    pure ⟨canonicalPayload, interactionId, credential.capsuleerId⟩

/-- What `handlePacket` has decided when it comes to the replay check. -/
inductive Admission where
  | dropped
  | refused (interactionId code message : String)
  | admitted (request : AuthenticatedPayload)

def receive (sourceAllowed principalAllowed : Bool) (packet : ByteArray) : Admission :=
  if packet.size = 0 then .refused "" "empty_packet" "empty packet"
  else if sourceAllowed = false then .dropped
  else
    match authenticatedPayload codec server packet with
    | .error rejection =>
      .refused (bestEffortInteractionId codec packet) rejection.code rejection.clientMessage
    | .ok request =>
      let interactionId :=
        if request.interactionId ≠ "" then request.interactionId
        else bestEffortInteractionId codec packet
      if principalAllowed = false then .refused interactionId "rate_limited" "rate limited"
      else if interactionId = "" then
        .refused interactionId "missing_interaction_id" "missing interaction_id"
      else .admitted { request with interactionId := interactionId }

end Admission

end EveTrade.GatewayPackets
