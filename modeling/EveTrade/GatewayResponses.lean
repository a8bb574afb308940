import EveTrade.GatewayPackets

set_option autoImplicit false

/-!
# What the gateway answers

The codes and messages that stand for a failed call of the market, the bodies of errors, and what
`handlePacket` does with the result of a call: a body is recorded and sent, or sent only, so that
the call may be made again.
-/
namespace EveTrade.GatewayResponses

open FieldText SettlementTypes ValidationRules MarketRequests MarketGui

/-- The codes of `errs`. -/
inductive ErrsCode where
  | ok | canceled | unknown | invalidArgument | deadlineExceeded | notFound | alreadyExists
  | permissionDenied | resourceExhausted | failedPrecondition | aborted | outOfRange
  | unimplemented | internal | unavailable | dataLoss | unauthenticated
deriving DecidableEq

/-- Why a call has no body: a failure found by the gateway itself, or an error of the call with its
code and its text. -/
inductive CallError where
  | failure (code message : String)
  | errs (code : ErrsCode) (text : String)
deriving DecidableEq

def downstreamInternalError (message : String) : CallError := .failure "internal" message

def stableDownstreamCode : CallError → String
  | .failure code _ => code
  | .errs .deadlineExceeded _ => "downstream_timeout"
  | .errs .invalidArgument _ => "invalid_argument"
  | .errs .failedPrecondition _ => "failed_precondition"
  | .errs .permissionDenied _ => "permission_denied"
  | .errs .aborted _ => "aborted"
  | .errs .unavailable _ => "downstream_unavailable"
  | .errs _ _ => "downstream_error"

def isRetryableDownstreamCode (code : String) : Bool :=
  code == "downstream_timeout" || code == "downstream_unavailable"

/-- A text, and how many bytes of a character that was cut in two stand behind it. -/
structure ClientMessage where
  text : String
  broken : ℕ
deriving DecidableEq

def firstBytes : ℕ → List Char → List Char × ℕ
  | _, [] => ([], 0)
  | n, c :: cs =>
    if c.utf8Size ≤ n then
      let rest := firstBytes (n - c.utf8Size) cs
      (c :: rest.1, rest.2)
    else ([], n)

def sanitizeClientMessage (message : String) : ClientMessage :=
  let message := trim (String.ofList (message.toList.map fun c =>
    if c = '\n' ∨ c = '\r' then ' ' else c))
  if 240 < message.utf8ByteSize then
    let cut := firstBytes 240 message.toList
    ⟨String.ofList cut.1, cut.2⟩
  else ⟨message, 0⟩

def stableDownstreamMessage : CallError → ClientMessage
  | .failure _ message => ⟨message, 0⟩
  | .errs .deadlineExceeded _ => ⟨"downstream timeout", 0⟩
  | .errs .invalidArgument text => sanitizeClientMessage text
  | .errs .failedPrecondition text => sanitizeClientMessage text
  | .errs .permissionDenied text => sanitizeClientMessage text
  | .errs .aborted text => sanitizeClientMessage text
  | .errs .unavailable _ => ⟨"downstream unavailable", 0⟩
  | .errs _ _ => ⟨"downstream error", 0⟩

def errorResponseStatus (code : String) : String :=
  if ["request_in_progress", "downstream_timeout", "downstream_unavailable", "queue_full",
      "rate_limited", "gateway_capacity"].contains code then "retryable"
  else "rejected"

/-- The encoder writes the replacement character for each byte that is not part of a character. -/
def marshalMessage (m : ClientMessage) : String :=
  "\"" ++ String.ofList (m.text.toList.flatMap marshalChar ++
    (List.replicate m.broken ['\x5c', 'u', 'f', 'f', 'f', 'd']).flatten) ++ "\""

/-- The body of `writeError` and `writeCachedError`, a map, whose keys the encoder sorts. -/
def errorBody (interactionId code : String) (message : ClientMessage) : ByteArray :=
  (marshalObject [
    ("code", marshalString code),
    ("interaction_id", marshalString interactionId),
    ("message", marshalMessage message),
    ("status", marshalString (errorResponseStatus code))]).toByteArray

def omitEmptyString (name value : String) : List (String × String) :=
  if value = "" then [] else [(name, marshalString value)]

section Forwarding

-- the text of a time, if the encoder can write it
variable (timeText : DateTime → Option String)

def marshalResponse (r : SubmitTradeGuiInteractionResponse) : Option ByteArray :=
  (timeText r.queuedAt).map fun queuedAt => (marshalObject (
    [("interaction_id", marshalString r.interactionId),
      ("operation_id", marshalString r.operationId),
      ("queued_at", marshalString queuedAt),
      ("status", marshalString r.status)] ++
    omitEmptyString "settlement_batch_id" r.settlementBatchId ++
    omitEmptyString "trade_instance_id" r.tradeInstanceId ++
    omitEmptyString "item_stack_escrow_id" r.itemStackEscrowId ++
    omitEmptyString "wallet_escrow_id" r.walletEscrowId ++
    omitEmptyString "buyer_destination_item_stack_id" r.buyerDestinationItemStackId)).toByteArray

def identityMatchesRequest : Rule (String × String) where
  id := "gateway.market_response.identity_matches_request"
  message := "downstream response identity mismatch"
  holds := fun ids => ids.1 == ids.2

def identityViolations (requestInteractionId responseInteractionId : String) : List Violation :=
  identityMatchesRequest.check "" (requestInteractionId, responseInteractionId) ++
  nonBlankString.check "request_interaction_id" requestInteractionId ++
  nonBlankString.check "response_interaction_id" responseInteractionId

/-- What the market answers to a call: an error with its code and text, no response, or one. -/
abbrev MarketAnswer := Except (ErrsCode × String) (Option SubmitTradeGuiInteractionResponse)

def forwardToMarket (interactionId : String) : MarketAnswer → Except CallError ByteArray
  | .error (code, text) => .error (.errs code text)
  | .ok none => .error (.failure "downstream_unavailable" "downstream unavailable")
  | .ok (some response) =>
    if identityViolations interactionId response.interactionId ≠ [] then
      .error (downstreamInternalError "downstream response identity mismatch")
    else
      match marshalResponse timeText response with
      | none => .error (downstreamInternalError "internal error")
      | some body => .ok body

/-- The end of `handlePacket`: the body that is sent, and whether it is recorded first. -/
structure Conclusion where
  recorded : Bool
  body : ByteArray

def conclude (interactionId : String) : Except CallError ByteArray → Conclusion
  | .ok body => ⟨true, body⟩
  | .error e =>
    ⟨!isRetryableDownstreamCode (stableDownstreamCode e),
      errorBody interactionId (stableDownstreamCode e) (stableDownstreamMessage e)⟩

end Forwarding

section Signing

variable (codec : GatewayPackets.Codec) (marshalEnvelope : GatewayPackets.EdgeEnvelope → ByteArray)
  (server : GatewayPackets.QuilkinUdpServer)

def edgeResponseEnvelopeSchema : String := "eve-trade-edge-response.v2"

def hmacSha256Name : String := "hmac-sha256"

def maxUdpResponseBytes : ℕ := 1200

/-- The envelope in which `writeResponse` sends a body, if the gateway has a secret. -/
def responseEnvelope (body : ByteArray) : Except String GatewayPackets.EdgeEnvelope :=
  match GatewayPackets.canonicalJson codec body with
  | none => .error "canonicalize UDP response"
  | some canonicalBody =>
    match GatewayPackets.envelopeSigningBytes codec edgeResponseEnvelopeSchema hmacSha256Name
        server.hmacKeyId canonicalBody with
    | none => .error "bind UDP response authentication metadata"
    | some signingBytes =>
      let signature := codec.encodeBase64 (codec.hmacSha256 server.hmacSecret signingBytes)
      .ok ⟨edgeResponseEnvelopeSchema, canonicalBody,
        some ⟨hmacSha256Name, server.hmacKeyId, signature⟩⟩

def writeResponse (body : ByteArray) : Except String ByteArray := do
  let responseBody ←
    if 0 < server.hmacSecret.size then (responseEnvelope codec server body).map marshalEnvelope
    else pure body
  if maxUdpResponseBytes < responseBody.size then
    .error "UDP response exceeds 1200 byte limit"
  else pure responseBody

end Signing

section Texts

variable {body : ByteArray} {interactionId : String} {answer : MarketAnswer}

theorem toList_marshalObject_cons (f : String × String) (fs : List (String × String)) :
    ∃ rest, (marshalObject (f :: fs)).toList =
      '\x7b' :: ((marshalString f.1).toList ++ ':' :: (f.2.toList ++ rest)) := by
  cases fs with
  | nil => exact ⟨['\x7d'], by simp [marshalObject]⟩
  | cons g gs => exact ⟨_, by simp [marshalObject]; rfl⟩

/-- The text of a body, up to the end of its first field. -/
def StartsWith (body : ByteArray) (name value : String) : Prop :=
  ∃ text : String, body = text.toByteArray ∧
    ∃ rest, text.toList = '\x7b' :: ((marshalString name).toList ++ ':' ::
      ((marshalString value).toList ++ rest))

theorem errorBody_startsWith (interactionId code : String) (message : ClientMessage) :
    StartsWith (errorBody interactionId code message) "code" code :=
  ⟨_, rfl, toList_marshalObject_cons ("code", marshalString code) _⟩

theorem marshalResponse_startsWith {timeText : DateTime → Option String}
    {r : SubmitTradeGuiInteractionResponse} (h : marshalResponse timeText r = some body) :
    StartsWith body "interaction_id" r.interactionId := by
  obtain ⟨queuedAt, -, rfl⟩ := Option.map_eq_some_iff.mp h
  exact ⟨_, rfl, toList_marshalObject_cons ("interaction_id", marshalString r.interactionId) _⟩

theorem StartsWith.size_ne_zero {name value : String}
    (h : StartsWith body name value) : body.size ≠ 0 := by
  obtain ⟨text, rfl, rest, htext⟩ := h
  intro hsize
  have hempty : text = "" := by
    apply String.toByteArray_inj.mp
    exact ByteArray.size_eq_zero_iff.mp hsize
  rw [hempty] at htext
  cases htext

theorem StartsWith.ne {body other : ByteArray} {name value name' value' : String}
    (h : StartsWith body name value) (h' : StartsWith other name' value')
    (hne : ((marshalString name).toList ++ ':' :: (marshalString value).toList).take 9 ≠
      ((marshalString name').toList ++ ':' :: (marshalString value').toList).take 9)
    (hlen : 9 ≤ ((marshalString name).toList ++ ':' :: (marshalString value).toList).length)
    (hlen' : 9 ≤ ((marshalString name').toList ++ ':' :: (marshalString value').toList).length) :
    body ≠ other := by
  rintro rfl
  obtain ⟨text, hbody, rest, htext⟩ := h
  obtain ⟨text', hbody', rest', htext'⟩ := h'
  obtain rfl := String.toByteArray_inj.mp (hbody.symm.trans hbody')
  have heq := (List.cons.inj (htext.symm.trans htext')).2
  have hsplit : ∀ (n v r : List Char), n ++ ':' :: (v ++ r) = (n ++ ':' :: v) ++ r := by simp
  rw [hsplit, hsplit] at heq
  have htake := congrArg (List.take 9) heq
  rw [List.take_append_of_le_length hlen, List.take_append_of_le_length hlen'] at htake
  exact hne htake

theorem forwardToMarket_ok {timeText : DateTime → Option String}
    (h : forwardToMarket timeText interactionId answer = .ok body) :
    StartsWith body "interaction_id" interactionId := by
  cases answer with
  | error e => cases h
  | ok response =>
    cases response with
    | none => cases h
    | some response =>
      simp only [forwardToMarket] at h
      split_ifs at h with hidentity
      cases hmarshal : marshalResponse timeText response with
      | none => simp [hmarshal] at h
      | some marshalled =>
        simp only [hmarshal, Except.ok.injEq] at h
        subst h
        have hsame : interactionId = response.interactionId := by
          simp only [not_not, identityViolations, List.append_eq_nil_iff] at hidentity
          simpa [identityMatchesRequest] using Rule.check_eq_nil.1 hidentity.1.1
        rw [hsame]
        exact marshalResponse_startsWith hmarshal

/-- The codes of failed calls that are not made again. -/
def permanentCodes : List String :=
  ["internal", "invalid_argument", "failed_precondition", "permission_denied", "aborted",
    "downstream_error"]

theorem forwardToMarket_error {timeText : DateTime → Option String} {e : CallError}
    (h : forwardToMarket timeText interactionId answer = .error e)
    (hpermanent : isRetryableDownstreamCode (stableDownstreamCode e) = false) :
    stableDownstreamCode e ∈ permanentCodes := by
  cases answer with
  | error failed =>
    obtain ⟨code, text⟩ := failed
    cases h
    cases code <;> simp only [stableDownstreamCode] at hpermanent ⊢ <;> revert hpermanent <;> decide
  | ok response =>
    cases response with
    | none =>
      cases h
      revert hpermanent
      decide
    | some response =>
      simp only [forwardToMarket] at h
      split_ifs at h with hidentity
      · cases h
        simp only [downstreamInternalError, stableDownstreamCode]
        decide
      · cases hmarshal : marshalResponse timeText response with
        | none =>
          simp only [hmarshal, Except.error.injEq] at h
          subst h
          simp only [downstreamInternalError, stableDownstreamCode]
          decide
        | some marshalled => simp [hmarshal] at h

/-- A body that is recorded is not empty, and it is not the refusal of a packet that reuses an
id. -/
theorem conclude_recorded {timeText : DateTime → Option String}
    (h : conclude interactionId (forwardToMarket timeText interactionId answer) = ⟨true, body⟩) :
    body.size ≠ 0 ∧ ∀ id message, body ≠ errorBody id "replay" message := by
  cases hforward : forwardToMarket timeText interactionId answer with
  | ok sent =>
    rw [hforward] at h
    cases h
    have hstart := forwardToMarket_ok hforward
    refine ⟨hstart.size_ne_zero, fun id message => ?_⟩
    refine hstart.ne (errorBody_startsWith id "replay" message) ?_ ?_ (by decide)
    · rw [List.take_append_of_le_length (by decide)]
      decide
    · rw [List.length_append]
      exact le_trans (by decide) (Nat.le_add_right _ _)
  | error e =>
    rw [hforward] at h
    obtain ⟨hrecorded, rfl⟩ := Conclusion.mk.inj h
    have hstart := errorBody_startsWith interactionId (stableDownstreamCode e)
      (stableDownstreamMessage e)
    refine ⟨hstart.size_ne_zero, fun id message => ?_⟩
    have hcode := forwardToMarket_error hforward (by simpa using hrecorded)
    refine hstart.ne (errorBody_startsWith id "replay" message) ?_ ?_ (by decide)
    · revert hcode
      generalize stableDownstreamCode e = code
      revert code
      decide
    · revert hcode
      generalize stableDownstreamCode e = code
      revert code
      decide

end Texts

end EveTrade.GatewayResponses
