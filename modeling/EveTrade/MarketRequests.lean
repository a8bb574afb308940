import EveTrade.GameTrade

set_option autoImplicit false

/-!
# Requests to the market

The three requests, the rules they declare, and the fingerprint by which the market knows a request
again.
-/
namespace EveTrade.MarketRequests

open FieldText JsonText SettlementTypes ValidationRules GameTrade

inductive ErrCode where
  | invalidArgument | permissionDenied | failedPrecondition | aborted | unavailable
deriving DecidableEq

structure ApiError where
  code : ErrCode
  message : String
deriving DecidableEq

structure IssueTradeInstanceRequest where
  idempotencyKey : String
  externalRequestId : String
  issuedByCapsuleerId : Int
  itemStack : Option ItemStackRow
  quantity : Int
  unitPriceIsk : Int
  expiresAt : Option DateTime
deriving DecidableEq

structure AcceptTradeInstanceRequest where
  idempotencyKey : String
  externalRequestId : String
  tradeInstanceId : String
  buyerCapsuleerId : Int
  quantityRequested : Int
  buyerWalletId : String
  buyerDestinationItemStackId : String
deriving DecidableEq

structure CancelTradeInstanceRequest where
  idempotencyKey : String
  externalRequestId : String
  tradeInstanceId : String
  cancelledByCapsuleerId : Int
deriving DecidableEq

section Rules

variable (now : DateTime)

/-- A message field that is not set reads as a message of zeros. -/
def stackOrZero (s : Option ItemStackRow) : ItemStackRow := s.getD ⟨"", 0, 0, 0, 0⟩

def issueItemOwnerMatchesActor : Rule IssueTradeInstanceRequest where
  id := "market.issue.item_owner_matches_actor"
  message := "item stack owner must match issued_by_capsuleer_id"
  holds := fun r => (stackOrZero r.itemStack).ownerId == r.issuedByCapsuleerId

def issueQuantityAvailable : Rule IssueTradeInstanceRequest where
  id := "market.issue.quantity_available"
  message := "item stack quantity is lower than requested issue quantity"
  holds := fun r => decide (r.quantity ≤ (stackOrZero r.itemStack).quantity)

def requiredStack (fieldPath : String) : Option ItemStackRow → List Violation
  | none => required.check fieldPath false
  | some s => within fieldPath s.violations

def IssueTradeInstanceRequest.violations (r : IssueTradeInstanceRequest) : List Violation :=
  issueItemOwnerMatchesActor.check "" r ++
  issueQuantityAvailable.check "" r ++
  nonBlankString.check "idempotency_key" r.idempotencyKey ++
  positiveInt64.check "issued_by_capsuleer_id" r.issuedByCapsuleerId ++
  requiredStack "item_stack" r.itemStack ++
  positiveInt64.check "quantity" r.quantity ++
  positiveInt64.check "unit_price_isk" r.unitPriceIsk ++
  (gtNow now).checkPresent "expires_at" r.expiresAt

def AcceptTradeInstanceRequest.violations (r : AcceptTradeInstanceRequest) : List Violation :=
  nonBlankString.check "idempotency_key" r.idempotencyKey ++
  uuidString.check "trade_instance_id" r.tradeInstanceId ++
  positiveInt64.check "buyer_capsuleer_id" r.buyerCapsuleerId ++
  positiveInt64.check "quantity_requested" r.quantityRequested ++
  uuidString.check "buyer_wallet_id" r.buyerWalletId ++
  optionalUuidString.check "buyer_destination_item_stack_id" r.buyerDestinationItemStackId

def CancelTradeInstanceRequest.violations (r : CancelTradeInstanceRequest) : List Violation :=
  nonBlankString.check "idempotency_key" r.idempotencyKey ++
  uuidString.check "trade_instance_id" r.tradeInstanceId ++
  positiveInt64.check "cancelled_by_capsuleer_id" r.cancelledByCapsuleerId

def validateMarketProto (ext : External) (violations : List Violation) : Except ApiError Unit :=
  if violations = [] then .ok ()
  else .error ⟨.invalidArgument, ext.violationsText violations⟩

end Rules

section Fingerprint

/-- `encoding/json` also escapes what could end a script element. -/
def marshalChar (c : Char) : List Char :=
  if c = '<' ∨ c = '>' ∨ c = '&' then
    ['\x5c', 'u', '0', '0', hexDigit (c.toNat / 16), hexDigit (c.toNat % 16)]
  else if c.toNat = 8232 then ['\x5c', 'u', '2', '0', '2', '8']
  else if c.toNat = 8233 then ['\x5c', 'u', '2', '0', '2', '9']
  else escapeChar c

def marshalString (s : String) : String :=
  "\"" ++ String.ofList (s.toList.flatMap marshalChar) ++ "\""

def marshalInt (n : Int) : String := String.ofList (numberText n)

def marshalObject (fields : List (String × String)) : String :=
  "\x7b" ++ ",".intercalate (fields.map fun f => marshalString f.1 ++ ":" ++ f.2) ++ "\x7d"

def marshalPointer {α : Type} (f : α → String) : Option α → String
  | none => "null"
  | some a => f a

/-- A field with `omitempty` is left out when it is zero. -/
def omitEmpty (name : String) (n : Int) : List (String × String) :=
  if n = 0 then [] else [(name, marshalInt n)]

def marshalTimestamp (t : DateTime) : String :=
  marshalObject (omitEmpty "seconds" (t / 1000000000) ++ omitEmpty "nanos" (t % 1000000000))

def marshalItemStack (s : ItemStackRow) : String :=
  marshalObject [("item_stack_id", marshalString s.itemStackId), ("owner_id", marshalInt s.ownerId),
    ("item_type_id", marshalInt s.itemTypeId), ("station_id", marshalInt s.stationId),
    ("quantity", marshalInt s.quantity)]

def IssueTradeInstanceRequest.marshal (r : IssueTradeInstanceRequest) : String :=
  marshalObject [
    ("IdempotencyKey", marshalString r.idempotencyKey),
    ("ExternalRequestID", marshalString r.externalRequestId),
    ("IssuedByCapsuleerID", marshalInt r.issuedByCapsuleerId),
    ("ItemStack", marshalPointer marshalItemStack r.itemStack),
    ("Quantity", marshalInt r.quantity),
    ("UnitPriceISK", marshalInt r.unitPriceIsk),
    ("ExpiresAt", marshalPointer marshalTimestamp r.expiresAt)]

def AcceptTradeInstanceRequest.marshal (r : AcceptTradeInstanceRequest) : String :=
  marshalObject [
    ("IdempotencyKey", marshalString r.idempotencyKey),
    ("ExternalRequestID", marshalString r.externalRequestId),
    ("TradeInstanceID", marshalString r.tradeInstanceId),
    ("BuyerCapsuleerID", marshalInt r.buyerCapsuleerId),
    ("QuantityRequested", marshalInt r.quantityRequested),
    ("BuyerWalletID", marshalString r.buyerWalletId),
    ("BuyerDestinationItemStackID", marshalString r.buyerDestinationItemStackId)]

def CancelTradeInstanceRequest.marshal (r : CancelTradeInstanceRequest) : String :=
  marshalObject [
    ("IdempotencyKey", marshalString r.idempotencyKey),
    ("ExternalRequestID", marshalString r.externalRequestId),
    ("TradeInstanceID", marshalString r.tradeInstanceId),
    ("CancelledByCapsuleerID", marshalInt r.cancelledByCapsuleerId)]

inductive RequestKind where
  | issueTradeInstance | acceptTradeInstance | cancelTradeInstance
deriving DecidableEq

def RequestKind.text : RequestKind → String
  | issueTradeInstance => "issue_trade_instance"
  | acceptTradeInstance => "accept_trade_instance"
  | cancelTradeInstance => "cancel_trade_instance"

def marketRequestFingerprint (ext : External) (kind : RequestKind) (body : String) : String :=
  "market." ++ kind.text ++ ".sha256:" ++ ext.sha256Hex (kind.text ++ ":" ++ body)

end Fingerprint

example : marshalObject [("a", marshalString "<b>"), ("n", marshalInt (-7))] =
    "\x7b\"a\":\"\\u003cb\\u003e\",\"n\":-7\x7d" := by decide +kernel

end EveTrade.MarketRequests
