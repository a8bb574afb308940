import EveTrade.MarketRepository

set_option autoImplicit false

/-!
# Replays

A request whose key has a completed settlement is answered from what settlement has stored, if that
is what the request asks for.
-/
namespace EveTrade.MarketReplay

open JsonText SettlementTypes SettlementSchema GameTrade MarketRequests MarketRepository

structure IssueTradeInstanceResult where
  operationId : String
  queuedAt : DateTime
  tradeInstanceId : String
  itemStackEscrowId : String
  settlementBatchId : String
deriving DecidableEq

structure AcceptTradeInstanceResult where
  operationId : String
  queuedAt : DateTime
  walletEscrowId : String
  buyerDestinationItemStackId : String
  settlementBatchId : String
deriving DecidableEq

structure CancelTradeInstanceResult where
  operationId : String
  queuedAt : DateTime
  settlementBatchId : String
deriving DecidableEq

section Payloads

/-- The payload of the first step of a kind, if that step has one. -/
def replayPayload (replay : IdempotencyReplay) (kind : String) : Option Json :=
  match replay.steps.find? fun step => step.stepKind = kind with
  | none => none
  | some step =>
    match (Json.obj step.payload).field? "payload" with
    | some (.obj fields) => some (.obj fields)
    | _ => none

def stringField (payload : Json) (name : String) : String :=
  match payload.field? name with
  | some (.str s) => s
  | _ => ""

/-- A number outside the range of `int64` reads as zero. -/
def int64Field (payload : Json) (name : String) : Int :=
  match payload.field? name with
  | some (.num n) => if -2 ^ 63 ≤ n ∧ n < 2 ^ 63 then n else 0
  | _ => 0

def timestampFieldMatches (ext : External) (payload : Json) (name : String) :
    Option DateTime → Bool
  | none =>
    match payload.field? name with
    | none | some .null => true
    | some (.str s) => s = ""
    | some _ => false
  | some expected =>
    match payload.field? name with
    | some (.str s) => ext.parseRfc3339 s = some expected
    | _ => false

end Payloads

section Requests

variable (ext : External)

def idempotencyConflict (idempotencyKey : String) : ApiError where
  code := .aborted
  message :=
    s!"idempotency_key {idempotencyKey} was already used with a different request fingerprint"

def loadReplay (db : Db) (idempotencyKey : String) : Except ApiError (Option IdempotencyReplay) :=
  if idempotencyKey = "" then .ok none
  else
    match loadCompletedIdempotencyReplay db idempotencyKey with
    | .error e => .error ⟨.unavailable, e⟩
    | .ok replay => .ok replay

/-- The answer from a completed settlement: `none` without one, a conflict unless the request has
its fingerprint and `answer` finds in its steps what the request asks for. -/
def replayRequest {ρ : Type} (db : Db) (kind : RequestKind) (idempotencyKey body : String)
    (answer : IdempotencyReplay → Option ρ) : Except ApiError (Option ρ) :=
  match loadReplay db idempotencyKey with
  | .error e => .error e
  | .ok none => .ok none
  | .ok (some replay) =>
    if replay.requestFingerprint = marketRequestFingerprint ext kind body then
      match answer replay with
      | none => .error (idempotencyConflict idempotencyKey)
      | some result => .ok (some result)
    else .error (idempotencyConflict idempotencyKey)

def issueConflicts (message : IssueTradeInstanceRequest) (replay : IdempotencyReplay)
    (createTrade itemEscrow : Json) : Bool :=
  let stack := stackOrZero message.itemStack
  decide (replay.externalRequestId ≠ message.externalRequestId ∨
    int64Field createTrade "issuer_id" ≠ message.issuedByCapsuleerId ∨
    int64Field createTrade "total_quantity" ≠ message.quantity ∨
    int64Field createTrade "unit_price_isk" ≠ message.unitPriceIsk ∨
    stringField itemEscrow "source_item_stack_id" ≠ stack.itemStackId ∨
    timestampFieldMatches ext createTrade "expires_at" message.expiresAt = false ∨
    (stack.itemTypeId ≠ 0 ∧ int64Field createTrade "item_type_id" ≠ stack.itemTypeId) ∨
    (stack.stationId ≠ 0 ∧ int64Field createTrade "station_id" ≠ stack.stationId))

def replayIssueTradeInstance (db : Db) (message : IssueTradeInstanceRequest) :
    Except ApiError (Option IssueTradeInstanceResult) :=
  replayRequest ext db .issueTradeInstance message.idempotencyKey message.marshal fun replay => do
    let createTrade ← replayPayload replay "create_new_trade_instance_row"
    let itemEscrow ← replayPayload replay "transfer_quantity_from_item_stack_to_item_stack_escrow"
    if issueConflicts ext message replay createTrade itemEscrow then none
    else
      pure {
        operationId := replay.operationId
        queuedAt := replay.queuedAt
        tradeInstanceId := stringField createTrade "trade_instance_id"
        itemStackEscrowId := stringField itemEscrow "item_stack_escrow_id"
        settlementBatchId := replay.settlementBatchId }

/-- A destination was created exactly when none was asked for, and an asked-for one was used. -/
def acceptConflicts (message : AcceptTradeInstanceRequest) (replay : IdempotencyReplay)
    (walletEscrow itemTransfer : Json) (createdDestination : Bool) : Bool :=
  decide (replay.externalRequestId ≠ message.externalRequestId ∨
    replay.causedByCapsuleerId ≠ message.buyerCapsuleerId ∨
    stringField walletEscrow "source_wallet_id" ≠ message.buyerWalletId ∨
    stringField walletEscrow "trade_instance_id" ≠ message.tradeInstanceId ∨
    int64Field itemTransfer "quantity" ≠ message.quantityRequested ∨
    (message.buyerDestinationItemStackId = "" ∧ createdDestination = false) ∨
    (message.buyerDestinationItemStackId ≠ "" ∧ createdDestination = true) ∨
    (message.buyerDestinationItemStackId ≠ "" ∧
      message.buyerDestinationItemStackId ≠ stringField itemTransfer "destination_item_stack_id"))

def replayAcceptTradeInstance (db : Db) (message : AcceptTradeInstanceRequest) :
    Except ApiError (Option AcceptTradeInstanceResult) :=
  replayRequest ext db .acceptTradeInstance message.idempotencyKey message.marshal fun replay => do
    let walletEscrow ← replayPayload replay "transfer_isk_amount_from_wallet_to_wallet_escrow"
    let itemTransfer ←
      replayPayload replay "transfer_quantity_from_item_stack_escrow_to_item_stack_with_new_owner"
    let createdDestination := (replayPayload replay "create_new_empty_item_stack").isSome
    if acceptConflicts message replay walletEscrow itemTransfer createdDestination then none
    else
      pure {
        operationId := replay.operationId
        queuedAt := replay.queuedAt
        walletEscrowId := stringField walletEscrow "wallet_escrow_id"
        buyerDestinationItemStackId := stringField itemTransfer "destination_item_stack_id"
        settlementBatchId := replay.settlementBatchId }

def cancelConflicts (message : CancelTradeInstanceRequest) (replay : IdempotencyReplay)
    (stateChange : Json) : Bool :=
  decide (replay.externalRequestId ≠ message.externalRequestId ∨
    replay.causedByCapsuleerId ≠ message.cancelledByCapsuleerId ∨
    stringField stateChange "trade_instance_id" ≠ message.tradeInstanceId)

def replayCancelTradeInstance (db : Db) (message : CancelTradeInstanceRequest) :
    Except ApiError (Option CancelTradeInstanceResult) :=
  replayRequest ext db .cancelTradeInstance message.idempotencyKey message.marshal fun replay => do
    let stateChange ← replayPayload replay "modify_trade_instance_state"
    if cancelConflicts message replay stateChange then none
    else
      pure {
        operationId := replay.operationId
        queuedAt := replay.queuedAt
        settlementBatchId := replay.settlementBatchId }

end Requests

end EveTrade.MarketReplay
