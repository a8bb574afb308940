import EveTrade.SettlementCommands
import EveTrade.TransactionMonad
import EveTrade.ValidationRules

set_option autoImplicit false

/-!
# Settlement work and the command it becomes

Work is what the market publishes and a worker receives. The worker copies it into the request of
`ExecuteSettlementBatch` and checks the declared rules; the service checks them again and converts the
request, with ids read from their texts, into the command it executes.
-/
namespace EveTrade.SettlementWork

open FieldText UuidText TransactionMonad SettlementTypes SettlementCommands ValidationRules

def intentIssue : String := "ISSUE"
def intentAccept : String := "ACCEPT"
def intentCancel : String := "CANCEL"

structure CreateNewTradeInstanceRow where
  tradeInstanceId : String
  tradeKind : String
  tradeState : String
  issuerId : Int
  itemTypeId : Int
  stationId : Int
  totalQuantity : Int
  unitPriceIsk : Int
  expiresAt : Option DateTime
deriving DecidableEq

structure ModifyTradeInstanceState where
  tradeInstanceId : String
  toTradeState : String
  tradeStateChangeKind : String
  changedByService : String
deriving DecidableEq

structure CreateNewEmptyItemStack where
  itemStackId : String
  ownerId : Int
  itemTypeId : Int
  stationId : Int
deriving DecidableEq

structure TransferQuantityFromItemStackToItemStackEscrow where
  sourceItemStackId : String
  itemStackEscrowId : String
  tradeInstanceId : String
  quantity : Int
deriving DecidableEq

structure TransferQuantityFromItemStackEscrowToItemStack where
  itemStackEscrowId : String
  destinationItemStackId : String
  quantity : Int
deriving DecidableEq

structure MergeItemStacksWithIdenticalItemTypeAndIdenticalOwner where
  sourceItemStackId : String
  destinationItemStackId : String
deriving DecidableEq

structure CreateNewEmptyWalletEscrow where
  walletEscrowId : String
  tradeInstanceId : String
  ownerId : Int
  sourceWalletId : String
deriving DecidableEq

structure TransferIskAmountFromWalletToWalletEscrow where
  sourceWalletId : String
  walletEscrowId : String
  tradeInstanceId : String
  iskAmount : Int
deriving DecidableEq

structure TransferIskAmountFromWalletEscrowToWallet where
  walletEscrowId : String
  destinationWalletId : String
  iskAmount : Int
deriving DecidableEq

/-- An operation of work, a kind with its payload, and of the request it is copied into. -/
inductive Operation where
  | createNewTradeInstanceRow (payload : CreateNewTradeInstanceRow)
  | modifyTradeInstanceState (payload : ModifyTradeInstanceState)
  | createNewEmptyItemStack (payload : CreateNewEmptyItemStack)
  | transferQuantityFromItemStackToItemStackEscrow
      (payload : TransferQuantityFromItemStackToItemStackEscrow)
  | transferQuantityFromItemStackEscrowToItemStackWithNewOwner
      (payload : TransferQuantityFromItemStackEscrowToItemStack)
  | transferQuantityFromItemStackEscrowToItemStackWithPreviousOwner
      (payload : TransferQuantityFromItemStackEscrowToItemStack)
  | mergeItemStacksWithIdenticalItemTypeAndIdenticalOwner
      (payload : MergeItemStacksWithIdenticalItemTypeAndIdenticalOwner)
  | createNewEmptyWalletEscrow (payload : CreateNewEmptyWalletEscrow)
  | transferIskAmountFromWalletToWalletEscrow
      (payload : TransferIskAmountFromWalletToWalletEscrow)
  | transferIskAmountFromWalletEscrowToWalletWithNewOwner
      (payload : TransferIskAmountFromWalletEscrowToWallet)
  | transferIskAmountFromWalletEscrowToWalletWithPreviousOwner
      (payload : TransferIskAmountFromWalletEscrowToWallet)
deriving DecidableEq

structure Work where
  operationId : String
  queuedAt : DateTime
  intent : String
  idempotencyKey : String
  requestFingerprint : String
  externalRequestId : String
  causedByCapsuleerId : Int
  createdByService : String
  requestId : String
  operations : List Operation
deriving DecidableEq

structure ExecuteSettlementBatchRequest where
  idempotencyKey : String
  requestFingerprint : String
  externalRequestId : String
  causedByCapsuleerId : Option Int
  operations : List Operation
  createdByService : String
  requestId : String
  intent : SettlementIntent
deriving DecidableEq

section Rules

variable (now : DateTime)

def releaseViolations (p : TransferQuantityFromItemStackEscrowToItemStack) : List Violation :=
  uuidString.check "item_stack_escrow_id" p.itemStackEscrowId ++
  uuidString.check "destination_item_stack_id" p.destinationItemStackId ++
  positiveInt64.check "quantity" p.quantity

def walletReleaseViolations (p : TransferIskAmountFromWalletEscrowToWallet) : List Violation :=
  uuidString.check "wallet_escrow_id" p.walletEscrowId ++
  uuidString.check "destination_wallet_id" p.destinationWalletId ++
  positiveInt64.check "isk_amount" p.iskAmount

def distinctStacks : Rule MergeItemStacksWithIdenticalItemTypeAndIdenticalOwner where
  id := "merge_item_stacks.source_destination_distinct"
  message := "source_item_stack_id and destination_item_stack_id must differ"
  holds := fun p => decide (p.sourceItemStackId ≠ p.destinationItemStackId)

def Operation.violations : Operation → List Violation
  | createNewTradeInstanceRow p => within "create_new_trade_instance_row" (
      optionalUuidString.check "trade_instance_id" p.tradeInstanceId ++
      tradeKindSell.check "trade_kind" p.tradeKind ++
      tradeStateOpen.check "trade_state" p.tradeState ++
      positiveInt64.check "issuer_id" p.issuerId ++
      positiveInt64.check "item_type_id" p.itemTypeId ++
      positiveInt64.check "station_id" p.stationId ++
      positiveInt64.check "total_quantity" p.totalQuantity ++
      positiveInt64.check "unit_price_isk" p.unitPriceIsk ++
      (gtNow now).checkPresent "expires_at" p.expiresAt)
  | modifyTradeInstanceState p => within "modify_trade_instance_state" (
      uuidString.check "trade_instance_id" p.tradeInstanceId ++
      tradeState.check "to_trade_state" p.toTradeState ++
      tradeStateChangeKind.check "trade_state_change_kind" p.tradeStateChangeKind ++
      nonBlankString.check "changed_by_service" p.changedByService)
  | createNewEmptyItemStack p => within "create_new_empty_item_stack" (
      optionalUuidString.check "item_stack_id" p.itemStackId ++
      positiveInt64.check "owner_id" p.ownerId ++
      positiveInt64.check "item_type_id" p.itemTypeId ++
      positiveInt64.check "station_id" p.stationId)
  | transferQuantityFromItemStackToItemStackEscrow p =>
      within "transfer_quantity_from_item_stack_to_item_stack_escrow" (
        uuidString.check "source_item_stack_id" p.sourceItemStackId ++
        optionalUuidString.check "item_stack_escrow_id" p.itemStackEscrowId ++
        uuidString.check "trade_instance_id" p.tradeInstanceId ++
        positiveInt64.check "quantity" p.quantity)
  | transferQuantityFromItemStackEscrowToItemStackWithNewOwner p =>
      within "transfer_quantity_from_item_stack_escrow_to_item_stack_with_new_owner"
        (releaseViolations p)
  | transferQuantityFromItemStackEscrowToItemStackWithPreviousOwner p =>
      within "transfer_quantity_from_item_stack_escrow_to_item_stack_with_previous_owner"
        (releaseViolations p)
  | mergeItemStacksWithIdenticalItemTypeAndIdenticalOwner p =>
      distinctStacks.check "merge_item_stacks_with_identical_item_type_and_identical_owner" p ++
      within "merge_item_stacks_with_identical_item_type_and_identical_owner" (
        uuidString.check "source_item_stack_id" p.sourceItemStackId ++
        uuidString.check "destination_item_stack_id" p.destinationItemStackId)
  | createNewEmptyWalletEscrow p => within "create_new_empty_wallet_escrow" (
      optionalUuidString.check "wallet_escrow_id" p.walletEscrowId ++
      uuidString.check "trade_instance_id" p.tradeInstanceId ++
      positiveInt64.check "owner_id" p.ownerId ++
      uuidString.check "source_wallet_id" p.sourceWalletId)
  | transferIskAmountFromWalletToWalletEscrow p =>
      within "transfer_isk_amount_from_wallet_to_wallet_escrow" (
        uuidString.check "source_wallet_id" p.sourceWalletId ++
        optionalUuidString.check "wallet_escrow_id" p.walletEscrowId ++
        uuidString.check "trade_instance_id" p.tradeInstanceId ++
        positiveInt64.check "isk_amount" p.iskAmount)
  | transferIskAmountFromWalletEscrowToWalletWithNewOwner p =>
      within "transfer_isk_amount_from_wallet_escrow_to_wallet_with_new_owner"
        (walletReleaseViolations p)
  | transferIskAmountFromWalletEscrowToWalletWithPreviousOwner p =>
      within "transfer_isk_amount_from_wallet_escrow_to_wallet_with_previous_owner"
        (walletReleaseViolations p)

def ExecuteSettlementBatchRequest.violations (request : ExecuteSettlementBatchRequest) :
    List Violation :=
  nonBlankString.check "idempotency_key" request.idempotencyKey ++
  positiveInt64.checkPresent "caused_by_capsuleer_id" request.causedByCapsuleerId ++
  minItems.check "operations" request.operations.length ++
  withinEach "operations" 0 (request.operations.map (Operation.violations now)) ++
  nonBlankString.check "created_by_service" request.createdByService ++
  optionalUuidString.check "request_id" request.requestId ++
  specified.check "intent" request.intent

end Rules

section Worker

variable (ext : External)

def settlementIntent (intent : String) : SettlementIntent :=
  if intent = intentIssue then .issue
  else if intent = intentAccept then .accept
  else if intent = intentCancel then .cancel
  else .unspecified

/-- The request as the worker fills it in; it asserts no fingerprint. -/
def requestOf (work : Work) : ExecuteSettlementBatchRequest where
  idempotencyKey := work.idempotencyKey
  requestFingerprint := ""
  externalRequestId := work.externalRequestId
  causedByCapsuleerId := if work.causedByCapsuleerId ≠ 0 then some work.causedByCapsuleerId else none
  operations := work.operations
  createdByService := work.createdByService
  requestId := work.requestId
  intent := settlementIntent work.intent

def toProtoRequest (now : DateTime) (work : Work) :
    Except String ExecuteSettlementBatchRequest :=
  if (requestOf work).violations now = [] then .ok (requestOf work)
  else .error (ext.violationsText ((requestOf work).violations now))

end Worker

section Conversion

def requiredString (value fieldName : String) : Except SettlementError String :=
  if trim value = "" then .error (.invalidArgument s!"{fieldName} is required")
  else .ok (trim value)

def requiredUuid (value fieldName : String) : Except SettlementError Uuid := do
  let value ← requiredString value fieldName
  match Uuid.parse value with
  | some u => .ok u
  | none => .error (.invalidArgument s!"{fieldName} must be a valid UUID")

def optionalUuid (value fieldName : String) : Except SettlementError (Option Uuid) :=
  if trim value = "" then .ok none
  else (requiredUuid value fieldName).map some

def optionalString (value : String) : Option String :=
  if trim value = "" then none else some (trim value)

def nonEmptyOr (value fallback : String) : String :=
  if trim value = "" then fallback else trim value

def releaseCommand (p : TransferQuantityFromItemStackEscrowToItemStack) :
    Except SettlementError SettlementCommands.TransferQuantityFromItemStackEscrowToItemStack := do
  let itemStackEscrowId ← requiredUuid p.itemStackEscrowId "item_stack_escrow_id"
  let destinationItemStackId ← requiredUuid p.destinationItemStackId "destination_item_stack_id"
  pure ⟨itemStackEscrowId, destinationItemStackId, p.quantity⟩

def walletReleaseCommand (p : TransferIskAmountFromWalletEscrowToWallet) :
    Except SettlementError SettlementCommands.TransferIskAmountFromWalletEscrowToWallet := do
  let walletEscrowId ← requiredUuid p.walletEscrowId "wallet_escrow_id"
  let destinationWalletId ← requiredUuid p.destinationWalletId "destination_wallet_id"
  pure ⟨walletEscrowId, destinationWalletId, p.iskAmount⟩

def Operation.toCommand : Operation → Except SettlementError SettlementCommand
  | createNewTradeInstanceRow p => do
    let tradeInstanceId ← optionalUuid p.tradeInstanceId "trade_instance_id"
    let tradeKind ← requiredString p.tradeKind "trade_kind"
    pure (.createNewTradeInstanceRow ⟨tradeInstanceId, tradeKind, nonEmptyOr p.tradeState "OPEN",
      p.issuerId, p.itemTypeId, p.stationId, p.totalQuantity, p.unitPriceIsk, p.expiresAt⟩)
  | modifyTradeInstanceState p => do
    let tradeInstanceId ← requiredUuid p.tradeInstanceId "trade_instance_id"
    let toTradeState ← requiredString p.toTradeState "to_trade_state"
    let changeKind ← requiredString p.tradeStateChangeKind "trade_state_change_kind"
    pure (.modifyTradeInstanceState ⟨tradeInstanceId, toTradeState, changeKind,
      nonEmptyOr p.changedByService "market"⟩)
  | createNewEmptyItemStack p => do
    let itemStackId ← optionalUuid p.itemStackId "item_stack_id"
    pure (.createNewEmptyItemStack ⟨itemStackId, p.ownerId, p.itemTypeId, p.stationId⟩)
  | transferQuantityFromItemStackToItemStackEscrow p => do
    let sourceItemStackId ← requiredUuid p.sourceItemStackId "source_item_stack_id"
    let itemStackEscrowId ← optionalUuid p.itemStackEscrowId "item_stack_escrow_id"
    let tradeInstanceId ← requiredUuid p.tradeInstanceId "trade_instance_id"
    pure (.transferQuantityFromItemStackToItemStackEscrow ⟨sourceItemStackId, itemStackEscrowId,
      tradeInstanceId, p.quantity⟩)
  | transferQuantityFromItemStackEscrowToItemStackWithNewOwner p =>
    (releaseCommand p).map .transferQuantityFromItemStackEscrowToItemStackWithNewOwner
  | transferQuantityFromItemStackEscrowToItemStackWithPreviousOwner p =>
    (releaseCommand p).map .transferQuantityFromItemStackEscrowToItemStackWithPreviousOwner
  | mergeItemStacksWithIdenticalItemTypeAndIdenticalOwner p => do
    let sourceItemStackId ← requiredUuid p.sourceItemStackId "source_item_stack_id"
    let destinationItemStackId ← requiredUuid p.destinationItemStackId "destination_item_stack_id"
    pure (.mergeItemStacksWithIdenticalItemTypeAndIdenticalOwner ⟨sourceItemStackId,
      destinationItemStackId⟩)
  | createNewEmptyWalletEscrow p => do
    let walletEscrowId ← optionalUuid p.walletEscrowId "wallet_escrow_id"
    let tradeInstanceId ← requiredUuid p.tradeInstanceId "trade_instance_id"
    let sourceWalletId ← requiredUuid p.sourceWalletId "source_wallet_id"
    pure (.createNewEmptyWalletEscrow ⟨walletEscrowId, tradeInstanceId, p.ownerId, sourceWalletId⟩)
  | transferIskAmountFromWalletToWalletEscrow p => do
    let sourceWalletId ← requiredUuid p.sourceWalletId "source_wallet_id"
    let walletEscrowId ← optionalUuid p.walletEscrowId "wallet_escrow_id"
    let tradeInstanceId ← requiredUuid p.tradeInstanceId "trade_instance_id"
    pure (.transferIskAmountFromWalletToWalletEscrow ⟨sourceWalletId, walletEscrowId,
      tradeInstanceId, p.iskAmount⟩)
  | transferIskAmountFromWalletEscrowToWalletWithNewOwner p =>
    (walletReleaseCommand p).map .transferIskAmountFromWalletEscrowToWalletWithNewOwner
  | transferIskAmountFromWalletEscrowToWalletWithPreviousOwner p =>
    (walletReleaseCommand p).map .transferIskAmountFromWalletEscrowToWalletWithPreviousOwner

def toCommands : List Operation → Except SettlementError (List SettlementCommand)
  | [] => .ok []
  | operation :: rest => do
    let command ← operation.toCommand
    let commands ← toCommands rest
    pure (command :: commands)

def requiredIntent : SettlementIntent → Except SettlementError SettlementIntent
  | .unspecified =>
    .error (.invalidArgument "settlement intent must be ISSUE, ACCEPT, or CANCEL")
  | intent => .ok intent

/-- The conversion of a request whose rules hold. -/
def convert (request : ExecuteSettlementBatchRequest) :
    Except SettlementError ExecuteBatchCommand := do
  let idempotencyKey ← requiredString request.idempotencyKey "idempotency_key"
  let createdByService ← requiredString request.createdByService "created_by_service"
  let requestId ← optionalUuid request.requestId "request_id"
  let intent ← requiredIntent request.intent
  let operations ← toCommands request.operations
  pure ⟨intent, idempotencyKey, optionalString request.requestFingerprint,
    optionalString request.externalRequestId, request.causedByCapsuleerId, operations,
    createdByService, requestId⟩

def tryFrom (ext : External) (now : DateTime) (request : ExecuteSettlementBatchRequest) :
    Except SettlementError ExecuteBatchCommand :=
  if request.violations now = [] then convert request
  else .error (.validation (ext.violationsText (request.violations now)))

end Conversion

section Lemmas

variable {ext : External} {now : DateTime}
variable {request : ExecuteSettlementBatchRequest} {commands : List SettlementCommand}

theorem toProtoRequest_eq_ok {work : Work}
    (h : toProtoRequest ext now work = .ok request) : request = requestOf work := by
  unfold toProtoRequest at h
  split_ifs at h
  exact (Except.ok.inj h).symm

theorem requiredString_eq_ok {value fieldName s : String}
    (h : requiredString value fieldName = .ok s) : s = trim value := by
  unfold requiredString at h
  split_ifs at h
  exact (Except.ok.inj h).symm

/-- What a command has of the request it was converted from. -/
structure Converted (request : ExecuteSettlementBatchRequest) (command : ExecuteBatchCommand) :
    Prop where
  idempotencyKey : command.idempotencyKey = trim request.idempotencyKey
  createdByService : command.createdByService = trim request.createdByService
  requestId : optionalUuid request.requestId "request_id" = .ok command.requestId
  intent : command.intent = request.intent
  specified : command.intent ≠ .unspecified
  operations : toCommands request.operations = .ok command.operations
  requestFingerprint : command.requestFingerprint = optionalString request.requestFingerprint
  externalRequestId : command.externalRequestId = optionalString request.externalRequestId
  causedByCapsuleerId : command.causedByCapsuleerId = request.causedByCapsuleerId

theorem requiredIntent_eq_ok {intent intent' : SettlementIntent}
    (h : requiredIntent intent = .ok intent') : intent' = intent ∧ intent ≠ .unspecified := by
  cases intent with
  | unspecified => cases h
  | issue | accept | cancel =>
    obtain rfl := Except.ok.inj h
    exact ⟨rfl, SettlementIntent.noConfusion⟩

theorem convert_eq_ok {command : ExecuteBatchCommand}
    (h : convert request = .ok command) : Converted request command := by
  obtain ⟨key, hkey, h⟩ := except_bind_eq_ok.1 h
  obtain ⟨service, hservice, h⟩ := except_bind_eq_ok.1 h
  obtain ⟨requestId, hrequest, h⟩ := except_bind_eq_ok.1 h
  obtain ⟨intent, hintent, h⟩ := except_bind_eq_ok.1 h
  obtain ⟨operations, hoperations, h⟩ := except_bind_eq_ok.1 h
  obtain rfl := Except.ok.inj h
  obtain ⟨hsame, hspecified⟩ := requiredIntent_eq_ok hintent
  exact ⟨requiredString_eq_ok hkey, requiredString_eq_ok hservice, hrequest, hsame,
    hsame ▸ hspecified, hoperations, rfl, rfl, rfl⟩

theorem tryFrom_eq_ok {command : ExecuteBatchCommand}
    (h : tryFrom ext now request = .ok command) : Converted request command := by
  unfold tryFrom at h
  split_ifs at h
  exact convert_eq_ok h

theorem toCommands_append {xs ys : List Operation}
    (h : toCommands (xs ++ ys) = .ok commands) :
    ∃ cs ds, toCommands xs = .ok cs ∧ toCommands ys = .ok ds ∧ commands = cs ++ ds := by
  induction xs generalizing commands with
  | nil => exact ⟨[], commands, rfl, h, rfl⟩
  | cons x xs ih =>
    obtain ⟨c, hc, h⟩ := except_bind_eq_ok.1 h
    obtain ⟨rest, hrest, h⟩ := except_bind_eq_ok.1 h
    obtain ⟨cs, ds, hcs, hds, rfl⟩ := ih hrest
    obtain rfl := Except.ok.inj h
    refine ⟨c :: cs, ds, ?_, hds, rfl⟩
    rw [toCommands, hc, hcs]
    rfl

theorem toCommands_cons {x : Operation} {xs : List Operation}
    (h : toCommands (x :: xs) = .ok commands) :
    ∃ c cs, x.toCommand = .ok c ∧ toCommands xs = .ok cs ∧ commands = c :: cs := by
  obtain ⟨c, hc, h⟩ := except_bind_eq_ok.1 h
  obtain ⟨cs, hcs, h⟩ := except_bind_eq_ok.1 h
  exact ⟨c, cs, hc, hcs, (Except.ok.inj h).symm⟩

theorem toCommands_singleton {x : Operation}
    (h : toCommands [x] = .ok commands) : ∃ c, x.toCommand = .ok c ∧ commands = [c] := by
  obtain ⟨c, cs, hc, hcs, rfl⟩ := toCommands_cons h
  obtain rfl := Except.ok.inj hcs
  exact ⟨c, hc, rfl⟩

end Lemmas

end EveTrade.SettlementWork
