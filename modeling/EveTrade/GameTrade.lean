import EveTrade.SettlementWork

set_option autoImplicit false

/-!
# Settlement plans

What the market knows about a trade becomes a plan: the operations that settle it, in the order of
the settlement grammar. Ids that are not given are derived from the idempotency key.
-/
namespace EveTrade.GameTrade

open FieldText JsonText UuidText TransactionMonad SettlementTypes SettlementWork ValidationRules

def createdByService : String := "market"

def sellKind : String := "SELL"

def openState : String := "OPEN"
def cancelledState : String := "CANCELLED"
def completedState : String := "COMPLETED"

def changeCancelled : String := "CANCELLED_BY_ISSUER"
def changeAccepted : String := "ACCEPTED_BY_BUYER"

structure ItemStackRow where
  itemStackId : String
  ownerId : Int
  itemTypeId : Int
  stationId : Int
  quantity : Int
deriving DecidableEq

structure IssueTradeInstanceInput where
  idempotencyKey : String
  externalRequestId : String
  issuedByCapsuleerId : Int
  itemStack : ItemStackRow
  quantity : Int
  unitPriceIsk : Int
  expiresAt : Option DateTime
  tradeInstanceId : String
  itemStackEscrowId : String

structure AcceptTradeInstanceInput where
  idempotencyKey : String
  externalRequestId : String
  tradeInstanceId : String
  buyerCapsuleerId : Int
  sellerCapsuleerId : Int
  itemTypeId : Int
  stationId : Int
  quantityRequested : Int
  iskAmountPaid : Int
  buyerWalletId : String
  sellerWalletId : String
  itemStackEscrowId : String
  buyerDestinationItemStackId : String
  createBuyerDestinationItemStack : Bool
  walletEscrowId : String
  completeTrade : Bool

structure CancelTradeInstanceInput where
  idempotencyKey : String
  externalRequestId : String
  tradeInstanceId : String
  cancelledByCapsuleerId : Int
  itemStackEscrowId : String
  returnItemStackId : String
  returnQuantity : Int
  walletEscrowId : String
  returnWalletId : String
  returnIskAmount : Int

structure SettlementPlan where
  intent : String
  idempotencyKey : String
  requestFingerprint : String
  externalRequestId : String
  causedByCapsuleerId : Int
  operations : List Operation
  tradeInstanceId : String
  itemStackEscrowId : String
  walletEscrowId : String
  destinationItemStackId : String
deriving DecidableEq

section Rules

variable (now : DateTime)

def ItemStackRow.violations (s : ItemStackRow) : List Violation :=
  uuidString.check "item_stack_id" s.itemStackId ++
  positiveInt64.check "owner_id" s.ownerId ++
  positiveInt64.check "item_type_id" s.itemTypeId ++
  positiveInt64.check "station_id" s.stationId ++
  nonNegative.check "quantity" s.quantity

/-- Rules on a message as a whole name no field. -/
def itemOwnerMatchesActor : Rule IssueTradeInstanceInput where
  id := "issue_trade.item_owner_matches_actor"
  message := "item stack owner must match issued_by_capsuleer_id"
  holds := fun i => i.itemStack.ownerId == i.issuedByCapsuleerId

def quantityAvailable : Rule IssueTradeInstanceInput where
  id := "issue_trade.quantity_available"
  message := "item stack quantity is lower than requested issue quantity"
  holds := fun i => decide (i.quantity ≤ i.itemStack.quantity)

def IssueTradeInstanceInput.violations (i : IssueTradeInstanceInput) : List Violation :=
  itemOwnerMatchesActor.check "" i ++
  quantityAvailable.check "" i ++
  nonBlankString.check "idempotency_key" i.idempotencyKey ++
  positiveInt64.check "issued_by_capsuleer_id" i.issuedByCapsuleerId ++
  within "item_stack" i.itemStack.violations ++
  positiveInt64.check "quantity" i.quantity ++
  positiveInt64.check "unit_price_isk" i.unitPriceIsk ++
  (gtNow now).checkPresent "expires_at" i.expiresAt ++
  optionalUuidString.check "trade_instance_id" i.tradeInstanceId ++
  optionalUuidString.check "item_stack_escrow_id" i.itemStackEscrowId

def buyerSellerDistinct : Rule AcceptTradeInstanceInput where
  id := "accept_trade.buyer_seller_distinct"
  message := "buyer and seller must differ"
  holds := fun i => i.buyerCapsuleerId != i.sellerCapsuleerId

def AcceptTradeInstanceInput.violations (i : AcceptTradeInstanceInput) : List Violation :=
  buyerSellerDistinct.check "" i ++
  nonBlankString.check "idempotency_key" i.idempotencyKey ++
  uuidString.check "trade_instance_id" i.tradeInstanceId ++
  positiveInt64.check "buyer_capsuleer_id" i.buyerCapsuleerId ++
  positiveInt64.check "seller_capsuleer_id" i.sellerCapsuleerId ++
  positiveInt64.check "item_type_id" i.itemTypeId ++
  positiveInt64.check "station_id" i.stationId ++
  positiveInt64.check "quantity_requested" i.quantityRequested ++
  positiveInt64.check "isk_amount_paid" i.iskAmountPaid ++
  uuidString.check "buyer_wallet_id" i.buyerWalletId ++
  uuidString.check "seller_wallet_id" i.sellerWalletId ++
  uuidString.check "item_stack_escrow_id" i.itemStackEscrowId ++
  optionalUuidString.check "buyer_destination_item_stack_id" i.buyerDestinationItemStackId ++
  optionalUuidString.check "wallet_escrow_id" i.walletEscrowId

/-- A return is given with its escrow, its destination and its amount, or not at all. -/
def returnAtomic (escrowId destinationId : String) (amount : Int) : Bool :=
  (escrowId == "" && destinationId == "" && amount == 0) ||
    (escrowId != "" && destinationId != "" && decide (0 < amount))

def itemReturnAtomic : Rule CancelTradeInstanceInput where
  id := "cancel_trade.item_return_atomic"
  message := "item return fields must be provided together"
  holds := fun i => returnAtomic i.itemStackEscrowId i.returnItemStackId i.returnQuantity

def walletReturnAtomic : Rule CancelTradeInstanceInput where
  id := "cancel_trade.wallet_return_atomic"
  message := "wallet return fields must be provided together"
  holds := fun i => returnAtomic i.walletEscrowId i.returnWalletId i.returnIskAmount

def CancelTradeInstanceInput.violations (i : CancelTradeInstanceInput) : List Violation :=
  itemReturnAtomic.check "" i ++
  walletReturnAtomic.check "" i ++
  nonBlankString.check "idempotency_key" i.idempotencyKey ++
  uuidString.check "trade_instance_id" i.tradeInstanceId ++
  positiveInt64.check "cancelled_by_capsuleer_id" i.cancelledByCapsuleerId ++
  optionalUuidString.check "item_stack_escrow_id" i.itemStackEscrowId ++
  optionalUuidString.check "return_item_stack_id" i.returnItemStackId ++
  nonNegative.check "return_quantity" i.returnQuantity ++
  optionalUuidString.check "wallet_escrow_id" i.walletEscrowId ++
  optionalUuidString.check "return_wallet_id" i.returnWalletId ++
  nonNegative.check "return_isk_amount" i.returnIskAmount

end Rules

section Plans

variable (ext : External)

def validate (violations : List Violation) : Except String Unit :=
  if violations = [] then .ok () else .error (ext.violationsText violations)

/-- The high digit of the variant byte, with its two top bits set to `10`. -/
def variantDigit (c : Char) : Char := hexDigit (8 + ((Uuid.hexDigitValue? c).getD 0) % 4)

/-- The first sixteen bytes of a digest with the version and variant bits of a version 4 UUID. -/
def versionFour (digest : List Char) : List Char :=
  (((digest.take 32).set 12 '4').set 16 (variantDigit (digest.getD 16 '0')))

def deterministicId (idempotencyKey purpose : String) : Except String String :=
  if idempotencyKey = "" then .error "idempotency_key is required"
  else
    let digest := ext.sha256Hex ("eve-trade:" ++ idempotencyKey ++ ":" ++ purpose)
    .ok (String.ofList (Uuid.hyphenated (versionFour digest.toList)))

/-- The given id, or the one derived from the idempotency key. -/
def givenOrDeterministicId (given idempotencyKey purpose : String) : Except String String :=
  if given = "" then deterministicId ext idempotencyKey purpose else .ok given

def issuePlan (input : IssueTradeInstanceInput) (tradeInstanceId itemStackEscrowId : String) :
    SettlementPlan where
  intent := intentIssue
  idempotencyKey := input.idempotencyKey
  requestFingerprint := ""
  externalRequestId := input.externalRequestId
  causedByCapsuleerId := input.issuedByCapsuleerId
  operations := [
    .createNewTradeInstanceRow ⟨tradeInstanceId, sellKind, openState, input.issuedByCapsuleerId,
      input.itemStack.itemTypeId, input.itemStack.stationId, input.quantity, input.unitPriceIsk,
      input.expiresAt⟩,
    .transferQuantityFromItemStackToItemStackEscrow ⟨input.itemStack.itemStackId,
      itemStackEscrowId, tradeInstanceId, input.quantity⟩]
  tradeInstanceId := tradeInstanceId
  itemStackEscrowId := itemStackEscrowId
  walletEscrowId := ""
  destinationItemStackId := ""

def issueTradeInstance (now : DateTime) (input : IssueTradeInstanceInput) :
    Except String SettlementPlan := do
  validate ext (input.violations now)
  let tradeInstanceId ←
    givenOrDeterministicId ext input.tradeInstanceId input.idempotencyKey "trade-instance"
  let itemStackEscrowId ←
    givenOrDeterministicId ext input.itemStackEscrowId input.idempotencyKey "item-stack-escrow"
  pure (issuePlan input tradeInstanceId itemStackEscrowId)

def destinationCreation (input : AcceptTradeInstanceInput) (destinationItemStackId : String) :
    List Operation :=
  if input.createBuyerDestinationItemStack ∨ input.buyerDestinationItemStackId = "" then
    [.createNewEmptyItemStack ⟨destinationItemStackId, input.buyerCapsuleerId, input.itemTypeId,
      input.stationId⟩]
  else []

def exchange (input : AcceptTradeInstanceInput) (destinationItemStackId walletEscrowId : String) :
    List Operation :=
  [.transferIskAmountFromWalletToWalletEscrow ⟨input.buyerWalletId, walletEscrowId,
    input.tradeInstanceId, input.iskAmountPaid⟩,
  .transferQuantityFromItemStackEscrowToItemStackWithNewOwner ⟨input.itemStackEscrowId,
    destinationItemStackId, input.quantityRequested⟩,
  .transferIskAmountFromWalletEscrowToWalletWithNewOwner ⟨walletEscrowId, input.sellerWalletId,
    input.iskAmountPaid⟩]

def tradeCompletion (input : AcceptTradeInstanceInput) : List Operation :=
  if input.completeTrade then
    [.modifyTradeInstanceState ⟨input.tradeInstanceId, completedState, changeAccepted,
      createdByService⟩]
  else []

/-- The payment and the delivery, with a new stack if the buyer names none, and the completion of
the trade if it is asked for. -/
def acceptPlan (input : AcceptTradeInstanceInput) (destinationItemStackId walletEscrowId : String) :
    SettlementPlan where
  intent := intentAccept
  idempotencyKey := input.idempotencyKey
  requestFingerprint := ""
  externalRequestId := input.externalRequestId
  causedByCapsuleerId := input.buyerCapsuleerId
  operations := destinationCreation input destinationItemStackId ++
    (exchange input destinationItemStackId walletEscrowId ++ tradeCompletion input)
  tradeInstanceId := input.tradeInstanceId
  itemStackEscrowId := input.itemStackEscrowId
  walletEscrowId := walletEscrowId
  destinationItemStackId := destinationItemStackId

def acceptTradeInstance (input : AcceptTradeInstanceInput) : Except String SettlementPlan := do
  validate ext input.violations
  let destinationItemStackId ← givenOrDeterministicId ext input.buyerDestinationItemStackId
    input.idempotencyKey "buyer-destination-item-stack"
  let walletEscrowId ←
    givenOrDeterministicId ext input.walletEscrowId input.idempotencyKey "wallet-escrow"
  pure (acceptPlan input destinationItemStackId walletEscrowId)

def itemReturn (input : CancelTradeInstanceInput) : List Operation :=
  if input.itemStackEscrowId ≠ "" then
    [.transferQuantityFromItemStackEscrowToItemStackWithPreviousOwner ⟨input.itemStackEscrowId,
      input.returnItemStackId, input.returnQuantity⟩]
  else []

def walletReturn (input : CancelTradeInstanceInput) : List Operation :=
  if input.walletEscrowId ≠ "" then
    [.transferIskAmountFromWalletEscrowToWalletWithPreviousOwner ⟨input.walletEscrowId,
      input.returnWalletId, input.returnIskAmount⟩]
  else []

def cancelPlan (input : CancelTradeInstanceInput) : SettlementPlan where
  intent := intentCancel
  idempotencyKey := input.idempotencyKey
  requestFingerprint := ""
  externalRequestId := input.externalRequestId
  causedByCapsuleerId := input.cancelledByCapsuleerId
  operations := itemReturn input ++ (walletReturn input ++ [
    .modifyTradeInstanceState ⟨input.tradeInstanceId, cancelledState, changeCancelled,
      createdByService⟩])
  tradeInstanceId := input.tradeInstanceId
  itemStackEscrowId := input.itemStackEscrowId
  walletEscrowId := input.walletEscrowId
  destinationItemStackId := ""

def cancelTradeInstance (input : CancelTradeInstanceInput) : Except String SettlementPlan := do
  validate ext input.violations
  pure (cancelPlan input)

/-- The zero `time.Time`, which work carries until it is queued. -/
def zeroTime : DateTime := -62135596800000000000

def planWork (plan : SettlementPlan) : Work where
  operationId := ""
  queuedAt := zeroTime
  intent := plan.intent
  idempotencyKey := plan.idempotencyKey
  requestFingerprint := plan.requestFingerprint
  externalRequestId := plan.externalRequestId
  causedByCapsuleerId := plan.causedByCapsuleerId
  createdByService := createdByService
  requestId := ""
  operations := plan.operations

def settleTradeInstance (plan : SettlementPlan) : Except String Work :=
  if plan.idempotencyKey = "" then .error "idempotency key is required"
  else if plan.operations = [] then
    .error "settlement plan must contain at least one operation"
  else if plan.intent ≠ intentIssue ∧ plan.intent ≠ intentAccept ∧ plan.intent ≠ intentCancel then
    .error "settlement plan intent is required"
  else .ok (planWork plan)

end Plans

section Lemmas

variable {ext : External} {plan : SettlementPlan}

theorem issueTradeInstance_eq_ok {now : DateTime} {input : IssueTradeInstanceInput}
    (h : issueTradeInstance ext now input = .ok plan) :
    ∃ tradeInstanceId itemStackEscrowId, plan = issuePlan input tradeInstanceId itemStackEscrowId := by
  obtain ⟨_, _, h⟩ := except_bind_eq_ok.1 h
  obtain ⟨tradeInstanceId, _, h⟩ := except_bind_eq_ok.1 h
  obtain ⟨itemStackEscrowId, _, h⟩ := except_bind_eq_ok.1 h
  exact ⟨tradeInstanceId, itemStackEscrowId, (Except.ok.inj h).symm⟩

theorem acceptTradeInstance_eq_ok {input : AcceptTradeInstanceInput}
    (h : acceptTradeInstance ext input = .ok plan) :
    ∃ destinationItemStackId walletEscrowId,
      plan = acceptPlan input destinationItemStackId walletEscrowId := by
  obtain ⟨_, _, h⟩ := except_bind_eq_ok.1 h
  obtain ⟨destinationItemStackId, _, h⟩ := except_bind_eq_ok.1 h
  obtain ⟨walletEscrowId, _, h⟩ := except_bind_eq_ok.1 h
  exact ⟨destinationItemStackId, walletEscrowId, (Except.ok.inj h).symm⟩

theorem cancelTradeInstance_eq_ok {input : CancelTradeInstanceInput}
    (h : cancelTradeInstance ext input = .ok plan) : plan = cancelPlan input := by
  obtain ⟨_, _, h⟩ := except_bind_eq_ok.1 h
  exact (Except.ok.inj h).symm

theorem settleTradeInstance_eq_ok {work : Work} (h : settleTradeInstance plan = .ok work) :
    work = planWork plan := by
  unfold settleTradeInstance at h
  split_ifs at h
  exact (Except.ok.inj h).symm

end Lemmas

end EveTrade.GameTrade
