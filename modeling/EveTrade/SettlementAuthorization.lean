import EveTrade.SettlementOperations

set_option autoImplicit false

namespace EveTrade.SettlementAuthorization

open TransactionMonad UuidText SettlementTypes SettlementCommands SettlementSchema
  SettlementOperations

def denied {α : Type} (message : String) : OpTx α := Tx.fail (.permissionDenied message)

def require (condition : Prop) [Decidable condition] (message : String) : OpTx Unit :=
  Tx.ensure condition (.permissionDenied message)

def itemOwner (itemStackId : Uuid) : OpTx Int := do
  let owner ← select fun b => (b.itemStack.find? itemStackId).map ItemStackRow.ownerId
  Tx.fromOption owner (.notFound s!"item_stack {itemStackId}")

def walletOwner (walletId : Uuid) : OpTx Int := do
  let owner ← select fun b => (b.wallet.find? walletId).map WalletRow.capsuleerId
  Tx.fromOption owner (.notFound s!"wallet {walletId}")

def lockTrade (id : Uuid) : OpTx TradeInstanceRow := do
  let row ← select fun b => b.tradeInstance.find? id
  Tx.fromOption row (.notFound s!"trade_instance {id}")

def lockItemEscrow (id : Uuid) : OpTx ItemStackEscrowRow := do
  let row ← select fun b => b.itemStackEscrow.find? id
  Tx.fromOption row (.notFound s!"item_stack_escrow {id}")

def lockIskEscrow (id : Uuid) : OpTx WalletEscrowRow := do
  let row ← select fun b => b.walletEscrow.find? id
  Tx.fromOption row (.notFound s!"wallet_escrow {id}")

def authorizeIssue (actor : Int) (operations : List SettlementCommand) : OpTx Unit :=
  match (operations[1]? : Option SettlementCommand) with
  | some (.transferQuantityFromItemStackToItemStackEscrow escrow) => do
    let owner ← itemOwner escrow.sourceItemStackId
    require (owner = actor) "ISSUE source item stack does not belong to actor"
  | _ => denied "ISSUE source item operation is missing"

def walletDebit? : SettlementCommand → Option TransferIskAmountFromWalletToWalletEscrow
  | .transferIskAmountFromWalletToWalletEscrow p => some p
  | _ => none

def itemDelivery? : SettlementCommand → Option TransferQuantityFromItemStackEscrowToItemStack
  | .transferQuantityFromItemStackEscrowToItemStackWithNewOwner p => some p
  | _ => none

def sellerCredit? : SettlementCommand → Option TransferIskAmountFromWalletEscrowToWallet
  | .transferIskAmountFromWalletEscrowToWalletWithNewOwner p => some p
  | _ => none

def stateTransition? : SettlementCommand → Option ModifyTradeInstanceState
  | .modifyTradeInstanceState p => some p
  | _ => none

def createsDestination (actor : Int) (destination : Uuid) : SettlementCommand → Bool
  | .createNewEmptyItemStack p =>
    decide (p.itemStackId = some destination ∧ p.ownerId = actor)
  | _ => false

def authorizeAcceptTrade (actor : Int) (operations : List SettlementCommand)
    (debit : TransferIskAmountFromWalletToWalletEscrow)
    (delivery : TransferQuantityFromItemStackEscrowToItemStack)
    (credit : TransferIskAmountFromWalletEscrowToWallet) : OpTx Unit := do
  let sourceWalletOwner ← walletOwner debit.sourceWalletId
  require (sourceWalletOwner = actor) "ACCEPT debited wallet does not belong to actor"
  let trade ← lockTrade debit.tradeInstanceId
  require (trade.tradeState = .open) "ACCEPT trade is not open"
  let escrow ← lockItemEscrow delivery.itemStackEscrowId
  require (escrow.tradeInstanceId = debit.tradeInstanceId)
    "ACCEPT item escrow belongs to another trade"
  require (escrow.ownerId = trade.issuerId) "ACCEPT item escrow is not owned by the trade issuer"
  require (escrow.isReleased = false ∧ delivery.quantity ≤ escrow.quantity)
    "ACCEPT item escrow is unavailable"
  require (delivery.quantity ≤ trade.remainingQuantity) "ACCEPT quantity exceeds trade remainder"
  Tx.ensure (InI64 (delivery.quantity * trade.unitPriceIsk))
    (.invalidArgument "ACCEPT price multiplication overflow")
  require (debit.iskAmount = delivery.quantity * trade.unitPriceIsk)
    "ACCEPT wallet debit does not match authoritative trade price"
  let proceedsOwner ← walletOwner credit.destinationWalletId
  require (proceedsOwner = trade.issuerId) "ACCEPT proceeds wallet does not belong to issuer"
  Tx.when (operations.any (createsDestination actor delivery.destinationItemStackId) = false) do
    let owner ← itemOwner delivery.destinationItemStackId
    require (owner = actor) "ACCEPT destination item stack does not belong to actor"

def authorizeAccept (actor : Int) (operations : List SettlementCommand) : OpTx Unit := do
  let debit ← Tx.fromOption (operations.findSome? walletDebit?)
    (.permissionDenied "ACCEPT wallet debit is missing")
  let delivery ← Tx.fromOption (operations.findSome? itemDelivery?)
    (.permissionDenied "ACCEPT item delivery is missing")
  let credit ← Tx.fromOption (operations.findSome? sellerCredit?)
    (.permissionDenied "ACCEPT seller credit is missing")
  authorizeAcceptTrade actor operations debit delivery credit

/-- Checks the returns of a cancellation in plan order and counts the item and the ISK returns. -/
def authorizeReturns (actor : Int) (tradeInstanceId : Uuid) :
    List SettlementCommand → ℕ → ℕ → OpTx (ℕ × ℕ)
  | [], itemReturns, walletReturns => pure (itemReturns, walletReturns)
  | .transferQuantityFromItemStackEscrowToItemStackWithPreviousOwner p :: rest, itemReturns,
      walletReturns => do
    let escrow ← lockItemEscrow p.itemStackEscrowId
    require (escrow.tradeInstanceId = tradeInstanceId ∧ escrow.ownerId = actor ∧
      escrow.isReleased = false) "CANCEL item escrow is not returnable by actor"
    let owner ← itemOwner p.destinationItemStackId
    require (owner = actor) "CANCEL item destination is not owned by issuer"
    authorizeReturns actor tradeInstanceId rest (itemReturns + 1) walletReturns
  | .transferIskAmountFromWalletEscrowToWalletWithPreviousOwner p :: rest, itemReturns,
      walletReturns => do
    let escrow ← lockIskEscrow p.walletEscrowId
    require (escrow.tradeInstanceId = tradeInstanceId ∧ escrow.isReleased = false)
      "CANCEL wallet escrow belongs to another trade or was released"
    let owner ← walletOwner p.destinationWalletId
    require (owner = escrow.ownerId) "CANCEL wallet refund destination is not the previous owner"
    authorizeReturns actor tradeInstanceId rest itemReturns (walletReturns + 1)
  | _ :: rest, itemReturns, walletReturns =>
    authorizeReturns actor tradeInstanceId rest itemReturns walletReturns

def authorizeCancel (actor : Int) (operations : List SettlementCommand) : OpTx Unit := do
  let state ← Tx.fromOption (operations.findSome? stateTransition?)
    (.permissionDenied "CANCEL state transition is missing")
  let trade ← lockTrade state.tradeInstanceId
  require (trade.issuerId = actor) "CANCEL actor is not the trade issuer"
  require (trade.tradeState = .open) "CANCEL trade is not open"
  let returns ← authorizeReturns actor state.tradeInstanceId operations 0 0
  let activeItems ← select fun b => b.activeItemEscrowCount state.tradeInstanceId
  let activeWallets ← select fun b => b.activeWalletEscrowCount state.tradeInstanceId
  require (returns.1 = activeItems) "CANCEL leaves residual item escrow"
  require (returns.2 = activeWallets) "CANCEL leaves residual wallet escrow"

def authorizePlan (command : ExecuteBatchCommand) : OpTx Unit := do
  let actor ← Tx.fromOption command.causedByCapsuleerId
    (.permissionDenied "settlement actor is required")
  match command.intent with
  | .issue => authorizeIssue actor command.operations
  | .accept => authorizeAccept actor command.operations
  | .cancel => authorizeCancel actor command.operations
  | .unspecified => denied "settlement intent is required"

section ReadOnly

theorem select_readOnly {α : Type} (read : Business → α) : (select read).ReadOnly :=
  Tx.ReadOnly.query _ _

theorem lookup_readOnly {α : Type} (read : Business → Option α) (e : SettlementError) :
    Tx.ReadOnly (select read >>= fun row => Tx.fromOption row e) :=
  (select_readOnly read).bind fun _ => Tx.ReadOnly.fromOption _ _

theorem authorizeReturns_readOnly (actor : Int) (tradeInstanceId : Uuid)
    (operations : List SettlementCommand) (itemReturns walletReturns : ℕ) :
    (authorizeReturns actor tradeInstanceId operations itemReturns walletReturns).ReadOnly := by
  induction operations generalizing itemReturns walletReturns with
  | nil => exact Tx.ReadOnly.pure _
  | cons c rest ih =>
    cases c
    all_goals
      repeat' first
        | exact ih _ _
        | refine Tx.ReadOnly.bind ?_ fun _ => ?_
        | exact Tx.ReadOnly.ensure _ _
        | exact select_readOnly _
        | exact Tx.ReadOnly.fromOption _ _

theorem authorizePlan_readOnly (command : ExecuteBatchCommand) :
    (authorizePlan command).ReadOnly := by
  repeat' first
    | exact authorizeReturns_readOnly _ _ _ _ _
    | refine Tx.ReadOnly.bind ?_ fun _ => ?_
    | exact Tx.ReadOnly.ensure _ _
    | exact select_readOnly _
    | exact Tx.ReadOnly.fromOption _ _
    | exact Tx.ReadOnly.fail _
    | refine Tx.ReadOnly.when _ ?_
    | unfold authorizeIssue
    | split

end ReadOnly

end EveTrade.SettlementAuthorization
