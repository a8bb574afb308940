import EveTrade.SettlementStatements

set_option autoImplicit false

namespace EveTrade.SettlementOperations

open KeyedTable TransactionMonad UuidText SettlementTypes SettlementCommands SettlementSchema
  SettlementStatements

abbrev OpTx := Tx Business DeferredCheck DbError SettlementError

/-- What a step takes from outside: its row's id, the transaction time, one reading of the clock and
one generated id. -/
structure StepContext where
  settlementStepId : Uuid
  now : DateTime
  clock : DateTime
  newId : Uuid

def execute (f : Statement) : OpTx Unit :=
  Tx.statement .database fun b =>
    match f b with
    | .error e => .error e
    | .ok (b', checks) => .ok ((), b', checks)

def select {α : Type} (read : Business → α) : OpTx α := Tx.query .database read

/-- A sum is cast to `BIGINT`. -/
def selectSum (read : Business → Int) : OpTx Int :=
  Tx.statement .database fun b =>
    if InI64 (read b) then .ok (read b, b, []) else .error (.outOfRange "bigint")

section Guards

def ensurePositive (value : Int) (fieldName : String) : OpTx Unit :=
  Tx.ensure (0 < value) (.invalidArgument s!"{fieldName} must be greater than zero")

def ensureTradeKind (tradeKind : String) : OpTx Unit :=
  Tx.ensure (tradeKind = "SELL") (.invalidArgument s!"trade_kind {tradeKind} is not supported")

def ensureTradeState (tradeState fieldName : String) : OpTx Unit :=
  Tx.ensure (tradeState = "OPEN" ∨ tradeState = "CANCELLED" ∨ tradeState = "COMPLETED")
    (.invalidArgument s!"{fieldName} {tradeState} is not supported")

def ensureNewTradeState (tradeState : String) : OpTx Unit :=
  Tx.ensure (tradeState = "OPEN") (.invalidArgument "new trade_state must be OPEN")

def ensureFutureExpiration (clock : DateTime) (expiresAt : Option DateTime) : OpTx Unit :=
  Tx.ensure (∀ t ∈ expiresAt, clock < t) (.invalidArgument "expires_at must be in the future")

def ensureTradeStateChangeKind (kind : String) : OpTx Unit :=
  Tx.ensure (kind = "CANCELLED_BY_ISSUER" ∨ kind = "ACCEPTED_BY_BUYER")
    (.invalidArgument s!"trade_state_change_kind {kind} is not supported")

def ensureTradeTransition (source : TradeState) (target : String) : OpTx Unit :=
  Tx.ensure (source = .open ∧ (target = "CANCELLED" ∨ target = "COMPLETED"))
    (.failedPrecondition s!"trade_state transition {source.text} -> {target} is not allowed")

def isExpired (clock : DateTime) (trade : TradeInstanceRow) : Bool :=
  match trade.expiresAt with
  | none => false
  | some t => decide (t ≤ clock)

def ensureTradeNotExpired (ext : External) (clock : DateTime) (trade : TradeInstanceRow) :
    OpTx Unit :=
  let expiresAt := (trade.expiresAt.map ext.toRfc3339).getD "unknown"
  Tx.ensure (isExpired clock trade = false)
    (.failedPrecondition s!"trade_instance {trade.tradeInstanceId} expired at {expiresAt}")

def ensureTradeOpen (trade : TradeInstanceRow) : OpTx Unit :=
  Tx.ensure (trade.tradeState = .open)
    (.failedPrecondition s!"trade_instance {trade.tradeInstanceId} is not OPEN")

def ensureItemStackActive (stack : ItemStackRow) : OpTx Unit :=
  Tx.ensure (stack.stackState = .active)
    (.failedPrecondition s!"item_stack {stack.itemStackId} is not ACTIVE")

def ensureWalletActive (wallet : WalletRow) : OpTx Unit :=
  Tx.ensure (wallet.walletState = .active)
    (.failedPrecondition s!"wallet {wallet.walletId} is not ACTIVE")

def ensureEscrowNotReleased (entityKind : String) (isReleased : Bool) (entityId : Uuid) :
    OpTx Unit :=
  Tx.ensure (isReleased = false)
    (.failedPrecondition s!"{entityKind} {entityId} is already released")

def ensureItemStackChecksumValid (ext : External) (stack : ItemStackRow) : OpTx Unit := do
  Tx.ensure (stack.checksumAlgorithm = checksumAlgorithm)
    (.failedPrecondition s!"item_stack {stack.itemStackId} uses unsupported checksum algorithm {stack.checksumAlgorithm}")
  Tx.ensure (stack.stackChecksum =
      itemStackChecksum ext stack.itemStackId stack.quantity stack.stackVersion)
    (.failedPrecondition s!"item_stack {stack.itemStackId} checksum does not match current contents")

def ensureWalletChecksumValid (ext : External) (wallet : WalletRow) : OpTx Unit := do
  Tx.ensure (wallet.checksumAlgorithm = checksumAlgorithm)
    (.failedPrecondition s!"wallet {wallet.walletId} uses unsupported checksum algorithm {wallet.checksumAlgorithm}")
  Tx.ensure (wallet.walletChecksum =
      walletChecksum ext wallet.walletId wallet.iskAmount wallet.walletVersion)
    (.failedPrecondition s!"wallet {wallet.walletId} checksum does not match current contents")

def checkedAdd (left right : Int) (label : String) : OpTx Int := do
  Tx.ensure (InI64 (left + right)) (.failedPrecondition s!"{label} overflow")
  pure (left + right)

def checkedSub (left right : Int) (label : String) : OpTx Int := do
  Tx.ensure (InI64 (left - right)) (.failedPrecondition s!"{label} underflow")
  pure (left - right)

inductive EscrowOwnerRule where
  | newOwner | previousOwner
deriving DecidableEq

def validateOwnerRule (rule : EscrowOwnerRule) (escrowOwnerId destinationOwnerId : Int)
    (destinationName : String) : OpTx Unit :=
  match rule with
  | .newOwner =>
    Tx.ensure (destinationOwnerId ≠ escrowOwnerId)
      (.failedPrecondition s!"{destinationName} must belong to a new owner")
  | .previousOwner =>
    Tx.ensure (destinationOwnerId = escrowOwnerId)
      (.failedPrecondition s!"{destinationName} must belong to the previous owner")

end Guards

section Locks

def lockTradeInstance (id : Uuid) : OpTx TradeInstanceRow := do
  let row ← select fun b => b.tradeInstance.find? id
  Tx.fromOption row (.notFound s!"trade_instance {id} does not exist")

def lockItemStack (id : Uuid) : OpTx ItemStackRow := do
  let row ← select fun b => b.itemStack.find? id
  Tx.fromOption row (.notFound s!"item_stack {id} does not exist")

def lockItemStackEscrowOptional (id : Uuid) : OpTx (Option ItemStackEscrowRow) :=
  select fun b => b.itemStackEscrow.find? id

def lockItemStackEscrow (id : Uuid) : OpTx ItemStackEscrowRow := do
  let row ← lockItemStackEscrowOptional id
  Tx.fromOption row (.notFound s!"item_stack_escrow {id} does not exist")

def lockWallet (id : Uuid) : OpTx WalletRow := do
  let row ← select fun b => b.wallet.find? id
  Tx.fromOption row (.notFound s!"wallet {id} does not exist")

def lockWalletEscrowOptional (id : Uuid) : OpTx (Option WalletEscrowRow) :=
  select fun b => b.walletEscrow.find? id

def lockWalletEscrow (id : Uuid) : OpTx WalletEscrowRow := do
  let row ← lockWalletEscrowOptional id
  Tx.fromOption row (.notFound s!"wallet_escrow {id} does not exist")

end Locks

section Writes

def updateItemStack (ext : External) (stack : ItemStackRow) (quantityAfter : Int)
    (stateAfter : StackState) : OpTx (Int × String) := do
  ensureItemStackChecksumValid ext stack
  let versionAfter ← checkedAdd stack.stackVersion 1 "item_stack stack_version"
  let checksumAfter := itemStackChecksum ext stack.itemStackId quantityAfter versionAfter
  execute (updateItemStackRow stack.itemStackId quantityAfter stateAfter versionAfter checksumAfter
    checksumAlgorithm)
  pure (versionAfter, checksumAfter)

def insertItemStackLedger (ext : External) (stepId : Uuid) (stack : ItemStackRow)
    (entryKind : EntryKind) (delta after : Int) (stateAfter : StackState) (versionAfter : Int)
    (checksumAfter : String) : OpTx Unit :=
  execute (insertItemStackLedgerEvent ext
    { settlementStepId := stepId
      itemStackId := stack.itemStackId
      ledgerSequence := versionAfter
      itemTypeId := stack.itemTypeId
      ownerId := stack.ownerId
      stationId := stack.stationId
      entryKind := entryKind
      quantityDelta := delta
      quantityBefore := stack.quantity
      quantityAfter := after
      stackStateBefore := some stack.stackState
      stackStateAfter := stateAfter
      stackVersionBefore := stack.stackVersion
      stackVersionAfter := versionAfter
      stackChecksumBefore := stack.stackChecksum
      stackChecksumAfter := checksumAfter })

def updateWallet (ext : External) (wallet : WalletRow) (iskAmountAfter : Int) :
    OpTx (Int × String) := do
  ensureWalletChecksumValid ext wallet
  let versionAfter ← checkedAdd wallet.walletVersion 1 "wallet wallet_version"
  let checksumAfter := walletChecksum ext wallet.walletId iskAmountAfter versionAfter
  execute (updateWalletRow wallet.walletId iskAmountAfter versionAfter checksumAfter
    checksumAlgorithm)
  pure (versionAfter, checksumAfter)

def insertWalletLedger (stepId : Uuid) (wallet : WalletRow) (entryKind : EntryKind)
    (delta after versionAfter : Int) (checksumAfter : String) : OpTx Unit :=
  execute (insertWalletLedgerRow stepId wallet entryKind delta after versionAfter checksumAfter)

def releaseOrUpdateItemStackEscrow (id : Uuid) (quantityAfter : Int) (stepId : Uuid) :
    OpTx Unit :=
  if quantityAfter = 0 then execute (releaseItemStackEscrow id stepId)
  else execute (updateItemStackEscrowQuantity id quantityAfter)

def releaseOrUpdateWalletEscrow (id : Uuid) (iskAmountAfter : Int) (stepId : Uuid) : OpTx Unit :=
  if iskAmountAfter = 0 then execute (releaseWalletEscrow id stepId)
  else execute (updateWalletEscrowAmount id iskAmountAfter)

def updateTradeRemainingQuantity (id : Uuid) (remainingBefore remaining : Int) : OpTx Unit := do
  let rowsAffected ← Tx.statement .database (updateTradeRemaining id remainingBefore remaining)
  Tx.ensure (rowsAffected = 1)
    (.failedPrecondition s!"trade_instance {id} remaining_quantity is inconsistent with item_stack_escrow quantity")

end Writes

section TradeChecks

def ensureNoRemainingItemEscrow (id : Uuid) : OpTx Unit := do
  let remaining ← selectSum fun b => b.activeItemEscrowQuantity id
  Tx.ensure (¬ 0 < remaining)
    (.failedPrecondition s!"cannot complete trade_instance {id} while remaining item escrow quantity is {remaining}")

def ensureNoActiveWalletEscrow (id : Uuid) : OpTx Unit := do
  let active ← selectSum fun b => b.activeWalletEscrowIsk id
  Tx.ensure (¬ 0 < active)
    (.failedPrecondition s!"cannot complete trade_instance {id} while active wallet escrow amount is {active}")

def ensureWalletPaymentMatchesTradePrice (ext : External) (clock : DateTime) (id : Uuid)
    (iskAmount : Int) : OpTx Unit := do
  let trade ← lockTradeInstance id
  ensureTradeOpen trade
  ensureTradeNotExpired ext clock trade
  Tx.ensure (¬ (trade.unitPriceIsk ≤ 0 ∨ iskAmount.tmod trade.unitPriceIsk ≠ 0))
    (.failedPrecondition s!"wallet payment {iskAmount} does not match trade price {trade.unitPriceIsk}")
  let paidQuantity := iskAmount.tdiv trade.unitPriceIsk
  Tx.ensure (¬ (paidQuantity ≤ 0 ∨ trade.remainingQuantity < paidQuantity))
    (.failedPrecondition s!"wallet payment {iskAmount} buys quantity {paidQuantity}, but trade_instance {id} has remaining quantity {trade.remainingQuantity}")

def ensureActiveWalletEscrowMatchesItemRelease (ext : External) (clock : DateTime) (id : Uuid)
    (quantity : Int) : OpTx Unit := do
  let trade ← lockTradeInstance id
  ensureTradeOpen trade
  ensureTradeNotExpired ext clock trade
  let active ← selectSum fun b => b.activeWalletEscrowIsk id
  Tx.ensure (InI64 (trade.unitPriceIsk * quantity)) (.failedPrecondition "trade price overflow")
  Tx.ensure (active = trade.unitPriceIsk * quantity)
    (.failedPrecondition s!"active wallet escrow payment {active} does not match trade price {trade.unitPriceIsk} for quantity {quantity}")

def ensureTradeLiveForNewOwnerRelease (ext : External) (clock : DateTime) (id : Uuid) :
    OpTx Unit := do
  let trade ← lockTradeInstance id
  ensureTradeOpen trade
  ensureTradeNotExpired ext clock trade

end TradeChecks

section Operations

variable (ext : External) (ctx : StepContext)

def createNewTradeInstanceRow (p : CreateNewTradeInstanceRow) : OpTx OperationOutput := do
  ensurePositive p.totalQuantity "total_quantity"
  ensurePositive p.unitPriceIsk "unit_price_isk"
  ensureTradeKind p.tradeKind
  ensureNewTradeState p.tradeState
  ensureFutureExpiration ctx.clock p.expiresAt
  let tradeInstanceId := p.tradeInstanceId.getD ctx.newId
  execute (insertTradeInstance ctx.settlementStepId tradeInstanceId p)
  pure (.single "trade_instance" tradeInstanceId)

def modifyTradeInstanceState (p : ModifyTradeInstanceState) : OpTx OperationOutput := do
  ensureTradeState p.toTradeState "to_trade_state"
  ensureTradeStateChangeKind p.tradeStateChangeKind
  let current ← lockTradeInstance p.tradeInstanceId
  ensureTradeTransition current.tradeState p.toTradeState
  Tx.when (p.toTradeState = "COMPLETED") do
    ensureTradeNotExpired ext ctx.clock current
    ensureNoRemainingItemEscrow p.tradeInstanceId
    ensureNoActiveWalletEscrow p.tradeInstanceId
  execute (updateTradeState p.tradeInstanceId p.toTradeState)
  execute (insertTradeStateChange ctx.settlementStepId p.tradeInstanceId current.tradeState
    p.toTradeState p.tradeStateChangeKind p.changedByService)
  pure (.single "trade_instance" p.tradeInstanceId)

theorem empty_nonneg : (0 : Int) ≤ 0 := le_refl 0

def createNewEmptyItemStack (p : CreateNewEmptyItemStack) : OpTx OperationOutput := do
  let itemStackId := p.itemStackId.getD ctx.newId
  let stackVersion : Int := 1
  let checksum := itemStackChecksum ext itemStackId 0 stackVersion
  execute (insertItemStack
    { itemStackId := itemStackId
      ownerId := p.ownerId
      itemTypeId := p.itemTypeId
      stationId := p.stationId
      quantity := 0
      stackState := .active
      stackVersion := stackVersion
      stackChecksum := checksum
      checksumAlgorithm := checksumAlgorithm
      quantity_nonneg := empty_nonneg })
  execute (insertItemStackLedgerEvent ext
    { settlementStepId := ctx.settlementStepId
      itemStackId := itemStackId
      ledgerSequence := stackVersion
      itemTypeId := p.itemTypeId
      ownerId := p.ownerId
      stationId := p.stationId
      entryKind := .createStack
      quantityDelta := 0
      quantityBefore := 0
      quantityAfter := 0
      stackStateBefore := none
      stackStateAfter := .active
      stackVersionBefore := 0
      stackVersionAfter := stackVersion
      stackChecksumBefore := "GENESIS"
      stackChecksumAfter := checksum })
  pure (.single "item_stack" itemStackId)

def ensureItemStackEscrowCompatible (p : TransferQuantityFromItemStackToItemStackEscrow)
    (source : ItemStackRow) : Option ItemStackEscrowRow → OpTx Unit
  | none => pure ()
  | some escrow => do
    ensureEscrowNotReleased "item_stack_escrow" escrow.isReleased escrow.itemStackEscrowId
    Tx.ensure (¬ (escrow.tradeInstanceId ≠ p.tradeInstanceId ∨ escrow.ownerId ≠ source.ownerId ∨
        escrow.sourceItemStackId ≠ source.itemStackId ∨ escrow.itemTypeId ≠ source.itemTypeId ∨
        escrow.stationId ≠ source.stationId))
      (.failedPrecondition s!"item_stack_escrow {escrow.itemStackEscrowId} is not compatible with source item stack")

/-- An escrow that exists is topped up; otherwise it is opened with the quantity. -/
def fundItemStackEscrow (p : TransferQuantityFromItemStackToItemStackEscrow)
    (source : ItemStackRow) (itemStackEscrowId : Uuid) : Option ItemStackEscrowRow → OpTx Unit
  | some escrow => do
    let escrowQuantityAfter ←
      checkedAdd escrow.quantity p.quantity "item_stack_escrow quantity"
    execute (updateItemStackEscrowQuantity itemStackEscrowId escrowQuantityAfter)
  | none =>
    execute (insertItemStackEscrow ctx.settlementStepId itemStackEscrowId p.tradeInstanceId source
      p.quantity ctx.now)

def transferQuantityFromItemStackToItemStackEscrow
    (p : TransferQuantityFromItemStackToItemStackEscrow) : OpTx OperationOutput := do
  ensurePositive p.quantity "quantity"
  let trade ← lockTradeInstance p.tradeInstanceId
  ensureTradeOpen trade
  ensureTradeNotExpired ext ctx.clock trade
  let source ← lockItemStack p.sourceItemStackId
  ensureItemStackActive source
  Tx.ensure (source.ownerId = trade.issuerId)
    (.failedPrecondition s!"source item_stack {source.itemStackId} owner {source.ownerId} does not match trade_instance {trade.tradeInstanceId} issuer {trade.issuerId}")
  Tx.ensure (¬ source.quantity < p.quantity)
    (.insufficientQuantity s!"item_stack {source.itemStackId} has {source.quantity}, requested {p.quantity}")
  let itemStackEscrowId := p.itemStackEscrowId.getD ctx.newId
  let existingEscrow ← lockItemStackEscrowOptional itemStackEscrowId
  ensureItemStackEscrowCompatible p source existingEscrow
  let newSourceQuantity ← checkedSub source.quantity p.quantity "item_stack quantity"
  let (versionAfter, checksumAfter) ← updateItemStack ext source newSourceQuantity .active
  insertItemStackLedger ext ctx.settlementStepId source .transferToEscrow (-p.quantity)
    newSourceQuantity .active versionAfter checksumAfter
  fundItemStackEscrow ctx p source itemStackEscrowId existingEscrow
  pure (.single "item_stack_escrow" itemStackEscrowId)

def releaseEntryKind : EscrowOwnerRule → EntryKind
  | .newOwner => .transferFromEscrowToNewOwner
  | .previousOwner => .transferFromEscrowToPreviousOwner

def transferQuantityFromItemStackEscrowToItemStack
    (p : TransferQuantityFromItemStackEscrowToItemStack) (ownerRule : EscrowOwnerRule) :
    OpTx OperationOutput := do
  ensurePositive p.quantity "quantity"
  let escrow ← lockItemStackEscrow p.itemStackEscrowId
  ensureEscrowNotReleased "item_stack_escrow" escrow.isReleased escrow.itemStackEscrowId
  Tx.ensure (¬ escrow.quantity < p.quantity)
    (.insufficientQuantity s!"item_stack_escrow {escrow.itemStackEscrowId} has {escrow.quantity}, requested {p.quantity}")
  let destination ← lockItemStack p.destinationItemStackId
  ensureItemStackActive destination
  Tx.ensure (¬ (destination.itemTypeId ≠ escrow.itemTypeId ∨
      destination.stationId ≠ escrow.stationId))
    (.failedPrecondition "destination item stack must match escrow item type and station")
  validateOwnerRule ownerRule escrow.ownerId destination.ownerId "destination item stack"
  Tx.when (ownerRule = .newOwner)
    (ensureActiveWalletEscrowMatchesItemRelease ext ctx.clock escrow.tradeInstanceId p.quantity)
  let destinationQuantityAfter ←
    checkedAdd destination.quantity p.quantity "destination item_stack quantity"
  let (versionAfter, checksumAfter) ←
    updateItemStack ext destination destinationQuantityAfter .active
  insertItemStackLedger ext ctx.settlementStepId destination (releaseEntryKind ownerRule)
    p.quantity destinationQuantityAfter .active versionAfter checksumAfter
  let escrowQuantityAfter ← checkedSub escrow.quantity p.quantity "item_stack_escrow quantity"
  releaseOrUpdateItemStackEscrow escrow.itemStackEscrowId escrowQuantityAfter ctx.settlementStepId
  updateTradeRemainingQuantity escrow.tradeInstanceId escrow.quantity escrowQuantityAfter
  pure ⟨[⟨"item_stack", p.destinationItemStackId⟩, ⟨"item_stack_escrow", p.itemStackEscrowId⟩]⟩

def transferQuantityFromItemStackEscrowToItemStackWithNewOwner
    (p : TransferQuantityFromItemStackEscrowToItemStack) : OpTx OperationOutput :=
  transferQuantityFromItemStackEscrowToItemStack ext ctx p .newOwner

def transferQuantityFromItemStackEscrowToItemStackWithPreviousOwner
    (p : TransferQuantityFromItemStackEscrowToItemStack) : OpTx OperationOutput :=
  transferQuantityFromItemStackEscrowToItemStack ext ctx p .previousOwner

def mergeItemStacksWithIdenticalItemTypeAndIdenticalOwner
    (p : MergeItemStacksWithIdenticalItemTypeAndIdenticalOwner) : OpTx OperationOutput := do
  Tx.ensure (p.sourceItemStackId ≠ p.destinationItemStackId)
    (.invalidArgument "source_item_stack_id and destination_item_stack_id must differ")
  let source ← lockItemStack p.sourceItemStackId
  let destination ← lockItemStack p.destinationItemStackId
  ensureItemStackActive source
  ensureItemStackActive destination
  Tx.ensure (¬ (source.ownerId ≠ destination.ownerId ∨ source.itemTypeId ≠ destination.itemTypeId ∨
      source.stationId ≠ destination.stationId))
    (.failedPrecondition "item stacks must have identical owner, item type, and station")
  let destinationQuantityAfter ←
    checkedAdd destination.quantity source.quantity "destination item_stack quantity"
  let (destinationVersion, destinationChecksum) ←
    updateItemStack ext destination destinationQuantityAfter .active
  insertItemStackLedger ext ctx.settlementStepId destination .mergeIn source.quantity
    destinationQuantityAfter .active destinationVersion destinationChecksum
  let (sourceVersion, sourceChecksum) ← updateItemStack ext source 0 .merged
  insertItemStackLedger ext ctx.settlementStepId source .mergeOut (-source.quantity) 0 .merged
    sourceVersion sourceChecksum
  pure ⟨[⟨"item_stack", p.destinationItemStackId⟩, ⟨"item_stack", p.sourceItemStackId⟩]⟩

def createNewEmptyWalletEscrow (p : CreateNewEmptyWalletEscrow) : OpTx OperationOutput := do
  let sourceWallet ← lockWallet p.sourceWalletId
  Tx.ensure (sourceWallet.capsuleerId = p.ownerId)
    (.failedPrecondition s!"source_wallet {p.sourceWalletId} is not owned by capsuleer {p.ownerId}")
  ensureWalletActive sourceWallet
  let walletEscrowId := p.walletEscrowId.getD ctx.newId
  execute (insertWalletEscrow ctx.settlementStepId walletEscrowId p.tradeInstanceId p.ownerId
    p.sourceWalletId 0)
  pure (.single "wallet_escrow" walletEscrowId)

/-- The compatibility of an existing escrow is checked only here, after the wallet was debited. -/
def fundWalletEscrow (p : TransferIskAmountFromWalletToWalletEscrow) (source : WalletRow)
    (walletEscrowId : Uuid) : Option WalletEscrowRow → OpTx Unit
  | some escrow => do
    ensureEscrowNotReleased "wallet_escrow" escrow.isReleased escrow.walletEscrowId
    Tx.ensure (¬ (escrow.tradeInstanceId ≠ p.tradeInstanceId ∨
        escrow.ownerId ≠ source.capsuleerId ∨ escrow.sourceWalletId ≠ source.walletId))
      (.failedPrecondition s!"wallet_escrow {walletEscrowId} is not compatible with source wallet")
    let escrowAmountAfter ← checkedAdd escrow.iskAmount p.iskAmount "wallet_escrow isk_amount"
    execute (updateWalletEscrowAmount walletEscrowId escrowAmountAfter)
  | none =>
    execute (insertWalletEscrow ctx.settlementStepId walletEscrowId p.tradeInstanceId
      source.capsuleerId source.walletId p.iskAmount)

def transferIskAmountFromWalletToWalletEscrow (p : TransferIskAmountFromWalletToWalletEscrow) :
    OpTx OperationOutput := do
  ensurePositive p.iskAmount "isk_amount"
  let source ← lockWallet p.sourceWalletId
  ensureWalletActive source
  ensureWalletPaymentMatchesTradePrice ext ctx.clock p.tradeInstanceId p.iskAmount
  Tx.ensure (¬ source.iskAmount < p.iskAmount)
    (.insufficientFunds s!"wallet {source.walletId} has {source.iskAmount}, requested {p.iskAmount}")
  let walletEscrowId := p.walletEscrowId.getD ctx.newId
  let existingEscrow ← lockWalletEscrowOptional walletEscrowId
  let sourceAmountAfter ← checkedSub source.iskAmount p.iskAmount "wallet isk_amount"
  let (versionAfter, checksumAfter) ← updateWallet ext source sourceAmountAfter
  insertWalletLedger ctx.settlementStepId source .transferToEscrow (-p.iskAmount) sourceAmountAfter
    versionAfter checksumAfter
  fundWalletEscrow ctx p source walletEscrowId existingEscrow
  pure (.single "wallet_escrow" walletEscrowId)

def transferIskAmountFromWalletEscrowToWallet (p : TransferIskAmountFromWalletEscrowToWallet)
    (ownerRule : EscrowOwnerRule) : OpTx OperationOutput := do
  ensurePositive p.iskAmount "isk_amount"
  let escrow ← lockWalletEscrow p.walletEscrowId
  ensureEscrowNotReleased "wallet_escrow" escrow.isReleased escrow.walletEscrowId
  Tx.ensure (¬ escrow.iskAmount < p.iskAmount)
    (.insufficientFunds s!"wallet_escrow {escrow.walletEscrowId} has {escrow.iskAmount}, requested {p.iskAmount}")
  let destination ← lockWallet p.destinationWalletId
  ensureWalletActive destination
  validateOwnerRule ownerRule escrow.ownerId destination.capsuleerId "destination wallet"
  Tx.when (ownerRule = .newOwner)
    (ensureTradeLiveForNewOwnerRelease ext ctx.clock escrow.tradeInstanceId)
  let destinationAmountAfter ←
    checkedAdd destination.iskAmount p.iskAmount "destination wallet isk_amount"
  let (versionAfter, checksumAfter) ← updateWallet ext destination destinationAmountAfter
  insertWalletLedger ctx.settlementStepId destination (releaseEntryKind ownerRule) p.iskAmount
    destinationAmountAfter versionAfter checksumAfter
  let escrowAmountAfter ← checkedSub escrow.iskAmount p.iskAmount "wallet_escrow isk_amount"
  releaseOrUpdateWalletEscrow escrow.walletEscrowId escrowAmountAfter ctx.settlementStepId
  pure ⟨[⟨"wallet", p.destinationWalletId⟩, ⟨"wallet_escrow", p.walletEscrowId⟩]⟩

def transferIskAmountFromWalletEscrowToWalletWithNewOwner
    (p : TransferIskAmountFromWalletEscrowToWallet) : OpTx OperationOutput :=
  transferIskAmountFromWalletEscrowToWallet ext ctx p .newOwner

def transferIskAmountFromWalletEscrowToWalletWithPreviousOwner
    (p : TransferIskAmountFromWalletEscrowToWallet) : OpTx OperationOutput :=
  transferIskAmountFromWalletEscrowToWallet ext ctx p .previousOwner

def executeSettlementCommand : SettlementCommand → OpTx OperationOutput
  | .createNewTradeInstanceRow p => createNewTradeInstanceRow ctx p
  | .modifyTradeInstanceState p => modifyTradeInstanceState ext ctx p
  | .createNewEmptyItemStack p => createNewEmptyItemStack ext ctx p
  | .transferQuantityFromItemStackToItemStackEscrow p =>
    transferQuantityFromItemStackToItemStackEscrow ext ctx p
  | .transferQuantityFromItemStackEscrowToItemStackWithNewOwner p =>
    transferQuantityFromItemStackEscrowToItemStackWithNewOwner ext ctx p
  | .transferQuantityFromItemStackEscrowToItemStackWithPreviousOwner p =>
    transferQuantityFromItemStackEscrowToItemStackWithPreviousOwner ext ctx p
  | .mergeItemStacksWithIdenticalItemTypeAndIdenticalOwner p =>
    mergeItemStacksWithIdenticalItemTypeAndIdenticalOwner ext ctx p
  | .createNewEmptyWalletEscrow p => createNewEmptyWalletEscrow ctx p
  | .transferIskAmountFromWalletToWalletEscrow p =>
    transferIskAmountFromWalletToWalletEscrow ext ctx p
  | .transferIskAmountFromWalletEscrowToWalletWithNewOwner p =>
    transferIskAmountFromWalletEscrowToWalletWithNewOwner ext ctx p
  | .transferIskAmountFromWalletEscrowToWalletWithPreviousOwner p =>
    transferIskAmountFromWalletEscrowToWalletWithPreviousOwner ext ctx p

end Operations

end EveTrade.SettlementOperations
