import EveTrade.KeyedTable
import EveTrade.SettlementCommands

set_option autoImplicit false

/-!
# The settlement database

Rows carry the `CHECK` constraints of their table as fields, so a row that breaks one cannot be
built. Columns that no code reads (display names, update and completion times) are left out, and so
are the generated primary keys of the append-only tables.
-/
namespace EveTrade.SettlementSchema

open KeyedTable JsonText UuidText SettlementTypes

structure WalletRow where
  walletId : Uuid
  capsuleerId : Int
  iskAmount : Int
  walletState : WalletState
  walletVersion : Int
  walletChecksum : String
  checksumAlgorithm : String
  iskAmount_nonneg : 0 ≤ iskAmount
deriving DecidableEq

structure ItemStackRow where
  itemStackId : Uuid
  ownerId : Int
  itemTypeId : Int
  stationId : Int
  quantity : Int
  stackState : StackState
  stackVersion : Int
  stackChecksum : String
  checksumAlgorithm : String
  quantity_nonneg : 0 ≤ quantity
deriving DecidableEq

structure TradeInstanceRow where
  tradeInstanceId : Uuid
  createdSettlementStepId : Uuid
  tradeKind : TradeKind
  tradeState : TradeState
  issuerId : Int
  itemTypeId : Int
  stationId : Int
  totalQuantity : Int
  remainingQuantity : Int
  unitPriceIsk : Int
  expiresAt : Option DateTime
  totalQuantity_pos : 0 < totalQuantity
  remainingQuantity_range : 0 ≤ remainingQuantity ∧ remainingQuantity ≤ totalQuantity
  unitPriceIsk_pos : 0 < unitPriceIsk
deriving DecidableEq

structure WalletEscrowRow where
  walletEscrowId : Uuid
  tradeInstanceId : Uuid
  ownerId : Int
  sourceWalletId : Uuid
  iskAmount : Int
  isReleased : Bool
  createdSettlementStepId : Uuid
  releasedSettlementStepId : Option Uuid
  iskAmount_nonneg : 0 ≤ iskAmount
deriving DecidableEq

structure ItemStackEscrowRow where
  itemStackEscrowId : Uuid
  tradeInstanceId : Uuid
  ownerId : Int
  sourceItemStackId : Uuid
  itemTypeId : Int
  stationId : Int
  quantity : Int
  isReleased : Bool
  createdSettlementStepId : Uuid
  releasedSettlementStepId : Option Uuid
  createdAt : DateTime
  quantity_nonneg : 0 ≤ quantity
deriving DecidableEq

structure WalletLedgerRow where
  settlementStepId : Uuid
  walletId : Uuid
  capsuleerId : Int
  entryKind : EntryKind
  iskAmountDelta : Int
  iskAmountBefore : Int
  iskAmountAfter : Int
  walletVersionBefore : Int
  walletVersionAfter : Int
  walletChecksumBefore : String
  walletChecksumAfter : String
  amountDelta : iskAmountAfter = iskAmountBefore + iskAmountDelta
  versionIncrement : walletVersionAfter = walletVersionBefore + 1
deriving DecidableEq

/-- The columns of an item-stack ledger row that its payload hash covers. -/
structure ItemStackLedgerPayload where
  settlementStepId : Uuid
  itemStackId : Uuid
  ledgerSequence : Int
  itemTypeId : Int
  ownerId : Int
  stationId : Int
  entryKind : EntryKind
  quantityDelta : Int
  quantityBefore : Int
  quantityAfter : Int
  stackStateBefore : Option StackState
  stackStateAfter : StackState
  stackVersionBefore : Int
  stackVersionAfter : Int
  stackChecksumBefore : String
  stackChecksumAfter : String
deriving DecidableEq

structure ItemStackLedgerRow where
  payload : ItemStackLedgerPayload
  previousItemStackLedgerHash : String
  ledgerPayloadHash : String
  itemStackLedgerHash : String
  quantityDelta : payload.quantityAfter = payload.quantityBefore + payload.quantityDelta
  versionIncrement : payload.stackVersionAfter = payload.stackVersionBefore + 1
  sequenceVersion : payload.ledgerSequence = payload.stackVersionAfter
  ledgerSequence_pos : 0 < payload.ledgerSequence
deriving DecidableEq

structure TradeStateChangeRow where
  settlementStepId : Uuid
  tradeInstanceId : Uuid
  fromTradeState : TradeState
  toTradeState : TradeState
  tradeStateChangeKind : TradeStateChangeKind
  changedByService : String
deriving DecidableEq

def WalletRow.posted (w : WalletRow) (amount version : Int) (checksum algorithm : String)
    (h : 0 ≤ amount) : WalletRow :=
  { w with
    iskAmount := amount
    walletVersion := version
    walletChecksum := checksum
    checksumAlgorithm := algorithm
    iskAmount_nonneg := h }

def ItemStackRow.posted (s : ItemStackRow) (quantity : Int) (state : StackState) (version : Int)
    (checksum algorithm : String) (h : 0 ≤ quantity) : ItemStackRow :=
  { s with
    quantity := quantity
    stackState := state
    stackVersion := version
    stackChecksum := checksum
    checksumAlgorithm := algorithm
    quantity_nonneg := h }

def TradeInstanceRow.withState (t : TradeInstanceRow) (state : TradeState) : TradeInstanceRow :=
  { t with tradeState := state }

def TradeInstanceRow.withRemaining (t : TradeInstanceRow) (remaining : Int)
    (h : 0 ≤ remaining ∧ remaining ≤ t.totalQuantity) : TradeInstanceRow :=
  { t with remainingQuantity := remaining, remainingQuantity_range := h }

def WalletEscrowRow.holding (e : WalletEscrowRow) (amount : Int) (h : 0 ≤ amount) :
    WalletEscrowRow :=
  { e with iskAmount := amount, iskAmount_nonneg := h }

def WalletEscrowRow.released (e : WalletEscrowRow) (stepId : Uuid) : WalletEscrowRow :=
  { e with
    iskAmount := 0
    isReleased := true
    releasedSettlementStepId := some stepId
    iskAmount_nonneg := le_refl 0 }

def ItemStackEscrowRow.holding (e : ItemStackEscrowRow) (quantity : Int) (h : 0 ≤ quantity) :
    ItemStackEscrowRow :=
  { e with quantity := quantity, quantity_nonneg := h }

def ItemStackEscrowRow.released (e : ItemStackEscrowRow) (stepId : Uuid) : ItemStackEscrowRow :=
  { e with
    quantity := 0
    isReleased := true
    releasedSettlementStepId := some stepId
    quantity_nonneg := le_refl 0 }

instance : Keyed WalletRow Uuid := ⟨WalletRow.walletId⟩
instance : Keyed ItemStackRow Uuid := ⟨ItemStackRow.itemStackId⟩
instance : Keyed TradeInstanceRow Uuid := ⟨TradeInstanceRow.tradeInstanceId⟩
instance : Keyed WalletEscrowRow Uuid := ⟨WalletEscrowRow.walletEscrowId⟩
instance : Keyed ItemStackEscrowRow Uuid := ⟨ItemStackEscrowRow.itemStackEscrowId⟩

/-- The rows that settlement steps read and write. -/
structure Business where
  capsuleer : List Int
  itemType : List Int
  station : List Int
  wallet : Table WalletRow
  itemStack : Table ItemStackRow
  tradeInstance : Table TradeInstanceRow
  walletEscrow : Table WalletEscrowRow
  itemStackEscrow : Table ItemStackEscrowRow
  walletLedger : List WalletLedgerRow
  itemStackLedger : List ItemStackLedgerRow
  tradeStateChange : List TradeStateChangeRow

structure IdempotencyRecordRow where
  idempotencyKey : String
  requestFingerprint : String
  requestKind : String
  idempotencyState : ProgressState
  createdByService : String
  resultSettlementBatchId : Option Uuid
  failureCode : Option String
  failureMessage : Option String

structure RequestAttemptRow where
  requestId : Uuid
  idempotencyKey : String
  attemptNumber : Int
  receivedByService : String
  attemptState : ProgressState
  failureCode : Option String
  failureMessage : Option String

structure SettlementBatchRow where
  settlementBatchId : Uuid
  requestId : Uuid
  idempotencyKey : String
  externalRequestId : Option String
  causedByCapsuleerId : Option Int
  batchState : ProgressState
  createdByService : String
  startedAt : DateTime
  failureCode : Option String
  failureMessage : Option String

structure SettlementStepRow where
  settlementStepId : Uuid
  settlementBatchId : Uuid
  stepIndex : ℕ
  stepKind : String
  stepPayload : Json
  stepPayloadHash : String
  stepOutput : Json
  stepState : StepState
  failureCode : Option String
  failureMessage : Option String

structure SettlementOperationRow where
  operationId : Uuid
  idempotencyKey : String
  requestFingerprint : String
  intent : SettlementIntent
  causedByCapsuleerId : Int
  externalRequestId : Option String
  operationState : OperationState
  settlementBatchId : Option Uuid
  failureCode : Option String
  failureDescription : Option String
  resultPublished : Bool
  queuedAt : DateTime

instance : Keyed IdempotencyRecordRow String := ⟨IdempotencyRecordRow.idempotencyKey⟩
instance : Keyed RequestAttemptRow Uuid := ⟨RequestAttemptRow.requestId⟩
instance : Keyed SettlementBatchRow Uuid := ⟨SettlementBatchRow.settlementBatchId⟩
instance : Keyed SettlementStepRow Uuid := ⟨SettlementStepRow.settlementStepId⟩

/-- Durable operations are unique by idempotency key as well as by id; settlement reaches them by
their idempotency key. -/
instance : Keyed SettlementOperationRow String := ⟨SettlementOperationRow.idempotencyKey⟩

structure Db where
  business : Business
  idempotencyRecord : Table IdempotencyRecordRow
  requestAttempt : Table RequestAttemptRow
  settlementBatch : Table SettlementBatchRow
  settlementStep : Table SettlementStepRow
  settlementOperation : Table SettlementOperationRow

/-- The ledger row of a stack with the highest sequence number. -/
def latestOf (ledger : List ItemStackLedgerRow) (itemStackId : Uuid) :
    Option ItemStackLedgerRow :=
  (ledger.filter fun l => l.payload.itemStackId = itemStackId).foldl
    (fun best l =>
      match best with
      | none => some l
      | some m => if m.payload.ledgerSequence < l.payload.ledgerSequence then some l else some m)
    none

namespace Business

def activeItemEscrowQuantity (b : Business) (tradeInstanceId : Uuid) : Int :=
  b.itemStackEscrow.sum fun e =>
    if e.tradeInstanceId = tradeInstanceId ∧ e.isReleased = false then e.quantity else 0

def activeWalletEscrowIsk (b : Business) (tradeInstanceId : Uuid) : Int :=
  b.walletEscrow.sum fun e =>
    if e.tradeInstanceId = tradeInstanceId ∧ e.isReleased = false then e.iskAmount else 0

def activeItemEscrowCount (b : Business) (tradeInstanceId : Uuid) : ℕ :=
  b.itemStackEscrow.rows.countP fun e =>
    decide (e.tradeInstanceId = tradeInstanceId ∧ e.isReleased = false)

def activeWalletEscrowCount (b : Business) (tradeInstanceId : Uuid) : ℕ :=
  b.walletEscrow.rows.countP fun e =>
    decide (e.tradeInstanceId = tradeInstanceId ∧ e.isReleased = false)

def latestLedger (b : Business) (itemStackId : Uuid) : Option ItemStackLedgerRow :=
  latestOf b.itemStackLedger itemStackId

end Business

section LedgerHashes

def itemStackLedgerPayloadHash (ext : External) (p : ItemStackLedgerPayload) : String :=
  ext.sha256Hex ("|".intercalate [
    "item_stack_ledger_payload_v1", toString p.settlementStepId, toString p.itemStackId,
    toString p.ledgerSequence, toString p.itemTypeId, toString p.ownerId, toString p.stationId,
    p.entryKind.text, toString p.quantityDelta, toString p.quantityBefore,
    toString p.quantityAfter, stackStateBeforeText p.stackStateBefore, p.stackStateAfter.text,
    toString p.stackVersionBefore, toString p.stackVersionAfter, p.stackChecksumBefore,
    p.stackChecksumAfter])

def itemStackLedgerHash (ext : External) (previousHash payloadHash : String) : String :=
  ext.sha256Hex ("|".intercalate ["item_stack_ledger_hash_v1", previousHash, payloadHash])

end LedgerHashes

/-- The checks of the deferred constraint triggers, queued by the row that fired them. -/
inductive DeferredCheck where
  | tradeRemainingQuantity (tradeInstanceId : Uuid)
  | itemStackLedgerProjection (itemStackId : Uuid)
  | tradeWalletEscrowClosedState (tradeInstanceId : Uuid)
deriving DecidableEq

def checkTradeRemainingQuantityInvariant (id : Uuid) (b : Business) : Except DbError Unit :=
  match b.tradeInstance.find? id with
  | none => .ok ()
  | some t =>
    let active := b.activeItemEscrowQuantity id
    if ¬ InI64 active then .error (.outOfRange "bigint")
    else if t.remainingQuantity ≠ active then
      .error (.raised s!"trade_instance {id} remaining_quantity {t.remainingQuantity} does not match active item escrow quantity {active}")
    else if t.tradeState ≠ .open ∧ active ≠ 0 then
      .error (.raised s!"trade_instance {id} cannot be {t.tradeState.text} while active item escrow quantity is {active}")
    else .ok ()

def checkItemStackLedgerProjectionInvariant (id : Uuid) (b : Business) : Except DbError Unit :=
  match b.itemStack.find? id with
  | none => .ok ()
  | some stack =>
    match b.latestLedger id with
    | none =>
      .error (.raised s!"item_stack {id} has no reconstructable item_stack_ledger rows")
    | some l =>
      if stack.ownerId ≠ l.payload.ownerId ∨ stack.itemTypeId ≠ l.payload.itemTypeId ∨
          stack.stationId ≠ l.payload.stationId ∨ stack.quantity ≠ l.payload.quantityAfter ∨
          stack.stackState ≠ l.payload.stackStateAfter ∨
          stack.stackVersion ≠ l.payload.stackVersionAfter ∨
          stack.stackChecksum ≠ l.payload.stackChecksumAfter then
        .error (.raised s!"item_stack {id} projection does not match latest item_stack_ledger row")
      else .ok ()

def checkTradeWalletEscrowClosedStateInvariant (id : Uuid) (b : Business) :
    Except DbError Unit :=
  match b.tradeInstance.find? id with
  | none => .ok ()
  | some t =>
    let active := b.activeWalletEscrowIsk id
    if ¬ InI64 active then .error (.outOfRange "bigint")
    else if t.tradeState ≠ .open ∧ active ≠ 0 then
      .error (.raised s!"trade_instance {id} cannot be {t.tradeState.text} while active wallet escrow amount is {active}")
    else .ok ()

def DeferredCheck.run : DeferredCheck → Business → Except DbError Unit
  | tradeRemainingQuantity id => checkTradeRemainingQuantityInvariant id
  | itemStackLedgerProjection id => checkItemStackLedgerProjectionInvariant id
  | tradeWalletEscrowClosedState id => checkTradeWalletEscrowClosedStateInvariant id

/-- A trade that passes its check holds what its unreleased escrows hold, and nothing once closed. -/
theorem checkTradeRemainingQuantityInvariant_eq_ok {id : Uuid} {b : Business}
    {t : TradeInstanceRow} (ht : b.tradeInstance.find? id = some t)
    (h : checkTradeRemainingQuantityInvariant id b = .ok ()) :
    t.remainingQuantity = b.activeItemEscrowQuantity id ∧
      (t.tradeState ≠ .open → t.remainingQuantity = 0) := by
  simp only [checkTradeRemainingQuantityInvariant, ht] at h
  split_ifs at h with h1 h2 h3
  simp only [not_and, not_not, ne_eq] at h2 h3
  exact ⟨h2, fun hs => h2.trans (h3 hs)⟩

end EveTrade.SettlementSchema
