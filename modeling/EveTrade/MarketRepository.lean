import EveTrade.MarketRequests
import EveTrade.SettlementExecutor

set_option autoImplicit false

/-!
# What the market reads

The queries of the market on the rows that settlement has committed. Tables keep their rows in the
order in which they were created.
-/
namespace EveTrade.MarketRepository

open KeyedTable JsonText UuidText SettlementTypes SettlementSchema SettlementExecutor

structure ItemStackSnapshot where
  itemStackId : String
  ownerId : Int
  itemTypeId : Int
  stationId : Int
  quantity : Int
  stackState : StackState

structure WalletSnapshot where
  walletId : String
  capsuleerId : Int
  iskAmount : Int
  walletState : WalletState

structure TradeSnapshot where
  tradeInstanceId : String
  tradeState : TradeState
  issuerId : Int
  itemTypeId : Int
  stationId : Int
  totalQuantity : Int
  remainingQuantity : Int
  unitPriceIsk : Int
  expiresAt : Option DateTime
  itemStackEscrowId : String
  escrowQuantity : Int
  escrowReleased : Bool
  sourceItemStackId : String
  sourceItemOwnerId : Int
  sourceItemStackQty : Int

section Queries

variable (db : Db)

def castUuid (what value : String) : Except String Uuid :=
  match Uuid.parse value with
  | some u => .ok u
  | none => .error (s!"load {what} {value}: ERROR: invalid input syntax for type uuid: \"" ++ value ++
      "\" (SQLSTATE 22P02)")

def itemStackSnapshot (s : ItemStackRow) : ItemStackSnapshot :=
  ⟨s.itemStackId.text, s.ownerId, s.itemTypeId, s.stationId, s.quantity, s.stackState⟩

def walletSnapshot (w : WalletRow) : WalletSnapshot :=
  ⟨w.walletId.text, w.capsuleerId, w.iskAmount, w.walletState⟩

def loadItemStack (itemStackId : String) : Except String ItemStackSnapshot := do
  let id ← castUuid "item_stack" itemStackId
  match db.business.itemStack.find? id with
  | none => .error s!"item_stack {itemStackId} does not exist"
  | some s => pure (itemStackSnapshot s)

def loadWallet (walletId : String) : Except String WalletSnapshot := do
  let id ← castUuid "wallet" walletId
  match db.business.wallet.find? id with
  | none => .error s!"wallet {walletId} does not exist"
  | some w => pure (walletSnapshot w)

def loadPrimaryWallet (capsuleerId : Int) : Except String WalletSnapshot :=
  match db.business.wallet.rows.find? fun w => w.capsuleerId = capsuleerId with
  | none => .error s!"primary wallet for capsuleer {capsuleerId} does not exist"
  | some w => .ok (walletSnapshot w)

/-- The escrows of a trade whose source stack exists, the earliest first. -/
def tradeEscrows (id : Uuid) : List (ItemStackEscrowRow × ItemStackRow) :=
  ((db.business.itemStackEscrow.rows.filter fun e => e.tradeInstanceId = id).insertionSort
    fun e f => e.createdAt ≤ f.createdAt).filterMap fun e =>
      (db.business.itemStack.find? e.sourceItemStackId).map fun s => (e, s)

def tradeSnapshot (t : TradeInstanceRow) (e : ItemStackEscrowRow) (s : ItemStackRow) :
    TradeSnapshot where
  tradeInstanceId := t.tradeInstanceId.text
  tradeState := t.tradeState
  issuerId := t.issuerId
  itemTypeId := t.itemTypeId
  stationId := t.stationId
  totalQuantity := t.totalQuantity
  remainingQuantity := t.remainingQuantity
  unitPriceIsk := t.unitPriceIsk
  expiresAt := t.expiresAt
  itemStackEscrowId := e.itemStackEscrowId.text
  escrowQuantity := e.quantity
  escrowReleased := e.isReleased
  sourceItemStackId := e.sourceItemStackId.text
  sourceItemOwnerId := s.ownerId
  sourceItemStackQty := s.quantity

def loadTrade (tradeInstanceId : String) : Except String TradeSnapshot := do
  let id ← castUuid "trade_instance" tradeInstanceId
  match db.business.tradeInstance.find? id, (tradeEscrows db id).head? with
  | some t, some (e, s) => pure (tradeSnapshot t e s)
  | _, _ => .error s!"trade_instance {tradeInstanceId} does not exist"

end Queries

structure ReplayStep where
  stepKind : String
  payload : List (String × Json)

structure IdempotencyReplay where
  operationId : String
  queuedAt : DateTime
  settlementBatchId : String
  requestFingerprint : String
  externalRequestId : String
  causedByCapsuleerId : Int
  steps : List ReplayStep

section Replay

def decodeReplayStepPayload : Json → Except String (List (String × Json))
  | .obj fields => .ok fields
  | .null => .ok []
  | _ => .error "json: cannot unmarshal into Go value of type map[string]interface \x7b\x7d"

def replayStepsOf (idempotencyKey : String) : List SettlementStepRow → Except String (List ReplayStep)
  | [] => .ok []
  | row :: rest =>
    match decodeReplayStepPayload row.stepPayload with
    | .error e => .error s!"decode idempotency replay step {idempotencyKey}: {e}"
    | .ok payload => do
      let steps ← replayStepsOf idempotencyKey rest
      pure (⟨row.stepKind, payload⟩ :: steps)

/-- The completed record of a key joined with its batch. -/
def completedBatch (db : Db) (idempotencyKey : String) :
    Option (IdempotencyRecordRow × SettlementBatchRow) := do
  let record ← db.idempotencyRecord.find? idempotencyKey
  if record.idempotencyState = .completed then
    let batchId ← record.resultSettlementBatchId
    let batch ← db.settlementBatch.find? batchId
    pure (record, batch)
  else none

def replayOf (db : Db) (record : IdempotencyRecordRow) (batch : SettlementBatchRow)
    (steps : List ReplayStep) : IdempotencyReplay :=
  let operation := db.settlementOperation.find? record.idempotencyKey
  { operationId := (operation.map fun o => o.operationId.text).getD ""
    queuedAt := (operation.map fun o => o.queuedAt).getD batch.startedAt
    settlementBatchId := batch.settlementBatchId.text
    requestFingerprint := record.requestFingerprint
    externalRequestId := batch.externalRequestId.getD ""
    causedByCapsuleerId := batch.causedByCapsuleerId.getD 0
    steps := steps }

def loadCompletedIdempotencyReplay (db : Db) (idempotencyKey : String) :
    Except String (Option IdempotencyReplay) :=
  match completedBatch db idempotencyKey with
  | none => .ok none
  | some (record, batch) => do
    let steps ← replayStepsOf idempotencyKey (batchSteps db batch.settlementBatchId)
    pure (some (replayOf db record batch steps))

end Replay

end EveTrade.MarketRepository
