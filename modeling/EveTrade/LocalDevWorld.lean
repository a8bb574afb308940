import EveTrade.SettlementRecords

set_option autoImplicit false

/-!
# The seeded world

The rows of the local development seed and the commands of the settlement service's own tests.
-/
namespace EveTrade.LocalDevWorld

open KeyedTable JsonText UuidText SettlementTypes SettlementCommands SettlementSchema
  SettlementEffects SettlementExecutor SettlementRecords

def sellerId : Int := 1001
def buyerId : Int := 2002
def otherId : Int := 3003
def outsiderId : Int := 4004

def sourceStackId : Uuid := .ofNat 0x11111111111141118111111111111111
def pyeriteStackId : Uuid := .ofNat 0x22222222222242228222222222222222
def buyerStackId : Uuid := .ofNat 0x33333333333343338333333333333333
def otherOwnerStackId : Uuid := .ofNat 0x44444444444444448444444444444444

def sellerWalletId : Uuid := .ofNat 0x00000000000040008000000000001001
def buyerWalletId : Uuid := .ofNat 0x00000000000040008000000000002002
def otherWalletId : Uuid := .ofNat 0x00000000000040008000000000003003
def outsiderWalletId : Uuid := .ofNat 0x00000000000040008000000000004004

def seedRequestId : Uuid := .ofNat 0x99999999000040008000000000000001
def seedBatchId : Uuid := .ofNat 0x99999999000040008000000000000002
def seedStepId : Uuid := .ofNat 0x99999999000040008000000000000003
def seedKey : String := "local-dev-world-item-stack-seed"

section Rows

variable (ext : External)

def seedWallet (walletId : Uuid) (capsuleerId : Int) : WalletRow where
  walletId := walletId
  capsuleerId := capsuleerId
  iskAmount := 1000000
  walletState := .active
  walletVersion := 1
  walletChecksum := walletChecksum ext walletId 1000000 1
  checksumAlgorithm := checksumAlgorithm
  iskAmount_nonneg := by decide

def seedStack (itemStackId : Uuid) (ownerId itemTypeId quantity : Int) (h : 0 ≤ quantity) :
    ItemStackRow where
  itemStackId := itemStackId
  ownerId := ownerId
  itemTypeId := itemTypeId
  stationId := 60003760
  quantity := quantity
  stackState := .active
  stackVersion := 1
  stackChecksum := itemStackChecksum ext itemStackId quantity 1
  checksumAlgorithm := checksumAlgorithm
  quantity_nonneg := h

def seedLedgerPayload (s : ItemStackRow) : ItemStackLedgerPayload where
  settlementStepId := seedStepId
  itemStackId := s.itemStackId
  ledgerSequence := 1
  itemTypeId := s.itemTypeId
  ownerId := s.ownerId
  stationId := s.stationId
  entryKind := .createStack
  quantityDelta := s.quantity
  quantityBefore := 0
  quantityAfter := s.quantity
  stackStateBefore := none
  stackStateAfter := s.stackState
  stackVersionBefore := 0
  stackVersionAfter := 1
  stackChecksumBefore := "GENESIS"
  stackChecksumAfter := s.stackChecksum

def seedLedger (s : ItemStackRow) : ItemStackLedgerRow where
  payload := seedLedgerPayload s
  previousItemStackLedgerHash := "GENESIS"
  ledgerPayloadHash := itemStackLedgerPayloadHash ext (seedLedgerPayload s)
  itemStackLedgerHash :=
    itemStackLedgerHash ext "GENESIS" (itemStackLedgerPayloadHash ext (seedLedgerPayload s))
  quantityDelta := (zero_add _).symm
  versionIncrement := rfl
  sequenceVersion := rfl
  ledgerSequence_pos := Int.one_pos

def seedStacks : Table ItemStackRow where
  rows := [
    seedStack ext sourceStackId sellerId 34 100 (by decide),
    seedStack ext pyeriteStackId sellerId 35 50 (by decide),
    seedStack ext buyerStackId buyerId 34 5 (by decide),
    seedStack ext otherOwnerStackId otherId 34 25 (by decide)]
  nodup := by
    change [sourceStackId, pyeriteStackId, buyerStackId, otherOwnerStackId].Nodup
    decide

def seedWallets : Table WalletRow where
  rows := [seedWallet ext sellerWalletId sellerId, seedWallet ext buyerWalletId buyerId,
    seedWallet ext otherWalletId otherId, seedWallet ext outsiderWalletId outsiderId]
  nodup := by
    change [sellerWalletId, buyerWalletId, otherWalletId, outsiderWalletId].Nodup
    decide

def seedBusiness : Business where
  capsuleer := [sellerId, buyerId, otherId, outsiderId]
  itemType := [34, 35]
  station := [60003760, 60008494]
  wallet := seedWallets ext
  itemStack := seedStacks ext
  tradeInstance := .empty
  walletEscrow := .empty
  itemStackEscrow := .empty
  walletLedger := []
  itemStackLedger := (seedStacks ext).rows.map (seedLedger ext)
  tradeStateChange := []

def seedRecord : IdempotencyRecordRow where
  idempotencyKey := seedKey
  requestFingerprint := ext.sha256Hex "local-dev-world-item-stack-seed-v1"
  requestKind := "local_dev_world.seed_item_stacks"
  idempotencyState := .completed
  createdByService := "local-dev-seed"
  resultSettlementBatchId := some seedBatchId
  failureCode := none
  failureMessage := none

def seedAttempt : RequestAttemptRow where
  requestId := seedRequestId
  idempotencyKey := seedKey
  attemptNumber := 1
  receivedByService := "local-dev-seed"
  attemptState := .completed
  failureCode := none
  failureMessage := none

def seedBatch : SettlementBatchRow where
  settlementBatchId := seedBatchId
  requestId := seedRequestId
  idempotencyKey := seedKey
  externalRequestId := some seedKey
  causedByCapsuleerId := none
  batchState := .completed
  createdByService := "local-dev-seed"
  startedAt := 0
  failureCode := none
  failureMessage := none

def seedStep : SettlementStepRow where
  settlementStepId := seedStepId
  settlementBatchId := seedBatchId
  stepIndex := 0
  stepKind := "local_dev_world.seed_item_stack_ledgers"
  stepPayload := .obj [("source", .str "local_dev_world.sql")]
  stepPayloadHash := ext.sha256Hex "local_dev_world.seed_item_stack_ledgers"
  stepOutput := .obj []
  stepState := .completed
  failureCode := none
  failureMessage := none

def localDevWorld : Db where
  business := seedBusiness ext
  idempotencyRecord := ⟨[seedRecord ext], List.nodup_singleton _⟩
  requestAttempt := ⟨[seedAttempt], List.nodup_singleton _⟩
  settlementBatch := ⟨[seedBatch], List.nodup_singleton _⟩
  settlementStep := ⟨[seedStep ext], List.nodup_singleton _⟩
  settlementOperation := .empty

theorem localDevWorld_references : References (localDevWorld ext) where
  batchRecord := by
    intro b hb
    obtain rfl := List.mem_singleton.1 hb
    exact ⟨seedRecord ext, Table.find?_eq_some_iff.2 ⟨List.mem_singleton.2 rfl, rfl⟩⟩
  stepBatch := by
    intro t ht
    obtain rfl := List.mem_singleton.1 ht
    exact ⟨seedBatch, Table.find?_eq_some_iff.2 ⟨List.mem_singleton.2 rfl, rfl⟩⟩

/-- Every seeded stack and wallet carries the checksum that settlement will ask of it. -/
theorem localDevWorld_checksums :
    (∀ s ∈ (localDevWorld ext).business.itemStack.rows, StackChecksumValid ext s) ∧
      ∀ w ∈ (localDevWorld ext).business.wallet.rows, WalletChecksumValid ext w := by
  constructor
  · intro s hs
    simp only [localDevWorld, seedBusiness, seedStacks, List.mem_cons, List.not_mem_nil,
      or_false] at hs
    rcases hs with rfl | rfl | rfl | rfl <;> exact ⟨rfl, rfl⟩
  · intro w hw
    simp only [localDevWorld, seedBusiness, seedWallets, List.mem_cons, List.not_mem_nil,
      or_false] at hw
    rcases hw with rfl | rfl | rfl | rfl <;> exact ⟨rfl, rfl⟩

end Rows

section Commands

/-- A call that meets no outside failure, with generated ids counted from `n`. -/
def quietEnv (n : ℕ) : ExecEnv where
  now := 0
  requestId := .ofNat n
  settlementBatchId := .ofNat (n + 1)
  step := fun i => ⟨.ofNat (n + 2 + 2 * i), 0, .ofNat (n + 3 + 2 * i)⟩
  faults := []
  auditFaults := []
  replayFaults := []

/-- A digest that is the text itself, and instants written as numbers. -/
def transparent : External where
  sha256Hex := id
  toRfc3339 := fun t => render (.num t)
  serdeDateTime := fun t => render (.num t)
  parseRfc3339 := fun _ => none
  violationsText := fun vs => ", ".intercalate (vs.map FieldText.Violation.message)

/-- The bytes of a text as the digits of a number to the base 257, modulo `2 ^ 128`. -/
def positional (s : String) : ℕ :=
  s.toByteArray.data.toList.foldl
    (fun n byte => (257 * n + byte.toNat) % 0x100000000000000000000000000000000) 0

/-- A digest of 32 hexadecimal digits. -/
def hexadecimal : External :=
  { transparent with sha256Hex := fun s => String.ofList (Uuid.hexDigits 32 (positional s)) }

theorem transparent_serdeDateTime_injective : Function.Injective transparent.serdeDateTime :=
  fun _ _ h => Json.num.inj (render_injective h)

def issueTradeCommand (key : String) (tradeInstanceId itemStackEscrowId : Uuid) (quantity : Int)
    (requestId : Option Uuid) : ExecuteBatchCommand where
  intent := .issue
  idempotencyKey := key
  requestFingerprint := none
  externalRequestId := some ("external-" ++ key)
  causedByCapsuleerId := some sellerId
  operations := [
    .createNewTradeInstanceRow ⟨some tradeInstanceId, "SELL", "OPEN", sellerId, 34, 60003760,
      quantity, 25, none⟩,
    .transferQuantityFromItemStackToItemStackEscrow ⟨sourceStackId, some itemStackEscrowId,
      tradeInstanceId, quantity⟩]
  createdByService := "market"
  requestId := requestId

def acceptTradeCommand (key : String) (tradeInstanceId itemStackEscrowId walletEscrowId : Uuid)
    (quantity : Int) (completes : Bool) (requestId : Option Uuid) : ExecuteBatchCommand where
  intent := .accept
  idempotencyKey := key
  requestFingerprint := none
  externalRequestId := some ("external-" ++ key)
  causedByCapsuleerId := some buyerId
  operations := [
    .transferIskAmountFromWalletToWalletEscrow ⟨buyerWalletId, some walletEscrowId,
      tradeInstanceId, quantity * 25⟩,
    .transferQuantityFromItemStackEscrowToItemStackWithNewOwner ⟨itemStackEscrowId, buyerStackId,
      quantity⟩,
    .transferIskAmountFromWalletEscrowToWalletWithNewOwner ⟨walletEscrowId, sellerWalletId,
      quantity * 25⟩] ++
    if completes then [.modifyTradeInstanceState ⟨tradeInstanceId, "COMPLETED",
      "ACCEPTED_BY_BUYER", "market"⟩] else []
  createdByService := "market"
  requestId := requestId

def cancelTradeCommand (key : String) (tradeInstanceId itemStackEscrowId : Uuid) (quantity : Int)
    (requestId : Option Uuid) : ExecuteBatchCommand where
  intent := .cancel
  idempotencyKey := key
  requestFingerprint := none
  externalRequestId := some ("external-" ++ key)
  causedByCapsuleerId := some sellerId
  operations := [
    .transferQuantityFromItemStackEscrowToItemStackWithPreviousOwner ⟨itemStackEscrowId,
      sourceStackId, quantity⟩,
    .modifyTradeInstanceState ⟨tradeInstanceId, "CANCELLED", "CANCELLED_BY_ISSUER", "market"⟩]
  createdByService := "market"
  requestId := requestId

end Commands

end EveTrade.LocalDevWorld
