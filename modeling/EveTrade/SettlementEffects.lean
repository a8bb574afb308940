import EveTrade.SettlementOperations

set_option autoImplicit false

/-!
# What a settlement step can do

For each operation a relation between the rows before and after it, with the guards it has passed
and the deferred checks it has queued. A step that succeeds stands in its relation, and every
property of settlement is read off the relations.
-/
namespace EveTrade.SettlementEffects

open KeyedTable TransactionMonad UuidText SettlementTypes SettlementCommands SettlementSchema
  SettlementStatements SettlementOperations

abbrev OpSession := Session Business DeferredCheck DbError

section Relations

variable (ext : External) (ctx : StepContext)

/-- A row that may be appended to the ledger: it extends the last row of its stack. -/
structure LedgerEntry (ledger : List ItemStackLedgerRow) (p : ItemStackLedgerPayload)
    (l : ItemStackLedgerRow) : Prop where
  payload : l.payload = p
  continues : ledgerExtends (latestOf ledger p.itemStackId) p = .ok ()
  previousHash : l.previousItemStackLedgerHash = previousLedgerHash (latestOf ledger p.itemStackId)
  payloadHash : l.ledgerPayloadHash = itemStackLedgerPayloadHash ext p
  hash : l.itemStackLedgerHash =
    itemStackLedgerHash ext (previousLedgerHash (latestOf ledger p.itemStackId)) l.ledgerPayloadHash
  sequence_fresh : ∀ m ∈ ledger, m.payload.itemStackId = p.itemStackId →
    m.payload.ledgerSequence ≠ p.ledgerSequence
  hash_fresh : ∀ m ∈ ledger, m.payload.itemStackId = p.itemStackId →
    m.itemStackLedgerHash ≠ l.itemStackLedgerHash

def StackChecksumValid (s : ItemStackRow) : Prop :=
  s.checksumAlgorithm = checksumAlgorithm ∧
    s.stackChecksum = itemStackChecksum ext s.itemStackId s.quantity s.stackVersion

def WalletChecksumValid (w : WalletRow) : Prop :=
  w.checksumAlgorithm = checksumAlgorithm ∧
    w.walletChecksum = walletChecksum ext w.walletId w.iskAmount w.walletVersion

def postedStack (s : ItemStackRow) (after : Int) (state : StackState) (h : 0 ≤ after) :
    ItemStackRow :=
  s.posted after state (s.stackVersion + 1)
    (itemStackChecksum ext s.itemStackId after (s.stackVersion + 1)) checksumAlgorithm h

def postedWallet (w : WalletRow) (after : Int) (h : 0 ≤ after) : WalletRow :=
  w.posted after (w.walletVersion + 1) (walletChecksum ext w.walletId after (w.walletVersion + 1))
    checksumAlgorithm h

def stackLedgerPayload (s : ItemStackRow) (kind : EntryKind) (delta after : Int)
    (state : StackState) : ItemStackLedgerPayload where
  settlementStepId := ctx.settlementStepId
  itemStackId := s.itemStackId
  ledgerSequence := s.stackVersion + 1
  itemTypeId := s.itemTypeId
  ownerId := s.ownerId
  stationId := s.stationId
  entryKind := kind
  quantityDelta := delta
  quantityBefore := s.quantity
  quantityAfter := after
  stackStateBefore := some s.stackState
  stackStateAfter := state
  stackVersionBefore := s.stackVersion
  stackVersionAfter := s.stackVersion + 1
  stackChecksumBefore := s.stackChecksum
  stackChecksumAfter := itemStackChecksum ext s.itemStackId after (s.stackVersion + 1)

/-- A stack's quantity changes together with one new row of its ledger. -/
inductive StackPosting (s : ItemStackRow) (kind : EntryKind) (delta : Int) (state : StackState)
    (b : Business) : Business → List DeferredCheck → Prop
  | posted (found : b.itemStack.find? s.itemStackId = some s) (valid : StackChecksumValid ext s)
      (nonneg : 0 ≤ s.quantity + delta) (l : ItemStackLedgerRow)
      (entry : LedgerEntry ext b.itemStackLedger
        (stackLedgerPayload ext ctx s kind delta (s.quantity + delta) state) l) :
      StackPosting s kind delta state b
        { b with
          itemStack := b.itemStack.set (postedStack ext s (s.quantity + delta) state nonneg)
          itemStackLedger := b.itemStackLedger ++ [l] }
        [.itemStackLedgerProjection s.itemStackId, .itemStackLedgerProjection s.itemStackId]

/-- A wallet's amount changes together with one new row of its ledger. -/
inductive WalletPosting (w : WalletRow) (kind : EntryKind) (delta : Int) (b : Business) :
    Business → Prop
  | posted (found : b.wallet.find? w.walletId = some w) (valid : WalletChecksumValid ext w)
      (nonneg : 0 ≤ w.iskAmount + delta) :
      WalletPosting w kind delta b
        { b with
          wallet := b.wallet.set (postedWallet ext w (w.iskAmount + delta) nonneg)
          walletLedger := b.walletLedger ++
            [⟨ctx.settlementStepId, w.walletId, w.capsuleerId, kind, delta, w.iskAmount,
              w.iskAmount + delta, w.walletVersion, w.walletVersion + 1, w.walletChecksum,
              walletChecksum ext w.walletId (w.iskAmount + delta) (w.walletVersion + 1), rfl,
              rfl⟩] }

inductive TradeCreation (p : CreateNewTradeInstanceRow) (b : Business) :
    Business → List DeferredCheck → Prop
  | created (ht : 0 < p.totalQuantity) (hp : 0 < p.unitPriceIsk)
      (future : ∀ t ∈ p.expiresAt, ctx.clock < t) (trades : Table TradeInstanceRow)
      (inserted : b.tradeInstance.insert? (newTradeInstance ctx.settlementStepId
        (p.tradeInstanceId.getD ctx.newId) p .open ht hp) = some trades)
      (issuer : p.issuerId ∈ b.capsuleer) (itemType : p.itemTypeId ∈ b.itemType)
      (station : p.stationId ∈ b.station) :
      TradeCreation p b { b with tradeInstance := trades }
        (tradeChecks (p.tradeInstanceId.getD ctx.newId))

inductive StateChange (p : ModifyTradeInstanceState) (b : Business) :
    Business → List DeferredCheck → Prop
  | changed (t : TradeInstanceRow) (found : b.tradeInstance.find? p.tradeInstanceId = some t)
      (opened : t.tradeState = .open) (state : TradeState)
      (target : TradeState.ofText? p.toTradeState = some state) (closes : state ≠ .open)
      (kind : TradeStateChangeKind)
      (kindText : TradeStateChangeKind.ofText? p.tradeStateChangeKind = some kind)
      (completes : state = .completed → isExpired ctx.clock t = false ∧
        b.activeItemEscrowQuantity p.tradeInstanceId ≤ 0 ∧
        b.activeWalletEscrowIsk p.tradeInstanceId ≤ 0) :
      StateChange p b
        { b with
          tradeInstance := b.tradeInstance.set (t.withState state)
          tradeStateChange := b.tradeStateChange ++
            [⟨ctx.settlementStepId, p.tradeInstanceId, .open, state, kind, p.changedByService⟩] }
        (tradeChecks p.tradeInstanceId)

def emptyStack (id : Uuid) (p : CreateNewEmptyItemStack) : ItemStackRow where
  itemStackId := id
  ownerId := p.ownerId
  itemTypeId := p.itemTypeId
  stationId := p.stationId
  quantity := 0
  stackState := .active
  stackVersion := 1
  stackChecksum := itemStackChecksum ext id 0 1
  checksumAlgorithm := checksumAlgorithm
  quantity_nonneg := empty_nonneg

def genesisPayload (id : Uuid) (p : CreateNewEmptyItemStack) : ItemStackLedgerPayload where
  settlementStepId := ctx.settlementStepId
  itemStackId := id
  ledgerSequence := 1
  itemTypeId := p.itemTypeId
  ownerId := p.ownerId
  stationId := p.stationId
  entryKind := .createStack
  quantityDelta := 0
  quantityBefore := 0
  quantityAfter := 0
  stackStateBefore := none
  stackStateAfter := .active
  stackVersionBefore := 0
  stackVersionAfter := 1
  stackChecksumBefore := "GENESIS"
  stackChecksumAfter := itemStackChecksum ext id 0 1

inductive StackCreation (p : CreateNewEmptyItemStack) (b : Business) :
    Business → List DeferredCheck → Prop
  | created (id : Uuid) (hid : id = p.itemStackId.getD ctx.newId) (rows : Table ItemStackRow)
      (inserted : b.itemStack.insert? (emptyStack ext id p) = some rows)
      (owner : p.ownerId ∈ b.capsuleer) (l : ItemStackLedgerRow)
      (entry : LedgerEntry ext b.itemStackLedger (genesisPayload ext ctx id p) l) :
      StackCreation p b
        { b with itemStack := rows, itemStackLedger := b.itemStackLedger ++ [l] }
        [.itemStackLedgerProjection id, .itemStackLedgerProjection id]

inductive ItemEscrowFunding (p : TransferQuantityFromItemStackToItemStackEscrow)
    (source : ItemStackRow) (id : Uuid) (b : Business) : Business → List DeferredCheck → Prop
  | toppedUp (e : ItemStackEscrowRow) (found : b.itemStackEscrow.find? id = some e)
      (unreleased : e.isReleased = false) (trade : e.tradeInstanceId = p.tradeInstanceId)
      (owner : e.ownerId = source.ownerId) (itemType : e.itemTypeId = source.itemTypeId)
      (station : e.stationId = source.stationId) (h : 0 ≤ e.quantity + p.quantity) :
      ItemEscrowFunding p source id b
        { b with itemStackEscrow := b.itemStackEscrow.set (e.holding (e.quantity + p.quantity) h) }
        [.tradeRemainingQuantity e.tradeInstanceId]
  | opened (absent : b.itemStackEscrow.find? id = none) (h : 0 ≤ p.quantity)
      (escrows : Table ItemStackEscrowRow)
      (inserted : b.itemStackEscrow.insert? (newItemStackEscrow ctx.settlementStepId id
        p.tradeInstanceId source p.quantity ctx.now h) = some escrows)
      (sole : ∀ e ∈ b.itemStackEscrow.rows, e.tradeInstanceId = p.tradeInstanceId →
        e.isReleased = true) :
      ItemEscrowFunding p source id b { b with itemStackEscrow := escrows }
        [.tradeRemainingQuantity p.tradeInstanceId]

inductive ItemDeposit (p : TransferQuantityFromItemStackToItemStackEscrow) (b : Business) :
    Business → List DeferredCheck → Prop
  | deposited (t : TradeInstanceRow) (source : ItemStackRow) (b₁ b₂ : Business)
      (c₁ c₂ : List DeferredCheck) (positive : 0 < p.quantity)
      (trade : b.tradeInstance.find? p.tradeInstanceId = some t) (opened : t.tradeState = .open)
      (live : isExpired ctx.clock t = false)
      (sourceId : source.itemStackId = p.sourceItemStackId)
      (active : source.stackState = .active) (issuer : source.ownerId = t.issuerId)
      (enough : p.quantity ≤ source.quantity)
      (posting : StackPosting ext ctx source .transferToEscrow (-p.quantity) .active b b₁ c₁)
      (funding : ItemEscrowFunding ctx p source (p.itemStackEscrowId.getD ctx.newId) b₁ b₂ c₂) :
      ItemDeposit p b b₂ (c₁ ++ c₂)

def drawnItemEscrow (e : ItemStackEscrowRow) (after : Int) (h : 0 ≤ after) : ItemStackEscrowRow :=
  if after = 0 then e.released ctx.settlementStepId else e.holding after h

def drawnWalletEscrow (e : WalletEscrowRow) (after : Int) (h : 0 ≤ after) : WalletEscrowRow :=
  if after = 0 then e.released ctx.settlementStepId else e.holding after h

def OwnerRuleHolds (rule : EscrowOwnerRule) (escrowOwnerId destinationOwnerId : Int) : Prop :=
  rule = .previousOwner ↔ destinationOwnerId = escrowOwnerId

inductive ItemRelease (rule : EscrowOwnerRule) (p : TransferQuantityFromItemStackEscrowToItemStack)
    (b : Business) : Business → List DeferredCheck → Prop
  | released (e : ItemStackEscrowRow) (destination : ItemStackRow) (t : TradeInstanceRow)
      (b₁ : Business) (c₁ : List DeferredCheck) (positive : 0 < p.quantity)
      (escrow : b.itemStackEscrow.find? p.itemStackEscrowId = some e)
      (unreleased : e.isReleased = false) (h : 0 ≤ e.quantity - p.quantity)
      (destinationId : destination.itemStackId = p.destinationItemStackId)
      (active : destination.stackState = .active)
      (itemType : destination.itemTypeId = e.itemTypeId)
      (station : destination.stationId = e.stationId)
      (ownerRule : OwnerRuleHolds rule e.ownerId destination.ownerId)
      (trade : b.tradeInstance.find? e.tradeInstanceId = some t)
      (paid : rule = .newOwner → t.tradeState = .open ∧ isExpired ctx.clock t = false ∧
        b.activeWalletEscrowIsk e.tradeInstanceId = t.unitPriceIsk * p.quantity)
      (remaining : t.remainingQuantity = e.quantity)
      (range : 0 ≤ e.quantity - p.quantity ∧ e.quantity - p.quantity ≤ t.totalQuantity)
      (posting : StackPosting ext ctx destination (releaseEntryKind rule) p.quantity .active
        b b₁ c₁) :
      ItemRelease rule p b
        { b₁ with
          itemStackEscrow := b₁.itemStackEscrow.set
            (drawnItemEscrow ctx e (e.quantity - p.quantity) h)
          tradeInstance := b₁.tradeInstance.set
            (t.withRemaining (e.quantity - p.quantity) range) }
        (c₁ ++ (.tradeRemainingQuantity e.tradeInstanceId :: tradeChecks e.tradeInstanceId))

inductive StackMerge (p : MergeItemStacksWithIdenticalItemTypeAndIdenticalOwner) (b : Business) :
    Business → List DeferredCheck → Prop
  | merged (source destination : ItemStackRow) (b₁ b₂ : Business) (c₁ c₂ : List DeferredCheck)
      (distinct : p.sourceItemStackId ≠ p.destinationItemStackId)
      (sourceId : source.itemStackId = p.sourceItemStackId)
      (destinationId : destination.itemStackId = p.destinationItemStackId)
      (sourceActive : source.stackState = .active)
      (destinationActive : destination.stackState = .active)
      (owner : source.ownerId = destination.ownerId)
      (itemType : source.itemTypeId = destination.itemTypeId)
      (station : source.stationId = destination.stationId)
      (credit : StackPosting ext ctx destination .mergeIn source.quantity .active b b₁ c₁)
      (debit : StackPosting ext ctx source .mergeOut (-source.quantity) .merged b₁ b₂ c₂) :
      StackMerge p b b₂ (c₁ ++ c₂)

inductive WalletEscrowCreation (p : CreateNewEmptyWalletEscrow) (b : Business) :
    Business → List DeferredCheck → Prop
  | created (w : WalletRow) (wallet : b.wallet.find? p.sourceWalletId = some w)
      (owner : w.capsuleerId = p.ownerId) (active : w.walletState = .active)
      (escrows : Table WalletEscrowRow)
      (inserted : b.walletEscrow.insert? (newWalletEscrow ctx.settlementStepId
        (p.walletEscrowId.getD ctx.newId) p.tradeInstanceId p.ownerId p.sourceWalletId 0
        (le_refl 0)) = some escrows)
      (trade : b.tradeInstance.find? p.tradeInstanceId ≠ none) :
      WalletEscrowCreation p b { b with walletEscrow := escrows }
        [.tradeWalletEscrowClosedState p.tradeInstanceId]

inductive WalletEscrowFunding (p : TransferIskAmountFromWalletToWalletEscrow) (source : WalletRow)
    (id : Uuid) (b : Business) : Business → List DeferredCheck → Prop
  | toppedUp (e : WalletEscrowRow) (found : b.walletEscrow.find? id = some e)
      (unreleased : e.isReleased = false) (trade : e.tradeInstanceId = p.tradeInstanceId)
      (owner : e.ownerId = source.capsuleerId) (h : 0 ≤ e.iskAmount + p.iskAmount) :
      WalletEscrowFunding p source id b
        { b with walletEscrow := b.walletEscrow.set (e.holding (e.iskAmount + p.iskAmount) h) }
        [.tradeWalletEscrowClosedState e.tradeInstanceId]
  | opened (absent : b.walletEscrow.find? id = none) (h : 0 ≤ p.iskAmount)
      (escrows : Table WalletEscrowRow)
      (inserted : b.walletEscrow.insert? (newWalletEscrow ctx.settlementStepId id
        p.tradeInstanceId source.capsuleerId source.walletId p.iskAmount h) = some escrows) :
      WalletEscrowFunding p source id b { b with walletEscrow := escrows }
        [.tradeWalletEscrowClosedState p.tradeInstanceId]

inductive IskDeposit (p : TransferIskAmountFromWalletToWalletEscrow) (b : Business) :
    Business → List DeferredCheck → Prop
  | deposited (source : WalletRow) (t : TradeInstanceRow) (b₁ b₂ : Business)
      (c₂ : List DeferredCheck) (positive : 0 < p.iskAmount)
      (sourceId : source.walletId = p.sourceWalletId) (active : source.walletState = .active)
      (trade : b.tradeInstance.find? p.tradeInstanceId = some t) (opened : t.tradeState = .open)
      (live : isExpired ctx.clock t = false) (divides : p.iskAmount.tmod t.unitPriceIsk = 0)
      (buys : p.iskAmount.tdiv t.unitPriceIsk ≤ t.remainingQuantity)
      (enough : p.iskAmount ≤ source.iskAmount)
      (posting : WalletPosting ext ctx source .transferToEscrow (-p.iskAmount) b b₁)
      (funding : WalletEscrowFunding ctx p source (p.walletEscrowId.getD ctx.newId) b₁ b₂ c₂) :
      IskDeposit p b b₂ c₂

inductive IskRelease (rule : EscrowOwnerRule) (p : TransferIskAmountFromWalletEscrowToWallet)
    (b : Business) : Business → List DeferredCheck → Prop
  | released (e : WalletEscrowRow) (destination : WalletRow) (b₁ : Business)
      (positive : 0 < p.iskAmount)
      (escrow : b.walletEscrow.find? p.walletEscrowId = some e) (unreleased : e.isReleased = false)
      (h : 0 ≤ e.iskAmount - p.iskAmount)
      (destinationId : destination.walletId = p.destinationWalletId)
      (active : destination.walletState = .active)
      (ownerRule : OwnerRuleHolds rule e.ownerId destination.capsuleerId)
      (live : rule = .newOwner → ∃ t, b.tradeInstance.find? e.tradeInstanceId = some t ∧
        t.tradeState = .open ∧ isExpired ctx.clock t = false)
      (posting : WalletPosting ext ctx destination (releaseEntryKind rule) p.iskAmount b b₁) :
      IskRelease rule p b
        { b₁ with
          walletEscrow := b₁.walletEscrow.set
            (drawnWalletEscrow ctx e (e.iskAmount - p.iskAmount) h) }
        [.tradeWalletEscrowClosedState e.tradeInstanceId]

/-- The rows before and after a step, and the checks it leaves to the commit. -/
def Effect : SettlementCommand → Business → Business → List DeferredCheck → Prop
  | .createNewTradeInstanceRow p => TradeCreation ctx p
  | .modifyTradeInstanceState p => StateChange ctx p
  | .createNewEmptyItemStack p => StackCreation ext ctx p
  | .transferQuantityFromItemStackToItemStackEscrow p => ItemDeposit ext ctx p
  | .transferQuantityFromItemStackEscrowToItemStackWithNewOwner p =>
    ItemRelease ext ctx .newOwner p
  | .transferQuantityFromItemStackEscrowToItemStackWithPreviousOwner p =>
    ItemRelease ext ctx .previousOwner p
  | .mergeItemStacksWithIdenticalItemTypeAndIdenticalOwner p => StackMerge ext ctx p
  | .createNewEmptyWalletEscrow p => WalletEscrowCreation ctx p
  | .transferIskAmountFromWalletToWalletEscrow p => IskDeposit ext ctx p
  | .transferIskAmountFromWalletEscrowToWalletWithNewOwner p => IskRelease ext ctx .newOwner p
  | .transferIskAmountFromWalletEscrowToWalletWithPreviousOwner p =>
    IskRelease ext ctx .previousOwner p

end Relations

section Frames

variable {ext : External} {ctx : StepContext} {b b' : Business} {checks : List DeferredCheck}
variable {s : ItemStackRow} {kind : EntryKind} {delta : Int} {st : StackState}

theorem StackPosting.frame (h : StackPosting ext ctx s kind delta st b b' checks) :
    b' = { b with itemStack := b'.itemStack, itemStackLedger := b'.itemStackLedger } := by
  cases h
  rfl

theorem StackPosting.itemStackEscrow (h : StackPosting ext ctx s kind delta st b b' checks) :
    b'.itemStackEscrow = b.itemStackEscrow := by
  rw [h.frame]

theorem StackPosting.tradeInstance (h : StackPosting ext ctx s kind delta st b b' checks) :
    b'.tradeInstance = b.tradeInstance := by
  rw [h.frame]

theorem WalletPosting.frame {w : WalletRow} (h : WalletPosting ext ctx w kind delta b b') :
    b' = { b with wallet := b'.wallet, walletLedger := b'.walletLedger } := by
  cases h
  rfl

theorem WalletPosting.walletEscrow {w : WalletRow}
    (h : WalletPosting ext ctx w kind delta b b') : b'.walletEscrow = b.walletEscrow := by
  rw [h.frame]

theorem ItemEscrowFunding.frame {p : TransferQuantityFromItemStackToItemStackEscrow}
    {source : ItemStackRow} {id : Uuid} (h : ItemEscrowFunding ctx p source id b b' checks) :
    b' = { b with itemStackEscrow := b'.itemStackEscrow } := by
  cases h <;> rfl

theorem WalletEscrowFunding.frame {p : TransferIskAmountFromWalletToWalletEscrow}
    {source : WalletRow} {id : Uuid} (h : WalletEscrowFunding ctx p source id b b' checks) :
    b' = { b with walletEscrow := b'.walletEscrow } := by
  cases h <;> rfl

end Frames

end EveTrade.SettlementEffects
