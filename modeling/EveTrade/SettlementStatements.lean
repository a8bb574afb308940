import EveTrade.SettlementSchema
import EveTrade.TransactionMonad

set_option autoImplicit false

/-!
# Statements on business rows

Each write of a settlement step, with the constraints it meets in the order the database checks them
(row checks, unique indexes, foreign keys) and the deferred checks it queues. Foreign keys to the
step being executed always hold, since its row is inserted first, and are not restated.
-/
namespace EveTrade.SettlementStatements

open KeyedTable TransactionMonad UuidText SettlementTypes SettlementCommands SettlementSchema

abbrev Statement := Business → Except DbError (Business × List DeferredCheck)

def insertRow {R K : Type} [Keyed R K] [DecidableEq K] (t : Table R) (r : R) (pkey : String) :
    Except DbError (Table R) :=
  match t.insert? r with
  | none => .error (.uniqueViolation pkey)
  | some u => .ok u

@[simp] theorem insertRow_eq_ok {R K : Type} [Keyed R K] [DecidableEq K] {t u : Table R} {r : R}
    {pkey : String} : insertRow t r pkey = .ok u ↔ t.insert? r = some u := by
  unfold insertRow
  cases t.insert? r <;> simp

def tradeChecks (tradeInstanceId : Uuid) : List DeferredCheck :=
  [.tradeRemainingQuantity tradeInstanceId, .tradeWalletEscrowClosedState tradeInstanceId]

def newTradeInstance (stepId tradeInstanceId : Uuid) (p : CreateNewTradeInstanceRow)
    (state : TradeState) (ht : 0 < p.totalQuantity) (hp : 0 < p.unitPriceIsk) :
    TradeInstanceRow where
  tradeInstanceId := tradeInstanceId
  createdSettlementStepId := stepId
  tradeKind := .sell
  tradeState := state
  issuerId := p.issuerId
  itemTypeId := p.itemTypeId
  stationId := p.stationId
  totalQuantity := p.totalQuantity
  remainingQuantity := p.totalQuantity
  unitPriceIsk := p.unitPriceIsk
  expiresAt := p.expiresAt.map storedTimestamp
  totalQuantity_pos := ht
  remainingQuantity_range := ⟨ht.le, le_refl _⟩
  unitPriceIsk_pos := hp

def insertTradeInstance (stepId tradeInstanceId : Uuid) (p : CreateNewTradeInstanceRow) :
    Statement := fun b => do
  check (p.tradeKind = "SELL") (.checkViolation "trade_instance" "trade_instance_trade_kind_check")
  match TradeState.ofText? p.tradeState with
  | none => .error (.checkViolation "trade_instance" "trade_instance_trade_state_check")
  | some state =>
    if ht : 0 < p.totalQuantity then
      if hp : 0 < p.unitPriceIsk then do
        let trades ← insertRow b.tradeInstance
          (newTradeInstance stepId tradeInstanceId p state ht hp) "trade_instance_pkey"
        check (p.issuerId ∈ b.capsuleer)
          (.foreignKeyViolation "trade_instance" "trade_instance_issuer_id_fkey")
        check (p.itemTypeId ∈ b.itemType)
          (.foreignKeyViolation "trade_instance" "trade_instance_item_type_id_fkey")
        check (p.stationId ∈ b.station)
          (.foreignKeyViolation "trade_instance" "trade_instance_station_id_fkey")
        pure ({ b with tradeInstance := trades }, tradeChecks tradeInstanceId)
      else .error (.checkViolation "trade_instance" "trade_instance_unit_price_isk_check")
    else .error (.checkViolation "trade_instance" "trade_instance_total_quantity_check")

def updateTradeState (tradeInstanceId : Uuid) (toTradeState : String) : Statement := fun b =>
  match b.tradeInstance.find? tradeInstanceId with
  | none => .ok (b, [])
  | some t =>
    match TradeState.ofText? toTradeState with
    | none => .error (.checkViolation "trade_instance" "trade_instance_trade_state_check")
    | some state =>
      .ok ({ b with tradeInstance := b.tradeInstance.set (t.withState state) },
        tradeChecks tradeInstanceId)

/-- Returns the number of rows the update matched. -/
def updateTradeRemaining (tradeInstanceId : Uuid) (remainingBefore remaining : Int)
    (b : Business) : Except DbError (ℕ × Business × List DeferredCheck) :=
  match b.tradeInstance.find? tradeInstanceId with
  | none => .ok (0, b, [])
  | some t =>
    if t.remainingQuantity = remainingBefore then
      if h : 0 ≤ remaining ∧ remaining ≤ t.totalQuantity then
        .ok (1, { b with tradeInstance := b.tradeInstance.set (t.withRemaining remaining h) },
          tradeChecks tradeInstanceId)
      else .error (.checkViolation "trade_instance" "trade_instance_check")
    else .ok (0, b, [])

def insertTradeStateChange (stepId tradeInstanceId : Uuid) (fromTradeState : TradeState)
    (toTradeState tradeStateChangeKind changedByService : String) : Statement := fun b =>
  match TradeState.ofText? toTradeState with
  | none =>
    .error (.checkViolation "trade_state_change" "trade_state_change_to_trade_state_check")
  | some state =>
    match TradeStateChangeKind.ofText? tradeStateChangeKind with
    | none =>
      .error (.checkViolation "trade_state_change" "trade_state_change_trade_state_change_kind_check")
    | some kind => do
      check (b.tradeInstance.find? tradeInstanceId ≠ none)
        (.foreignKeyViolation "trade_state_change" "trade_state_change_trade_instance_id_fkey")
      pure ({ b with tradeStateChange := b.tradeStateChange ++
        [⟨stepId, tradeInstanceId, fromTradeState, state, kind, changedByService⟩] }, [])

def insertItemStack (row : ItemStackRow) : Statement := fun b => do
  let rows ← insertRow b.itemStack row "item_stack_pkey"
  check (row.ownerId ∈ b.capsuleer)
    (.foreignKeyViolation "item_stack" "item_stack_owner_id_fkey")
  check (row.itemTypeId ∈ b.itemType)
    (.foreignKeyViolation "item_stack" "item_stack_item_type_id_fkey")
  check (row.stationId ∈ b.station)
    (.foreignKeyViolation "item_stack" "item_stack_station_id_fkey")
  pure ({ b with itemStack := rows }, [.itemStackLedgerProjection row.itemStackId])

def updateItemStackRow (itemStackId : Uuid) (quantity : Int) (state : StackState) (version : Int)
    (checksum algorithm : String) : Statement := fun b =>
  match b.itemStack.find? itemStackId with
  | none => .ok (b, [])
  | some s =>
    if h : 0 ≤ quantity then
      let s' := s.posted quantity state version checksum algorithm h
      .ok ({ b with itemStack := b.itemStack.set s' }, [.itemStackLedgerProjection itemStackId])
    else .error (.checkViolation "item_stack" "item_stack_quantity_check")

/-- The integrity trigger: a stack's ledger starts from nothing and every row extends the last. -/
def ledgerExtends (latest : Option ItemStackLedgerRow) (p : ItemStackLedgerPayload) :
    Except DbError Unit :=
  match latest with
  | none =>
    check (p.ledgerSequence = 1 ∧ p.quantityBefore = 0 ∧ p.stackStateBefore = none ∧
        p.stackVersionBefore = 0 ∧ p.stackChecksumBefore = "GENESIS")
      (.raised s!"first item_stack_ledger row for {p.itemStackId} must start from GENESIS")
  | some l =>
    check (p.ledgerSequence = l.payload.ledgerSequence + 1 ∧
        p.quantityBefore = l.payload.quantityAfter ∧
        p.stackStateBefore = some l.payload.stackStateAfter ∧
        p.stackVersionBefore = l.payload.stackVersionAfter ∧
        p.stackChecksumBefore = l.payload.stackChecksumAfter)
      (.raised s!"item_stack_ledger row for {p.itemStackId} does not extend the latest ledger row")

def previousLedgerHash (latest : Option ItemStackLedgerRow) : String :=
  match latest with
  | none => "GENESIS"
  | some l => l.itemStackLedgerHash

def insertItemStackLedgerEvent (ext : External) (p : ItemStackLedgerPayload) : Statement :=
  fun b => do
  let latest := b.latestLedger p.itemStackId
  let payloadHash := itemStackLedgerPayloadHash ext p
  let hash := itemStackLedgerHash ext (previousLedgerHash latest) payloadHash
  ledgerExtends latest p
  if hq : p.quantityAfter = p.quantityBefore + p.quantityDelta then
    if hv : p.stackVersionAfter = p.stackVersionBefore + 1 then
      if hs : p.ledgerSequence = p.stackVersionAfter then
        if hp : 0 < p.ledgerSequence then do
          check (∀ l ∈ b.itemStackLedger, l.payload.itemStackId = p.itemStackId →
              l.payload.ledgerSequence ≠ p.ledgerSequence)
            (.uniqueViolation "item_stack_ledger_stack_sequence_unique_idx")
          check (∀ l ∈ b.itemStackLedger, l.payload.itemStackId = p.itemStackId →
              l.itemStackLedgerHash ≠ hash)
            (.uniqueViolation "item_stack_ledger_stack_hash_unique_idx")
          check (b.itemStack.find? p.itemStackId ≠ none)
            (.foreignKeyViolation "item_stack_ledger" "item_stack_ledger_item_stack_id_fkey")
          check (p.itemTypeId ∈ b.itemType)
            (.foreignKeyViolation "item_stack_ledger" "item_stack_ledger_item_type_id_fkey")
          check (p.ownerId ∈ b.capsuleer)
            (.foreignKeyViolation "item_stack_ledger" "item_stack_ledger_owner_id_fkey")
          check (p.stationId ∈ b.station)
            (.foreignKeyViolation "item_stack_ledger" "item_stack_ledger_station_id_fkey")
          pure ({ b with itemStackLedger := b.itemStackLedger ++
            [⟨p, previousLedgerHash latest, payloadHash, hash, hq, hv, hs, hp⟩] },
            [.itemStackLedgerProjection p.itemStackId])
        else .error (.checkViolation "item_stack_ledger" "item_stack_ledger_ledger_sequence_check")
      else .error (.checkViolation "item_stack_ledger" "item_stack_ledger_sequence_version_chk")
    else .error (.checkViolation "item_stack_ledger" "item_stack_ledger_version_increment_chk")
  else .error (.checkViolation "item_stack_ledger" "item_stack_ledger_quantity_delta_chk")

def updateWalletRow (walletId : Uuid) (iskAmount version : Int) (checksum algorithm : String) :
    Statement := fun b =>
  match b.wallet.find? walletId with
  | none => .ok (b, [])
  | some w =>
    if h : 0 ≤ iskAmount then
      .ok ({ b with wallet := b.wallet.set (w.posted iskAmount version checksum algorithm h) }, [])
    else .error (.checkViolation "wallet" "wallet_isk_amount_check")

def insertWalletLedgerRow (stepId : Uuid) (w : WalletRow) (entryKind : EntryKind)
    (delta after versionAfter : Int) (checksumAfter : String) : Statement := fun b =>
  if ha : after = w.iskAmount + delta then
    if hv : versionAfter = w.walletVersion + 1 then do
      check (b.wallet.find? w.walletId ≠ none)
        (.foreignKeyViolation "wallet_ledger" "wallet_ledger_wallet_id_fkey")
      check (w.capsuleerId ∈ b.capsuleer)
        (.foreignKeyViolation "wallet_ledger" "wallet_ledger_capsuleer_id_fkey")
      pure ({ b with walletLedger := b.walletLedger ++
        [⟨stepId, w.walletId, w.capsuleerId, entryKind, delta, w.iskAmount, after, w.walletVersion,
          versionAfter, w.walletChecksum, checksumAfter, ha, hv⟩] }, [])
    else .error (.checkViolation "wallet_ledger" "wallet_ledger_version_increment_chk")
  else .error (.checkViolation "wallet_ledger" "wallet_ledger_amount_delta_chk")

def newItemStackEscrow (stepId itemStackEscrowId tradeInstanceId : Uuid) (source : ItemStackRow)
    (quantity : Int) (now : DateTime) (h : 0 ≤ quantity) : ItemStackEscrowRow where
  itemStackEscrowId := itemStackEscrowId
  tradeInstanceId := tradeInstanceId
  ownerId := source.ownerId
  sourceItemStackId := source.itemStackId
  itemTypeId := source.itemTypeId
  stationId := source.stationId
  quantity := quantity
  isReleased := false
  createdSettlementStepId := stepId
  releasedSettlementStepId := none
  createdAt := now
  quantity_nonneg := h

def insertItemStackEscrow (stepId itemStackEscrowId tradeInstanceId : Uuid) (source : ItemStackRow)
    (quantity : Int) (now : DateTime) : Statement := fun b =>
  if h : 0 ≤ quantity then do
    let escrows ← insertRow b.itemStackEscrow
      (newItemStackEscrow stepId itemStackEscrowId tradeInstanceId source quantity now h)
      "item_stack_escrow_pkey"
    check (∀ e ∈ b.itemStackEscrow.rows, e.tradeInstanceId = tradeInstanceId → e.isReleased = true)
      (.uniqueViolation "item_stack_escrow_active_trade_unique_idx")
    check (b.tradeInstance.find? tradeInstanceId ≠ none)
      (.foreignKeyViolation "item_stack_escrow" "item_stack_escrow_trade_instance_id_fkey")
    check (source.ownerId ∈ b.capsuleer)
      (.foreignKeyViolation "item_stack_escrow" "item_stack_escrow_owner_id_fkey")
    check (b.itemStack.find? source.itemStackId ≠ none)
      (.foreignKeyViolation "item_stack_escrow" "item_stack_escrow_source_item_stack_id_fkey")
    check (source.itemTypeId ∈ b.itemType)
      (.foreignKeyViolation "item_stack_escrow" "item_stack_escrow_item_type_id_fkey")
    check (source.stationId ∈ b.station)
      (.foreignKeyViolation "item_stack_escrow" "item_stack_escrow_station_id_fkey")
    pure ({ b with itemStackEscrow := escrows }, [.tradeRemainingQuantity tradeInstanceId])
  else .error (.checkViolation "item_stack_escrow" "item_stack_escrow_quantity_check")

def updateItemStackEscrowQuantity (itemStackEscrowId : Uuid) (quantity : Int) : Statement :=
  fun b =>
  match b.itemStackEscrow.find? itemStackEscrowId with
  | none => .ok (b, [])
  | some e =>
    if h : 0 ≤ quantity then
      .ok ({ b with itemStackEscrow := b.itemStackEscrow.set (e.holding quantity h) },
        [.tradeRemainingQuantity e.tradeInstanceId])
    else .error (.checkViolation "item_stack_escrow" "item_stack_escrow_quantity_check")

def releaseItemStackEscrow (itemStackEscrowId stepId : Uuid) : Statement := fun b =>
  match b.itemStackEscrow.find? itemStackEscrowId with
  | none => .ok (b, [])
  | some e =>
    .ok ({ b with itemStackEscrow := b.itemStackEscrow.set (e.released stepId) },
      [.tradeRemainingQuantity e.tradeInstanceId])

def newWalletEscrow (stepId walletEscrowId tradeInstanceId : Uuid) (ownerId : Int)
    (sourceWalletId : Uuid) (iskAmount : Int) (h : 0 ≤ iskAmount) : WalletEscrowRow where
  walletEscrowId := walletEscrowId
  tradeInstanceId := tradeInstanceId
  ownerId := ownerId
  sourceWalletId := sourceWalletId
  iskAmount := iskAmount
  isReleased := false
  createdSettlementStepId := stepId
  releasedSettlementStepId := none
  iskAmount_nonneg := h

def insertWalletEscrow (stepId walletEscrowId tradeInstanceId : Uuid) (ownerId : Int)
    (sourceWalletId : Uuid) (iskAmount : Int) : Statement := fun b =>
  if h : 0 ≤ iskAmount then do
    let escrows ← insertRow b.walletEscrow
      (newWalletEscrow stepId walletEscrowId tradeInstanceId ownerId sourceWalletId iskAmount h)
      "wallet_escrow_pkey"
    check (b.tradeInstance.find? tradeInstanceId ≠ none)
      (.foreignKeyViolation "wallet_escrow" "wallet_escrow_trade_instance_id_fkey")
    check (ownerId ∈ b.capsuleer)
      (.foreignKeyViolation "wallet_escrow" "wallet_escrow_owner_id_fkey")
    check (b.wallet.find? sourceWalletId ≠ none)
      (.foreignKeyViolation "wallet_escrow" "wallet_escrow_source_wallet_id_fkey")
    pure ({ b with walletEscrow := escrows }, [.tradeWalletEscrowClosedState tradeInstanceId])
  else .error (.checkViolation "wallet_escrow" "wallet_escrow_isk_amount_check")

def updateWalletEscrowAmount (walletEscrowId : Uuid) (iskAmount : Int) : Statement := fun b =>
  match b.walletEscrow.find? walletEscrowId with
  | none => .ok (b, [])
  | some e =>
    if h : 0 ≤ iskAmount then
      .ok ({ b with walletEscrow := b.walletEscrow.set (e.holding iskAmount h) },
        [.tradeWalletEscrowClosedState e.tradeInstanceId])
    else .error (.checkViolation "wallet_escrow" "wallet_escrow_isk_amount_check")

def releaseWalletEscrow (walletEscrowId stepId : Uuid) : Statement := fun b =>
  match b.walletEscrow.find? walletEscrowId with
  | none => .ok (b, [])
  | some e =>
    .ok ({ b with walletEscrow := b.walletEscrow.set (e.released stepId) },
      [.tradeWalletEscrowClosedState e.tradeInstanceId])

end EveTrade.SettlementStatements
