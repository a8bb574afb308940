import EveTrade.SettlementOperationSpecs

set_option autoImplicit false

/-!
# Conservation across one settlement step

Every operation moves ISK between wallets and wallet escrows, or items of one type and station
between stacks and item escrows; none creates or destroys any.
-/
namespace EveTrade.SettlementConservation

open KeyedTable SettlementTypes SettlementCommands SettlementSchema SettlementStatements
  SettlementOperations SettlementEffects

def shareOf (itemTypeId stationId rowItemTypeId rowStationId quantity : Int) : Int :=
  if rowItemTypeId = itemTypeId ∧ rowStationId = stationId then quantity else 0

def stackShare (itemTypeId stationId : Int) (s : ItemStackRow) : Int :=
  shareOf itemTypeId stationId s.itemTypeId s.stationId s.quantity

def escrowShare (itemTypeId stationId : Int) (e : ItemStackEscrowRow) : Int :=
  shareOf itemTypeId stationId e.itemTypeId e.stationId e.quantity

def totalIsk (b : Business) : Int :=
  b.wallet.sum WalletRow.iskAmount + b.walletEscrow.sum WalletEscrowRow.iskAmount

def totalQuantity (b : Business) (itemTypeId stationId : Int) : Int :=
  b.itemStack.sum (stackShare itemTypeId stationId) +
    b.itemStackEscrow.sum (escrowShare itemTypeId stationId)

variable {ext : External} {ctx : StepContext} {b b' : Business} {checks : List DeferredCheck}

section Shares

theorem shareOf_add (i t i' t' m n : Int) :
    shareOf i t i' t' (m + n) = shareOf i t i' t' m + shareOf i t i' t' n := by
  unfold shareOf
  split_ifs
  · rfl
  · rfl

theorem shareOf_neg (i t i' t' m : Int) : shareOf i t i' t' (-m) = -shareOf i t i' t' m := by
  unfold shareOf
  split_ifs
  · rfl
  · rfl

theorem drawnItemEscrow_share (e : ItemStackEscrowRow) (after : Int) (h : 0 ≤ after) (i t : Int) :
    escrowShare i t (drawnItemEscrow ctx e after h) = shareOf i t e.itemTypeId e.stationId after := by
  unfold drawnItemEscrow
  split_ifs with hz
  · subst hz
    rfl
  · rfl

theorem drawnWalletEscrow_iskAmount (e : WalletEscrowRow) (after : Int) (h : 0 ≤ after) :
    (drawnWalletEscrow ctx e after h).iskAmount = after := by
  unfold drawnWalletEscrow
  split_ifs with hz
  · exact hz.symm
  · rfl

end Shares

section Postings

theorem StackPosting.sum_stackShare {s : ItemStackRow} {kind : EntryKind} {delta : Int}
    {st : StackState} (h : StackPosting ext ctx s kind delta st b b' checks) (i t : Int) :
    b'.itemStack.sum (stackShare i t) =
      b.itemStack.sum (stackShare i t) + shareOf i t s.itemTypeId s.stationId delta := by
  cases h with
  | posted found valid nonneg l entry =>
    have hset := Table.sum_set (r := postedStack ext s (s.quantity + delta) st nonneg) found
      (stackShare i t)
    change _ = _ - shareOf i t s.itemTypeId s.stationId s.quantity +
      shareOf i t s.itemTypeId s.stationId (s.quantity + delta) at hset
    rw [hset, shareOf_add]
    omega

theorem WalletPosting.sum_iskAmount {w : WalletRow} {kind : EntryKind} {delta : Int}
    (h : WalletPosting ext ctx w kind delta b b') :
    b'.wallet.sum WalletRow.iskAmount = b.wallet.sum WalletRow.iskAmount + delta := by
  cases h with
  | posted found valid nonneg =>
    have hset := Table.sum_set (r := postedWallet ext w (w.iskAmount + delta) nonneg) found
      WalletRow.iskAmount
    change _ = _ - w.iskAmount + (w.iskAmount + delta) at hset
    rw [hset]
    omega

theorem ItemEscrowFunding.sum_escrowShare {p : TransferQuantityFromItemStackToItemStackEscrow}
    {source : ItemStackRow} {id : UuidText.Uuid}
    (h : ItemEscrowFunding ctx p source id b b' checks) (i t : Int) :
    b'.itemStackEscrow.sum (escrowShare i t) = b.itemStackEscrow.sum (escrowShare i t) +
      shareOf i t source.itemTypeId source.stationId p.quantity := by
  cases h with
  | toppedUp e found unreleased trade owner itemType station h =>
    have hset := Table.sum_set (r := e.holding (e.quantity + p.quantity) h)
      (Table.find?_some_key found ▸ found) (escrowShare i t)
    change _ = _ - shareOf i t e.itemTypeId e.stationId e.quantity +
      shareOf i t e.itemTypeId e.stationId (e.quantity + p.quantity) at hset
    rw [hset, ← itemType, ← station, shareOf_add]
    omega
  | opened absent h escrows inserted sole =>
    exact Table.sum_insert inserted (escrowShare i t)

theorem WalletEscrowFunding.sum_iskAmount {p : TransferIskAmountFromWalletToWalletEscrow}
    {source : WalletRow} {id : UuidText.Uuid}
    (h : WalletEscrowFunding ctx p source id b b' checks) :
    b'.walletEscrow.sum WalletEscrowRow.iskAmount =
      b.walletEscrow.sum WalletEscrowRow.iskAmount + p.iskAmount := by
  cases h with
  | toppedUp e found unreleased trade owner h =>
    have hset := Table.sum_set (r := e.holding (e.iskAmount + p.iskAmount) h)
      (Table.find?_some_key found ▸ found) WalletEscrowRow.iskAmount
    change _ = _ - e.iskAmount + (e.iskAmount + p.iskAmount) at hset
    rw [hset]
    omega
  | opened absent h escrows inserted =>
    exact Table.sum_insert inserted WalletEscrowRow.iskAmount

end Postings

section Operations

theorem StackCreation.sum_stackShare {p : CreateNewEmptyItemStack}
    (h : StackCreation ext ctx p b b' checks) (i t : Int) :
    b'.itemStack.sum (stackShare i t) = b.itemStack.sum (stackShare i t) := by
  cases h with
  | created id hid rows inserted owner l entry =>
    have hshare : stackShare i t (emptyStack ext id p) = 0 := by
      unfold stackShare shareOf
      split_ifs
      · rfl
      · rfl
    rw [Table.sum_insert inserted (stackShare i t), hshare, add_zero]

theorem WalletEscrowCreation.sum_iskAmount {p : CreateNewEmptyWalletEscrow}
    (h : WalletEscrowCreation ctx p b b' checks) :
    b'.walletEscrow.sum WalletEscrowRow.iskAmount =
      b.walletEscrow.sum WalletEscrowRow.iskAmount := by
  cases h with
  | created w wallet owner active escrows inserted trade =>
    rw [Table.sum_insert inserted WalletEscrowRow.iskAmount]
    exact add_zero _

theorem ItemDeposit.totalQuantity_eq {p : TransferQuantityFromItemStackToItemStackEscrow}
    (h : ItemDeposit ext ctx p b b' checks) (i t : Int) :
    totalQuantity b' i t = totalQuantity b i t := by
  cases h with
  | deposited tr source b₁ b₂ c₁ c₂ positive trade opened live sourceId active issuer enough
      posting funding =>
    have hstack : b'.itemStack = b₁.itemStack := by rw [funding.frame]
    unfold totalQuantity
    rw [hstack, StackPosting.sum_stackShare posting, ItemEscrowFunding.sum_escrowShare funding,
      posting.itemStackEscrow, shareOf_neg]
    omega

theorem ItemRelease.totalQuantity_eq {rule : EscrowOwnerRule}
    {p : TransferQuantityFromItemStackEscrowToItemStack}
    (h : ItemRelease ext ctx rule p b b' checks) (i t : Int) :
    totalQuantity b' i t = totalQuantity b i t := by
  cases h with
  | released e destination tr b₁ c₁ positive escrow unreleased h destinationId active itemType
      station ownerRule trade paid remaining range posting =>
    have hkey : Keyed.key (drawnItemEscrow ctx e (e.quantity - p.quantity) h) =
        p.itemStackEscrowId := by
      rw [← Table.find?_some_key escrow]
      unfold drawnItemEscrow
      split_ifs <;> rfl
    have hset := Table.sum_set (t := b₁.itemStackEscrow)
      (r := drawnItemEscrow ctx e (e.quantity - p.quantity) h)
      (by rw [hkey, posting.itemStackEscrow]; exact escrow) (escrowShare i t)
    unfold totalQuantity
    rw [hset, drawnItemEscrow_share, StackPosting.sum_stackShare posting, posting.itemStackEscrow,
      itemType, station]
    have hsub := shareOf_add i t e.itemTypeId e.stationId (e.quantity - p.quantity) p.quantity
    rw [sub_add_cancel] at hsub
    change _ + _ + (_ - shareOf i t e.itemTypeId e.stationId e.quantity + _) = _
    omega

theorem StackMerge.totalQuantity_eq {p : MergeItemStacksWithIdenticalItemTypeAndIdenticalOwner}
    (h : StackMerge ext ctx p b b' checks) (i t : Int) :
    totalQuantity b' i t = totalQuantity b i t := by
  cases h with
  | merged source destination b₁ b₂ c₁ c₂ distinct sourceId destinationId sourceActive
      destinationActive owner itemType station credit debit =>
    unfold totalQuantity
    rw [StackPosting.sum_stackShare debit, StackPosting.sum_stackShare credit,
      debit.itemStackEscrow, credit.itemStackEscrow, shareOf_neg, itemType, station]
    omega

theorem IskDeposit.totalIsk_eq {p : TransferIskAmountFromWalletToWalletEscrow}
    (h : IskDeposit ext ctx p b b' checks) : totalIsk b' = totalIsk b := by
  cases h with
  | deposited source tr b₁ b₂ c₂ positive sourceId active trade opened live divides buys enough
      posting funding =>
    have hwallet : b'.wallet = b₁.wallet := by rw [funding.frame]
    unfold totalIsk
    rw [hwallet, WalletPosting.sum_iskAmount posting, WalletEscrowFunding.sum_iskAmount funding,
      posting.walletEscrow]
    omega

theorem IskRelease.totalIsk_eq {rule : EscrowOwnerRule}
    {p : TransferIskAmountFromWalletEscrowToWallet} (h : IskRelease ext ctx rule p b b' checks) :
    totalIsk b' = totalIsk b := by
  cases h with
  | released e destination b₁ positive escrow unreleased h destinationId active ownerRule live
      posting =>
    have hkey : Keyed.key (drawnWalletEscrow ctx e (e.iskAmount - p.iskAmount) h) =
        p.walletEscrowId := by
      rw [← Table.find?_some_key escrow]
      unfold drawnWalletEscrow
      split_ifs <;> rfl
    have hset := Table.sum_set (t := b₁.walletEscrow)
      (r := drawnWalletEscrow ctx e (e.iskAmount - p.iskAmount) h)
      (by rw [hkey, posting.walletEscrow]; exact escrow) WalletEscrowRow.iskAmount
    unfold totalIsk
    rw [hset, drawnWalletEscrow_iskAmount, WalletPosting.sum_iskAmount posting,
      posting.walletEscrow]
    omega

end Operations

section Steps

theorem ItemDeposit.isk_frame {p : TransferQuantityFromItemStackToItemStackEscrow}
    (h : ItemDeposit ext ctx p b b' checks) :
    b'.wallet = b.wallet ∧ b'.walletEscrow = b.walletEscrow := by
  cases h with
  | deposited tr source b₁ b₂ c₁ c₂ positive trade opened live sourceId active issuer enough
      posting funding =>
    rw [funding.frame, posting.frame]
    exact ⟨rfl, rfl⟩

theorem ItemRelease.isk_frame {rule : EscrowOwnerRule}
    {p : TransferQuantityFromItemStackEscrowToItemStack}
    (h : ItemRelease ext ctx rule p b b' checks) :
    b'.wallet = b.wallet ∧ b'.walletEscrow = b.walletEscrow := by
  cases h with
  | released e destination tr b₁ c₁ positive escrow unreleased h destinationId active itemType
      station ownerRule trade paid remaining range posting =>
    rw [posting.frame]
    exact ⟨rfl, rfl⟩

theorem StackMerge.isk_frame {p : MergeItemStacksWithIdenticalItemTypeAndIdenticalOwner}
    (h : StackMerge ext ctx p b b' checks) :
    b'.wallet = b.wallet ∧ b'.walletEscrow = b.walletEscrow := by
  cases h with
  | merged source destination b₁ b₂ c₁ c₂ distinct sourceId destinationId sourceActive
      destinationActive owner itemType station credit debit =>
    rw [debit.frame, credit.frame]
    exact ⟨rfl, rfl⟩

theorem IskDeposit.item_frame {p : TransferIskAmountFromWalletToWalletEscrow}
    (h : IskDeposit ext ctx p b b' checks) :
    b'.itemStack = b.itemStack ∧ b'.itemStackEscrow = b.itemStackEscrow := by
  cases h with
  | deposited source tr b₁ b₂ c₂ positive sourceId active trade opened live divides buys enough
      posting funding =>
    rw [funding.frame, posting.frame]
    exact ⟨rfl, rfl⟩

theorem IskRelease.item_frame {rule : EscrowOwnerRule}
    {p : TransferIskAmountFromWalletEscrowToWallet} (h : IskRelease ext ctx rule p b b' checks) :
    b'.itemStack = b.itemStack ∧ b'.itemStackEscrow = b.itemStackEscrow := by
  cases h with
  | released e destination b₁ positive escrow unreleased h destinationId active ownerRule live
      posting =>
    rw [posting.frame]
    exact ⟨rfl, rfl⟩

theorem totalIsk_congr (h : b'.wallet = b.wallet ∧ b'.walletEscrow = b.walletEscrow) :
    totalIsk b' = totalIsk b := by
  unfold totalIsk
  rw [h.1, h.2]

theorem totalQuantity_congr
    (h : b'.itemStack = b.itemStack ∧ b'.itemStackEscrow = b.itemStackEscrow) (i t : Int) :
    totalQuantity b' i t = totalQuantity b i t := by
  unfold totalQuantity
  rw [h.1, h.2]

theorem Effect.totalIsk_eq {c : SettlementCommand} (h : Effect ext ctx c b b' checks) :
    totalIsk b' = totalIsk b := by
  cases c with
  | createNewTradeInstanceRow p => cases h; rfl
  | modifyTradeInstanceState p => cases h; rfl
  | createNewEmptyItemStack p => cases h; rfl
  | transferQuantityFromItemStackToItemStackEscrow p => exact totalIsk_congr (ItemDeposit.isk_frame h)
  | transferQuantityFromItemStackEscrowToItemStackWithNewOwner p =>
    exact totalIsk_congr (ItemRelease.isk_frame h)
  | transferQuantityFromItemStackEscrowToItemStackWithPreviousOwner p =>
    exact totalIsk_congr (ItemRelease.isk_frame h)
  | mergeItemStacksWithIdenticalItemTypeAndIdenticalOwner p =>
    exact totalIsk_congr (StackMerge.isk_frame h)
  | createNewEmptyWalletEscrow p =>
    have hsum := WalletEscrowCreation.sum_iskAmount h
    cases h
    unfold totalIsk
    rw [hsum]
  | transferIskAmountFromWalletToWalletEscrow p => exact IskDeposit.totalIsk_eq h
  | transferIskAmountFromWalletEscrowToWalletWithNewOwner p => exact IskRelease.totalIsk_eq h
  | transferIskAmountFromWalletEscrowToWalletWithPreviousOwner p => exact IskRelease.totalIsk_eq h

theorem Effect.totalQuantity_eq {c : SettlementCommand} (h : Effect ext ctx c b b' checks)
    (i t : Int) : totalQuantity b' i t = totalQuantity b i t := by
  cases c with
  | createNewTradeInstanceRow p => cases h; rfl
  | modifyTradeInstanceState p => cases h; rfl
  | createNewEmptyItemStack p =>
    have hsum := StackCreation.sum_stackShare h i t
    cases h
    unfold totalQuantity
    rw [hsum]
  | transferQuantityFromItemStackToItemStackEscrow p => exact ItemDeposit.totalQuantity_eq h i t
  | transferQuantityFromItemStackEscrowToItemStackWithNewOwner p =>
    exact ItemRelease.totalQuantity_eq h i t
  | transferQuantityFromItemStackEscrowToItemStackWithPreviousOwner p =>
    exact ItemRelease.totalQuantity_eq h i t
  | mergeItemStacksWithIdenticalItemTypeAndIdenticalOwner p =>
    exact StackMerge.totalQuantity_eq h i t
  | createNewEmptyWalletEscrow p => cases h; rfl
  | transferIskAmountFromWalletToWalletEscrow p =>
    exact totalQuantity_congr (IskDeposit.item_frame h) i t
  | transferIskAmountFromWalletEscrowToWalletWithNewOwner p =>
    exact totalQuantity_congr (IskRelease.item_frame h) i t
  | transferIskAmountFromWalletEscrowToWalletWithPreviousOwner p =>
    exact totalQuantity_congr (IskRelease.item_frame h) i t

end Steps

end EveTrade.SettlementConservation
