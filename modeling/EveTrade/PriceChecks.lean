import EveTrade.MarketHandler
import EveTrade.TradeCalls

set_option autoImplicit false

/-!
# The price of an acceptance on 64-bit words

The market multiplies after a test by division, the authorisation and the release of the items multiply
with a check, and the debit divides the payment. On positive 64-bit words the four agree: a payment
passes exactly when it is the product of quantity and price, and no word wraps around on the way.
-/
namespace EveTrade.PriceChecks

open TransactionMonad UuidText SettlementTypes SettlementCommands SettlementSchema
  SettlementOperations SettlementOperationSpecs SettlementAuthorization MarketHandler

section Words

def checkedMul? (a b : Int64) : Option Int64 :=
  if InI64 (a.toInt * b.toInt) then some (a * b) else none

/-- No quotient for a zero divisor, nor for the one division that leaves the range. -/
def quotient? (a b : Int64) : Option Int64 :=
  if b = 0 ∨ (a = Int64.minValue ∧ b = -1) then none else some (a / b)

def remainder? (a b : Int64) : Option Int64 :=
  if b = 0 ∨ (a = Int64.minValue ∧ b = -1) then none else some (a % b)

/-- `checkedISKAmount` on words; without a value where the program would stop. The product wraps
around. -/
def iskAmountWord (quantity unitPriceIsk : Int64) : Option (Except String Int64) :=
  if unitPriceIsk < 0 then some (.error "unit_price_isk must be non-negative")
  else if unitPriceIsk = 0 then some (.ok (quantity * unitPriceIsk))
  else do
    let bound ← quotient? Int64.maxValue unitPriceIsk
    if bound < quantity then some (.error "trade price overflows int64")
    else some (.ok (quantity * unitPriceIsk))

def authorizedWord (quantity unitPriceIsk iskAmount : Int64) : Bool :=
  match checkedMul? quantity unitPriceIsk with
  | none => false
  | some expectedIsk => iskAmount == expectedIsk

def debitedWord (iskAmount unitPriceIsk remainingQuantity : Int64) : Option Bool :=
  if unitPriceIsk ≤ 0 then some false
  else do
    let rest ← remainder? iskAmount unitPriceIsk
    if rest ≠ 0 then some false
    else do
      let paidQuantity ← quotient? iskAmount unitPriceIsk
      some (decide (¬ (paidQuantity ≤ 0 ∨ remainingQuantity < paidQuantity)))

def releasedWord (activeIsk unitPriceIsk quantity : Int64) : Bool :=
  match checkedMul? unitPriceIsk quantity with
  | none => false
  | some expectedPayment => activeIsk == expectedPayment

theorem inI64_word (a : Int64) : InI64 a.toInt := ⟨a.le_toInt, a.toInt_lt⟩

theorem toInt_mul_exact {a b : Int64} (h : InI64 (a.toInt * b.toInt)) :
    (a * b).toInt = a.toInt * b.toInt := by
  obtain ⟨hlow, hhigh⟩ := h
  rw [Int64.toInt_mul]
  apply Int.bmod_eq_of_le <;> omega

theorem zero_lt_toInt {a : Int64} : 0 < a ↔ 0 < a.toInt := Int64.lt_iff_toInt_lt

theorem inI64_product {a b : Int64} (ha : 0 < a) (hb : 0 < b)
    (h : a.toInt * b.toInt ≤ maxInt64) : InI64 (a.toInt * b.toInt) := by
  have hpositive := Int.mul_pos (zero_lt_toInt.mp ha) (zero_lt_toInt.mp hb)
  unfold maxInt64 at h
  exact ⟨by omega, by omega⟩

section Positive

variable {p : Int64} (hp : 0 < p)

include hp

theorem word_guards : ¬ p < 0 ∧ p ≠ 0 ∧ ¬ p ≤ 0 ∧ p ≠ -1 := by
  have hp' : 0 < p.toInt := zero_lt_toInt.mp hp
  have hneg : (-1 : Int64).toInt = -1 := by decide
  refine ⟨?_, ?_, ?_, ?_⟩
  · intro h
    have h' : p.toInt < 0 := Int64.lt_iff_toInt_lt.mp h
    omega
  · rintro rfl
    cases hp'
  · intro h
    have h' : p.toInt ≤ 0 := Int64.le_iff_toInt_le.mp h
    omega
  · rintro rfl
    rw [hneg] at hp'
    omega

theorem quotient?_of_pos (a : Int64) :
    ∃ q, quotient? a p = some q ∧ q.toInt = a.toInt.tdiv p.toInt := by
  obtain ⟨-, hzero, -, hneg⟩ := word_guards hp
  have hp' : 0 < p.toInt := zero_lt_toInt.mp hp
  refine ⟨a / p, ?_, ?_⟩
  · unfold quotient?
    rw [if_neg]
    rintro (h | h)
    · exact hzero h
    · exact hneg h.2
  · have hlow := a.le_toInt
    have hhigh := a.toInt_lt
    have hbound := Int.natAbs_tdiv_le_natAbs a.toInt p.toInt
    have hrange : a.toInt.tdiv p.toInt < 2 ^ 63 := by
      rcases Int.lt_or_le a.toInt 0 with hneg' | hpos
      · have hflipped : 0 ≤ (-a.toInt).tdiv p.toInt := Int.tdiv_nonneg (by omega) hp'.le
        rw [Int.neg_tdiv] at hflipped
        omega
      · omega
    rw [Int64.toInt_div]
    apply Int.bmod_eq_of_le <;> omega

theorem remainder?_of_pos (a : Int64) :
    ∃ r, remainder? a p = some r ∧ r.toInt = a.toInt.tmod p.toInt := by
  obtain ⟨-, hzero, -, hneg⟩ := word_guards hp
  refine ⟨a % p, ?_, Int64.toInt_mod a p⟩
  unfold remainder?
  rw [if_neg]
  rintro (h | h)
  · exact hzero h
  · exact hneg h.2

theorem bound_lt_iff (q : Int) : maxInt64 / p.toInt < q ↔ maxInt64 < q * p.toInt :=
  Int.ediv_lt_iff_lt_mul (zero_lt_toInt.mp hp)

theorem iskAmountWord_eq (q : Int64) : iskAmountWord q p =
    some (if q.toInt * p.toInt ≤ maxInt64 then .ok (q * p)
      else .error "trade price overflows int64") := by
  obtain ⟨hneg, hzero, -, -⟩ := word_guards hp
  obtain ⟨bound, hbound, hvalue⟩ := quotient?_of_pos hp Int64.maxValue
  have hp' : 0 < p.toInt := zero_lt_toInt.mp hp
  have htest : bound < q ↔ maxInt64 < q.toInt * p.toInt := by
    rw [← bound_lt_iff hp, Int64.lt_iff_toInt_lt, hvalue, Int64.toInt_maxValue,
      Int.tdiv_eq_ediv_of_nonneg (by norm_num)]
    rfl
  unfold iskAmountWord
  rw [if_neg hneg, if_neg hzero, hbound]
  by_cases hover : maxInt64 < q.toInt * p.toInt
  · rw [if_neg (not_le.mpr hover)]
    simp [htest.mpr hover]
  · rw [if_pos (not_lt.mp hover)]
    simp [mt htest.mp hover]

theorem checkedIskAmount_eq (q : Int) : checkedIskAmount q p.toInt =
    if q * p.toInt ≤ maxInt64 then .ok (q * p.toInt)
    else .error "trade price overflows int64" := by
  have hp' : 0 < p.toInt := zero_lt_toInt.mp hp
  unfold checkedIskAmount
  rw [if_neg (by omega)]
  by_cases hover : maxInt64 < q * p.toInt
  · rw [if_neg (not_le.mpr hover), if_pos ⟨by omega, (bound_lt_iff hp q).mpr hover⟩]
  · rw [if_pos (not_lt.mp hover), if_neg fun h => hover ((bound_lt_iff hp q).mp h.2)]

theorem debitedWord_eq (amount remaining : Int64) : debitedWord amount p remaining =
    some (decide (amount.toInt.tmod p.toInt = 0 ∧ 0 < amount.toInt.tdiv p.toInt ∧
      amount.toInt.tdiv p.toInt ≤ remaining.toInt)) := by
  obtain ⟨-, -, hpos, -⟩ := word_guards hp
  obtain ⟨rest, hrest, hrestValue⟩ := remainder?_of_pos hp amount
  obtain ⟨paid, hpaid, hpaidValue⟩ := quotient?_of_pos hp amount
  have hexact : rest = 0 ↔ amount.toInt.tmod p.toInt = 0 := by
    rw [← hrestValue, ← Int64.toInt_inj]
    rfl
  have hpositive : 0 < paid ↔ 0 < amount.toInt.tdiv p.toInt := by
    rw [← hpaidValue, zero_lt_toInt]
  have hwithin : paid ≤ remaining ↔ amount.toInt.tdiv p.toInt ≤ remaining.toInt := by
    rw [← hpaidValue, Int64.le_iff_toInt_le]
  unfold debitedWord
  rw [if_neg hpos, hrest, hpaid]
  by_cases h : rest = 0
  · simp [h, hexact.mp h, hpositive, hwithin]
  · simp [h, mt hexact.mpr h]

end Positive

theorem checkedMul?_eq_some {a b c : Int64} :
    checkedMul? a b = some c ↔ c.toInt = a.toInt * b.toInt := by
  unfold checkedMul?
  split_ifs with h
  · rw [Option.some.injEq, ← toInt_mul_exact h, Int64.toInt_inj, eq_comm]
  · constructor
    · intro hnone
      cases hnone
    · intro hc
      exact absurd (hc ▸ inI64_word c) h

theorem authorizedWord_iff {quantity unitPriceIsk iskAmount : Int64} :
    authorizedWord quantity unitPriceIsk iskAmount = true ↔
      iskAmount.toInt = quantity.toInt * unitPriceIsk.toInt := by
  rw [← checkedMul?_eq_some]
  unfold authorizedWord
  cases checkedMul? quantity unitPriceIsk with
  | none => simp
  | some expected => rw [beq_iff_eq, Option.some.injEq, eq_comm]

theorem releasedWord_iff {activeIsk unitPriceIsk quantity : Int64} :
    releasedWord activeIsk unitPriceIsk quantity = true ↔
      activeIsk.toInt = unitPriceIsk.toInt * quantity.toInt := by
  rw [← checkedMul?_eq_some]
  unfold releasedWord
  cases checkedMul? unitPriceIsk quantity with
  | none => simp
  | some expected => rw [beq_iff_eq, Option.some.injEq, eq_comm]

end Words

section Checks

/-- A session in which nothing outside fails. -/
def quiet (b : Business) : Session Business DeferredCheck DbError := ⟨b, [], []⟩

@[simp] theorem quiet_nextFault (b : Business) : (quiet b).nextFault = none := rfl

@[simp] theorem quiet_data (b : Business) : (quiet b).data = b := rfl

@[simp] theorem quiet_wrote (b : Business) : (quiet b).wrote b [] = quiet b := rfl

def Passes (x : OpTx Unit) (b : Business) : Prop := ∃ s, x (quiet b) = .ok ((), s)

/-- What an acceptance is checked for besides its price. -/
structure Authorizable (actor : Int) (operations : List SettlementCommand)
    (debit : TransferIskAmountFromWalletToWalletEscrow)
    (delivery : TransferQuantityFromItemStackEscrowToItemStack)
    (credit : TransferIskAmountFromWalletEscrowToWallet) (b : Business) (trade : TradeInstanceRow) :
    Prop where
  payer : (b.wallet.find? debit.sourceWalletId).map WalletRow.capsuleerId = some actor
  found : b.tradeInstance.find? debit.tradeInstanceId = some trade
  opened : trade.tradeState = .open
  escrow : ∃ e, b.itemStackEscrow.find? delivery.itemStackEscrowId = some e ∧
    e.tradeInstanceId = debit.tradeInstanceId ∧ e.ownerId = trade.issuerId ∧
    e.isReleased = false ∧ delivery.quantity ≤ e.quantity
  remaining : delivery.quantity ≤ trade.remainingQuantity
  proceeds : (b.wallet.find? credit.destinationWalletId).map WalletRow.capsuleerId =
    some trade.issuerId
  destination : operations.any (createsDestination actor delivery.destinationItemStackId) = true ∨
    (b.itemStack.find? delivery.destinationItemStackId).map ItemStackRow.ownerId = some actor

section Lookups

variable {β : Type} {s : Session Business DeferredCheck DbError}
  {r : β × Session Business DeferredCheck DbError} {id : Uuid}

theorem walletOwner_bind_eq_ok {f : Int → OpTx β} :
    (walletOwner id >>= f) s = .ok r ↔ s.nextFault = none ∧
      ∃ owner, (s.data.wallet.find? id).map WalletRow.capsuleerId = some owner ∧
        f owner (s.wrote s.data []) = .ok r :=
  lookup_bind_eq_ok

theorem itemOwner_bind_eq_ok {f : Int → OpTx β} :
    (itemOwner id >>= f) s = .ok r ↔ s.nextFault = none ∧
      ∃ owner, (s.data.itemStack.find? id).map ItemStackRow.ownerId = some owner ∧
        f owner (s.wrote s.data []) = .ok r :=
  lookup_bind_eq_ok

theorem lockTrade_bind_eq_ok {f : TradeInstanceRow → OpTx β} :
    (lockTrade id >>= f) s = .ok r ↔ s.nextFault = none ∧
      ∃ t, s.data.tradeInstance.find? id = some t ∧ f t (s.wrote s.data []) = .ok r :=
  lookup_bind_eq_ok

theorem lockItemEscrow_bind_eq_ok {f : ItemStackEscrowRow → OpTx β} :
    (lockItemEscrow id >>= f) s = .ok r ↔ s.nextFault = none ∧
      ∃ e, s.data.itemStackEscrow.find? id = some e ∧ f e (s.wrote s.data []) = .ok r :=
  lookup_bind_eq_ok

end Lookups

variable {b : Business} {trade : TradeInstanceRow}

theorem authorizeAcceptTrade_passes_iff {actor : Int} {operations : List SettlementCommand}
    {debit : TransferIskAmountFromWalletToWalletEscrow}
    {delivery : TransferQuantityFromItemStackEscrowToItemStack}
    {credit : TransferIskAmountFromWalletEscrowToWallet}
    (h : Authorizable actor operations debit delivery credit b trade) :
    Passes (authorizeAcceptTrade actor operations debit delivery credit) b ↔
      InI64 (delivery.quantity * trade.unitPriceIsk) ∧
        debit.iskAmount = delivery.quantity * trade.unitPriceIsk := by
  obtain ⟨e, he, htrade, howner, hactive, hquantity⟩ := h.escrow
  have hdestination : Passes (Tx.when (operations.any
      (createsDestination actor delivery.destinationItemStackId) = false) (do
        let owner ← itemOwner delivery.destinationItemStackId
        require (owner = actor) "ACCEPT destination item stack does not belong to actor")) b := by
    rcases h.destination with hcreated | howned
    · exact ⟨quiet b, by rw [Tx.when, if_neg (by simp [hcreated])]; rfl⟩
    · have hlookup : Passes (itemOwner delivery.destinationItemStackId >>= fun owner =>
          require (owner = actor) "ACCEPT destination item stack does not belong to actor") b := by
        simp only [Passes, itemOwner_bind_eq_ok, require, Tx.ensure_eq_ok]
        exact ⟨quiet b, rfl, actor, howned, rfl, rfl⟩
      unfold Tx.when
      split_ifs
      · exact hlookup
      · exact ⟨quiet b, rfl⟩
  simp only [Passes, authorizeAcceptTrade, walletOwner_bind_eq_ok, lockTrade_bind_eq_ok,
    lockItemEscrow_bind_eq_ok, require, Tx.ensure_bind_eq_ok]
  simp only [quiet_nextFault, quiet_data, quiet_wrote, h.payer, h.found, he, Option.some.injEq,
    exists_eq_left', true_and, h.opened, htrade, howner, hactive, hquantity, h.remaining, h.proceeds]
  constructor
  · rintro ⟨s, hrange, hprice, -⟩
    exact ⟨hrange, hprice⟩
  · rintro ⟨hrange, hprice⟩
    obtain ⟨s, hs⟩ := hdestination
    exact ⟨s, hrange, hprice, hs⟩

theorem debit_passes_iff (ext : External) {clock : DateTime} {id : Uuid} (amount : Int)
    (found : b.tradeInstance.find? id = some trade) (opened : trade.tradeState = .open)
    (live : isExpired clock trade = false) :
    Passes (ensureWalletPaymentMatchesTradePrice ext clock id amount) b ↔
      amount.tmod trade.unitPriceIsk = 0 ∧ 0 < amount.tdiv trade.unitPriceIsk ∧
        amount.tdiv trade.unitPriceIsk ≤ trade.remainingQuantity := by
  have hprice := trade.unitPriceIsk_pos
  simp only [Passes, ensureWalletPaymentMatchesTradePrice, ensureTradeOpen, ensureTradeNotExpired,
    lockTradeInstance_bind_eq_ok, Tx.ensure_bind_eq_ok, Tx.ensure_eq_ok]
  simp only [quiet_nextFault, quiet_data, quiet_wrote, found, Option.some.injEq, exists_eq_left',
    opened, live, true_and]
  simp [hprice]

theorem release_passes_iff (ext : External) {clock : DateTime} {id : Uuid} (quantity : Int)
    (found : b.tradeInstance.find? id = some trade) (opened : trade.tradeState = .open)
    (live : isExpired clock trade = false) (active : InI64 (b.activeWalletEscrowIsk id)) :
    Passes (ensureActiveWalletEscrowMatchesItemRelease ext clock id quantity) b ↔
      b.activeWalletEscrowIsk id = trade.unitPriceIsk * quantity := by
  simp only [Passes, ensureActiveWalletEscrowMatchesItemRelease, ensureTradeOpen,
    ensureTradeNotExpired, lockTradeInstance_bind_eq_ok, selectSum_bind_eq_ok, Tx.ensure_bind_eq_ok,
    Tx.ensure_eq_ok]
  simp only [quiet_nextFault, quiet_data, quiet_wrote, found, Option.some.injEq, exists_eq_left',
    opened, live, active, true_and]
  constructor
  · rintro ⟨s, -, hpaid, -⟩
    exact hpaid
  · intro hpaid
    exact ⟨quiet b, hpaid ▸ active, hpaid, rfl⟩

end Checks

theorem product_passes_debit {quantity price remaining : Int} (hq : 0 < quantity) (hp : 0 < price)
    (hremaining : quantity ≤ remaining) : (quantity * price).tmod price = 0 ∧
      0 < (quantity * price).tdiv price ∧ (quantity * price).tdiv price ≤ remaining := by
  rw [Int.mul_tdiv_cancel quantity hp.ne']
  exact ⟨Int.mul_tmod_left quantity price, hq, hremaining⟩

/-- On positive words the market's amount is the exact product or an overflow error; the three checks
of a payment compute on words what they say of the numbers; and a payment passes all three exactly
when it is the product. -/
theorem price_checks_exact (quantity unitPrice : Int64) (hq : 0 < quantity) (hp : 0 < unitPrice) :
    (∃ r, iskAmountWord quantity unitPrice = some r ∧
      r.map Int64.toInt = checkedIskAmount quantity.toInt unitPrice.toInt ∧
      (quantity.toInt * unitPrice.toInt ≤ maxInt64 →
        r.map Int64.toInt = .ok (quantity.toInt * unitPrice.toInt)) ∧
      (maxInt64 < quantity.toInt * unitPrice.toInt →
        r = .error "trade price overflows int64")) ∧
    ∀ (ext : External) (clock clock' : DateTime) (actor : Int) (operations : List SettlementCommand)
      (debit : TransferIskAmountFromWalletToWalletEscrow)
      (delivery : TransferQuantityFromItemStackEscrowToItemStack)
      (credit : TransferIskAmountFromWalletEscrowToWallet) (b b' : Business)
      (trade : TradeInstanceRow) (amount remaining : Int64),
      Authorizable actor operations debit delivery credit b trade →
      b.activeWalletEscrowIsk debit.tradeInstanceId = 0 →
      b'.tradeInstance.find? debit.tradeInstanceId = some trade →
      b'.activeWalletEscrowIsk debit.tradeInstanceId =
        b.activeWalletEscrowIsk debit.tradeInstanceId + debit.iskAmount →
      isExpired clock trade = false → isExpired clock' trade = false →
      delivery.quantity = quantity.toInt → trade.unitPriceIsk = unitPrice.toInt →
      trade.remainingQuantity = remaining.toInt → debit.iskAmount = amount.toInt →
      (authorizedWord quantity unitPrice amount = true ↔
        Passes (authorizeAcceptTrade actor operations debit delivery credit) b) ∧
      (∃ r, debitedWord amount unitPrice remaining = some r ∧ (r = true ↔
        Passes (ensureWalletPaymentMatchesTradePrice ext clock debit.tradeInstanceId
          debit.iskAmount) b)) ∧
      (releasedWord amount unitPrice quantity = true ↔
        Passes (ensureActiveWalletEscrowMatchesItemRelease ext clock' debit.tradeInstanceId
          delivery.quantity) b') ∧
      ((Passes (authorizeAcceptTrade actor operations debit delivery credit) b ∧
        Passes (ensureWalletPaymentMatchesTradePrice ext clock debit.tradeInstanceId
          debit.iskAmount) b ∧
        Passes (ensureActiveWalletEscrowMatchesItemRelease ext clock' debit.tradeInstanceId
          delivery.quantity) b') ↔
        amount.toInt = quantity.toInt * unitPrice.toInt) := by
  have hp' : 0 < unitPrice.toInt := zero_lt_toInt.mp hp
  have hq' : 0 < quantity.toInt := zero_lt_toInt.mp hq
  refine ⟨⟨_, iskAmountWord_eq hp quantity, ?_, ?_, ?_⟩, ?_⟩
  · rw [checkedIskAmount_eq hp]
    split_ifs with hfits
    · simp [Except.map, toInt_mul_exact (inI64_product hq hp hfits)]
    · rfl
  · intro hfits
    simp [hfits, Except.map, toInt_mul_exact (inI64_product hq hp hfits)]
  · intro hover
    rw [if_neg (not_le.mpr hover)]
  · intro ext clock clock' actor operations debit delivery credit b b' trade amount remaining
      hauthorizable hno hfound hactive hlive hlive' hquantity hprice hremaining hamount
    have hpaid : b'.activeWalletEscrowIsk debit.tradeInstanceId = amount.toInt := by
      rw [hactive, hno, zero_add, hamount]
    have hauthorized := authorizeAcceptTrade_passes_iff hauthorizable
    have hdebit := debit_passes_iff ext debit.iskAmount hauthorizable.found hauthorizable.opened hlive
    have hrelease := release_passes_iff ext delivery.quantity hfound hauthorizable.opened hlive'
      (hpaid ▸ inI64_word amount)
    rw [hquantity, hprice, hamount] at hauthorized
    rw [hprice, hremaining, hamount] at hdebit
    rw [hpaid, hprice, hquantity] at hrelease
    rw [hquantity, hamount, hauthorized, hdebit, hrelease]
    have hexact : InI64 (quantity.toInt * unitPrice.toInt) ∧
        amount.toInt = quantity.toInt * unitPrice.toInt ↔
        amount.toInt = quantity.toInt * unitPrice.toInt :=
      ⟨fun h => h.2, fun h => ⟨h ▸ inI64_word amount, h⟩⟩
    refine ⟨?_, ⟨_, debitedWord_eq hp amount remaining, decide_eq_true_iff⟩, releasedWord_iff, ?_⟩
    · rw [authorizedWord_iff, hexact]
    · rw [hexact]
      constructor
      · intro h
        exact h.1
      · intro h
        have hwithin : quantity.toInt ≤ remaining.toInt := by
          rw [← hquantity, ← hremaining]
          exact hauthorizable.remaining
        refine ⟨h, ?_, by rw [h, mul_comm]⟩
        rw [h]
        exact product_passes_debit hq' hp' hwithin

section Seeded

open LocalDevWorld TradeCalls SettlementExecutor

def offered : Business := (runCalls transparent offerOfTen (localDevWorld transparent)).business

def fourDebit : TransferIskAmountFromWalletToWalletEscrow :=
  ⟨buyerWalletId, some (.ofNat 0x73), tradeId, 100⟩

def fourDelivery : TransferQuantityFromItemStackEscrowToItemStack := ⟨escrowId, buyerStackId, 4⟩

def fourCredit : TransferIskAmountFromWalletEscrowToWallet := ⟨.ofNat 0x73, sellerWalletId, 100⟩

def offeredTrade : TradeInstanceRow where
  tradeInstanceId := tradeId
  createdSettlementStepId := .ofNat 102
  tradeKind := .sell
  tradeState := .open
  issuerId := sellerId
  itemTypeId := 34
  stationId := 60003760
  totalQuantity := 10
  remainingQuantity := 10
  unitPriceIsk := 25
  expiresAt := none
  totalQuantity_pos := by decide
  remainingQuantity_range := by decide
  unitPriceIsk_pos := by decide

def offeredEscrow : ItemStackEscrowRow where
  itemStackEscrowId := escrowId
  tradeInstanceId := tradeId
  ownerId := sellerId
  sourceItemStackId := sourceStackId
  itemTypeId := 34
  stationId := 60003760
  quantity := 10
  isReleased := false
  createdSettlementStepId := .ofNat 104
  releasedSettlementStepId := none
  createdAt := 0
  quantity_nonneg := by decide

theorem four_authorizable :
    Authorizable buyerId [] fourDebit fourDelivery fourCredit offered offeredTrade where
  payer := by decide +kernel
  found := by decide +kernel
  opened := rfl
  escrow := ⟨offeredEscrow, by decide +kernel, rfl, rfl, rfl, by decide⟩
  remaining := by decide
  proceeds := by decide +kernel
  destination := .inr (by decide +kernel)

theorem hundred_nonneg : (0 : Int) ≤ 100 := by decide

def fourEscrowed : Business :=
  { offered with
    walletEscrow := ⟨[⟨.ofNat 0x73, tradeId, buyerId, buyerWalletId, 100, false, .ofNat 202, none,
      hundred_nonneg⟩], by decide⟩ }

/-- A payment of 100 for four items at 25 passes. -/
theorem price_checks_exact_four :
    Passes (authorizeAcceptTrade buyerId [] fourDebit fourDelivery fourCredit) offered ∧
    Passes (ensureWalletPaymentMatchesTradePrice transparent 0 tradeId 100) offered ∧
    Passes (ensureActiveWalletEscrowMatchesItemRelease transparent 0 tradeId 4) fourEscrowed := by
  obtain ⟨-, hchecks⟩ := price_checks_exact 4 25 (by decide) (by decide)
  obtain ⟨-, -, -, hpasses⟩ := hchecks transparent 0 0 buyerId [] fourDebit fourDelivery fourCredit
    offered fourEscrowed offeredTrade 100 10 four_authorizable (by decide +kernel)
    (by decide +kernel) (by decide +kernel) rfl rfl rfl rfl rfl rfl
  exact hpasses.mpr (by decide)

end Seeded

end EveTrade.PriceChecks
