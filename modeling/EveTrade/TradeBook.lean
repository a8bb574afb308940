import EveTrade.SettlementSchema

set_option autoImplicit false

/-!
# The book of trades

What issuing, accepting and cancelling a trade do to the rows, and the invariant they keep: every
item escrow belongs to a trade of its owner, an unreleased one holds what remains of its trade, and
no wallet escrow outlives its acceptance.
-/
namespace EveTrade.TradeBook

open KeyedTable UuidText SettlementTypes SettlementSchema

section Rows

/-- A wallet whose amount has changed, and nothing of its identity. -/
structure Repriced (w w' : WalletRow) (delta : Int) : Prop where
  walletId : w'.walletId = w.walletId
  capsuleerId : w'.capsuleerId = w.capsuleerId
  walletState : w'.walletState = w.walletState
  iskAmount : w'.iskAmount = w.iskAmount + delta

/-- A stack whose quantity has changed, and nothing of its identity. -/
structure Restocked (s s' : ItemStackRow) (delta : Int) : Prop where
  itemStackId : s'.itemStackId = s.itemStackId
  ownerId : s'.ownerId = s.ownerId
  itemTypeId : s'.itemTypeId = s.itemTypeId
  stationId : s'.stationId = s.stationId
  stackState : s'.stackState = s.stackState
  quantity : s'.quantity = s.quantity + delta

/-- An escrow from which some quantity was drawn; it is released once it is empty. -/
structure Drawn (e e' : ItemStackEscrowRow) (quantity : Int) : Prop where
  itemStackEscrowId : e'.itemStackEscrowId = e.itemStackEscrowId
  tradeInstanceId : e'.tradeInstanceId = e.tradeInstanceId
  ownerId : e'.ownerId = e.ownerId
  drawn : e'.quantity = e.quantity - quantity
  isReleased : e'.isReleased = true ↔ e'.quantity = 0

/-- The stacks with at most one new stack, which is empty and belongs to the capsuleer. -/
inductive StackAdded (capsuleer : Int) (stackRows : Table ItemStackRow) : Table ItemStackRow → Prop
  | same : StackAdded capsuleer stackRows stackRows
  | added (s : ItemStackRow) (rows : Table ItemStackRow) (owner : s.ownerId = capsuleer)
      (empty : s.quantity = 0) (inserted : stackRows.insert? s = some rows) :
      StackAdded capsuleer stackRows rows

end Rows

/-- What is left of a trade after some quantity was drawn from it. -/
def drawnTrade (t : TradeInstanceRow) (quantity : Int) (state : TradeState)
    (h : 0 ≤ t.remainingQuantity - quantity ∧ t.remainingQuantity - quantity ≤ t.totalQuantity) :
    TradeInstanceRow :=
  (t.withRemaining (t.remainingQuantity - quantity) h).withState state

section Effects

variable (actor : Int) (tradeInstanceId : Uuid) (quantity : Int) (b : Business)

/-- A stack of the actor is debited, and one trade and its escrow appear. -/
inductive Issued : Business → Prop
  | issued (s s' : ItemStackRow) (t : TradeInstanceRow) (e : ItemStackEscrowRow)
      (trades : Table TradeInstanceRow) (escrows : Table ItemStackEscrowRow)
      (entries : List ItemStackLedgerRow)
      (source : b.itemStack.find? s.itemStackId = some s) (sourceOwner : s.ownerId = actor)
      (debited : Restocked s s' (-quantity))
      (newTrade : b.tradeInstance.insert? t = some trades)
      (tradeId : t.tradeInstanceId = tradeInstanceId) (issuer : t.issuerId = actor)
      (opened : t.tradeState = .open) (total : t.totalQuantity = quantity)
      (whole : t.remainingQuantity = quantity)
      (newEscrow : b.itemStackEscrow.insert? e = some escrows)
      (escrowTrade : e.tradeInstanceId = tradeInstanceId) (escrowOwner : e.ownerId = actor)
      (unreleased : e.isReleased = false) (held : e.quantity = quantity) :
      Issued
        { b with
          itemStack := b.itemStack.set s'
          itemStackLedger := b.itemStackLedger ++ entries
          tradeInstance := trades
          itemStackEscrow := escrows }

/-- The actor pays the issuer of the trade and receives the quantity from the trade's escrow. -/
inductive Accepted (t : TradeInstanceRow) : Business → Prop
  | accepted (state : TradeState) (e e' : ItemStackEscrowRow) (w w' v v' : WalletRow)
      (s s' : ItemStackRow) (stackRows : Table ItemStackRow) (x : WalletEscrowRow)
      (walletEscrows : Table WalletEscrowRow) (walletEntries : List WalletLedgerRow)
      (stackEntries : List ItemStackLedgerRow) (changes : List TradeStateChangeRow)
      (trade : b.tradeInstance.find? tradeInstanceId = some t) (opened : t.tradeState = .open)
      (buyer : actor ≠ t.issuerId) (positive : 0 < quantity)
      (range : 0 ≤ t.remainingQuantity - quantity ∧
        t.remainingQuantity - quantity ≤ t.totalQuantity)
      (completion : state = .open ∨ state = .completed ∧ t.remainingQuantity = quantity)
      (escrow : b.itemStackEscrow.find? e.itemStackEscrowId = some e)
      (escrowTrade : e.tradeInstanceId = tradeInstanceId) (unreleased : e.isReleased = false)
      (drawn : Drawn e e' quantity)
      (payer : b.wallet.find? w.walletId = some w) (payerOwner : w.capsuleerId = actor)
      (paid : Repriced w w' (-(quantity * t.unitPriceIsk)))
      (seller : b.wallet.find? v.walletId = some v) (sellerOwner : v.capsuleerId = t.issuerId)
      (credited : Repriced v v' (quantity * t.unitPriceIsk))
      (added : StackAdded actor b.itemStack stackRows)
      (destination : stackRows.find? s.itemStackId = some s) (destinationOwner : s.ownerId = actor)
      (delivered : Restocked s s' quantity)
      (newWalletEscrow : b.walletEscrow.insert? x = some walletEscrows)
      (walletEscrowOwner : x.ownerId = actor)
      (walletEscrowTrade : x.tradeInstanceId = tradeInstanceId) (closed : x.isReleased = true)
      (emptied : x.iskAmount = 0)
      (changesTrade : ∀ c ∈ changes, c.tradeInstanceId = tradeInstanceId) :
      Accepted t
        { b with
          wallet := (b.wallet.set w').set v'
          walletLedger := b.walletLedger ++ walletEntries
          itemStack := stackRows.set s'
          itemStackLedger := b.itemStackLedger ++ stackEntries
          tradeInstance := b.tradeInstance.set (drawnTrade t quantity state range)
          tradeStateChange := b.tradeStateChange ++ changes
          walletEscrow := walletEscrows
          itemStackEscrow := b.itemStackEscrow.set e' }

def closedTrade (t : TradeInstanceRow) : TradeInstanceRow :=
  (t.withRemaining 0 ⟨le_refl 0, t.totalQuantity_pos.le⟩).withState .cancelled

/-- The trade of the actor is closed, and what it still holds goes back to a stack of the actor. -/
inductive Cancelled (t : TradeInstanceRow) : Business → Prop
  | sold (changes : List TradeStateChangeRow)
      (trade : b.tradeInstance.find? tradeInstanceId = some t) (issuer : t.issuerId = actor)
      (opened : t.tradeState = .open) (nothing : t.remainingQuantity = 0)
      (changesTrade : ∀ c ∈ changes, c.tradeInstanceId = tradeInstanceId) :
      Cancelled t
        { b with
          tradeInstance := b.tradeInstance.set (closedTrade t)
          tradeStateChange := b.tradeStateChange ++ changes }
  | returned (e e' : ItemStackEscrowRow) (s s' : ItemStackRow)
      (entries : List ItemStackLedgerRow) (changes : List TradeStateChangeRow)
      (trade : b.tradeInstance.find? tradeInstanceId = some t) (issuer : t.issuerId = actor)
      (opened : t.tradeState = .open)
      (escrow : b.itemStackEscrow.find? e.itemStackEscrowId = some e)
      (escrowTrade : e.tradeInstanceId = tradeInstanceId) (unreleased : e.isReleased = false)
      (held : e.quantity = t.remainingQuantity) (drawn : Drawn e e' t.remainingQuantity)
      (destination : b.itemStack.find? s.itemStackId = some s) (destinationOwner : s.ownerId = actor)
      (restocked : Restocked s s' t.remainingQuantity)
      (changesTrade : ∀ c ∈ changes, c.tradeInstanceId = tradeInstanceId) :
      Cancelled t
        { b with
          itemStack := b.itemStack.set s'
          itemStackLedger := b.itemStackLedger ++ entries
          tradeInstance := b.tradeInstance.set (closedTrade t)
          tradeStateChange := b.tradeStateChange ++ changes
          itemStackEscrow := b.itemStackEscrow.set e' }

end Effects

/-- The state in which a trade is left. -/
def LeftIn (b : Business) (tradeInstanceId : Uuid) (state : TradeState) : Prop :=
  ∃ t, b.tradeInstance.find? tradeInstanceId = some t ∧ t.tradeState = state

section Invariant

/-- Every trade is backed by its escrows. -/
structure Book (b : Business) : Prop where
  walletEscrowClosed : ∀ x ∈ b.walletEscrow.rows, x.isReleased = true ∧ x.iskAmount = 0
  escrowTrade : ∀ e ∈ b.itemStackEscrow.rows, ∃ t,
    b.tradeInstance.find? e.tradeInstanceId = some t ∧ t.issuerId = e.ownerId
  escrowHolds : ∀ e ∈ b.itemStackEscrow.rows, e.isReleased = false → 0 < e.quantity ∧
    ∀ t, b.tradeInstance.find? e.tradeInstanceId = some t → t.remainingQuantity = e.quantity
  escrowSole : ∀ e ∈ b.itemStackEscrow.rows, ∀ f ∈ b.itemStackEscrow.rows,
    e.isReleased = false → f.isReleased = false → e.tradeInstanceId = f.tradeInstanceId → e = f
  tradeHolds : ∀ t ∈ b.tradeInstance.rows, (∀ e ∈ b.itemStackEscrow.rows,
    e.tradeInstanceId = t.tradeInstanceId → e.isReleased = true) → t.remainingQuantity = 0
  tradeClosed : ∀ t ∈ b.tradeInstance.rows, t.tradeState ≠ .open → t.remainingQuantity = 0

variable {actor : Int} {tradeInstanceId : Uuid} {quantity : Int} {b b' : Business}
  {t : TradeInstanceRow}

theorem Book.active (h : Book b) (ht : b.tradeInstance.find? tradeInstanceId = some t) :
    b.activeItemEscrowQuantity tradeInstanceId = t.remainingQuantity := by
  have hid : t.tradeInstanceId = tradeInstanceId := Table.find?_some_key ht
  unfold Business.activeItemEscrowQuantity
  by_cases hheld : ∃ e ∈ b.itemStackEscrow.rows,
      e.tradeInstanceId = tradeInstanceId ∧ e.isReleased = false
  · obtain ⟨e, he, htrade, hunreleased⟩ := hheld
    rw [Table.sum_eq_single he, if_pos ⟨htrade, hunreleased⟩]
    · exact ((h.escrowHolds e he hunreleased).2 t (htrade ▸ ht)).symm
    · intro f hf hne
      rw [if_neg]
      rintro ⟨htrade', hunreleased'⟩
      exact hne (h.escrowSole f hf e he hunreleased' hunreleased (htrade'.trans htrade.symm))
  · rw [Table.sum_eq_zero]
    · refine (h.tradeHolds t (Table.find?_some_mem ht) fun e he htrade => ?_).symm
      by_contra hreleased
      exact hheld ⟨e, he, htrade.trans hid, by simpa using hreleased⟩
    · intro e he
      rw [if_neg fun hactive => hheld ⟨e, he, hactive⟩]

theorem Book.activeWallet (h : Book b) (id : Uuid) : b.activeWalletEscrowIsk id = 0 := by
  refine Table.sum_eq_zero fun x hx => ?_
  rw [if_neg]
  rintro ⟨_, hunreleased⟩
  rw [(h.walletEscrowClosed x hx).1] at hunreleased
  cases hunreleased

theorem find?_set_trade (t' : TradeInstanceRow)
    (trade : b.tradeInstance.find? tradeInstanceId = some t)
    (tradeId : t'.tradeInstanceId = t.tradeInstanceId) (k : Uuid) :
    (b.tradeInstance.set t').find? k =
      if tradeInstanceId = k then some t' else b.tradeInstance.find? k := by
  have hkey : Keyed.key t' = tradeInstanceId := tradeId.trans (Table.find?_some_key trade)
  rw [Table.find?_set, hkey]
  split_ifs with hk
  · rw [← hk, trade]
    rfl
  · rfl

theorem Book.escrowTrade_set (h : Book b) {t' : TradeInstanceRow}
    (trade : b.tradeInstance.find? tradeInstanceId = some t)
    (tradeId : t'.tradeInstanceId = t.tradeInstanceId) (issuer : t'.issuerId = t.issuerId)
    {e : ItemStackEscrowRow} (he : e ∈ b.itemStackEscrow.rows) :
    ∃ t₁, (b.tradeInstance.set t').find? e.tradeInstanceId = some t₁ ∧ t₁.issuerId = e.ownerId := by
  obtain ⟨t₀, hfound, howner⟩ := h.escrowTrade e he
  rw [find?_set_trade _ trade tradeId]
  split_ifs with hk
  · rw [← hk, trade] at hfound
    obtain rfl := Option.some.inj hfound
    exact ⟨t', rfl, issuer.trans howner⟩
  · exact ⟨t₀, hfound, howner⟩

theorem Book.escrowOwner (h : Book b) {e : ItemStackEscrowRow}
    (trade : b.tradeInstance.find? tradeInstanceId = some t)
    (escrow : b.itemStackEscrow.find? e.itemStackEscrowId = some e)
    (escrowTrade : e.tradeInstanceId = tradeInstanceId) : t.issuerId = e.ownerId := by
  obtain ⟨t₀, hfound, howner⟩ := h.escrowTrade e (Table.find?_some_mem escrow)
  rw [escrowTrade, trade] at hfound
  exact Option.some.inj hfound ▸ howner

theorem Book.retrade (h : Book b) (t' : TradeInstanceRow)
    (trade : b.tradeInstance.find? tradeInstanceId = some t)
    (tradeId : t'.tradeInstanceId = t.tradeInstanceId) (issuer : t'.issuerId = t.issuerId)
    (nothing : t.remainingQuantity = 0) (nothing' : t'.remainingQuantity = 0)
    (trades : b'.tradeInstance = b.tradeInstance.set t')
    (escrows : b'.itemStackEscrow = b.itemStackEscrow)
    (wallets : b'.walletEscrow = b.walletEscrow) : Book b' where
  walletEscrowClosed := by
    rw [wallets]
    exact h.walletEscrowClosed
  escrowTrade := by
    rw [trades, escrows]
    exact fun e he => h.escrowTrade_set trade tradeId issuer he
  escrowHolds := by
    rw [trades, escrows]
    intro e he hunreleased
    obtain ⟨hpos, hholds⟩ := h.escrowHolds e he hunreleased
    refine ⟨hpos, fun t₁ ht₁ => ?_⟩
    rw [find?_set_trade _ trade tradeId] at ht₁
    split_ifs at ht₁ with hk
    · have := hholds t (hk ▸ trade)
      omega
    · exact hholds t₁ ht₁
  escrowSole := by
    rw [escrows]
    exact h.escrowSole
  tradeHolds := by
    rw [trades, escrows]
    intro t₁ ht₁ hreleased
    rcases Table.mem_set.1 ht₁ with ⟨rfl, _⟩ | ⟨hmem, _⟩
    · exact nothing'
    · exact h.tradeHolds t₁ hmem hreleased
  tradeClosed := by
    rw [trades]
    intro t₁ ht₁ hstate
    rcases Table.mem_set.1 ht₁ with ⟨rfl, _⟩ | ⟨hmem, _⟩
    · exact nothing'
    · exact h.tradeClosed t₁ hmem hstate

theorem Book.draw (h : Book b) (t' : TradeInstanceRow) {e e' : ItemStackEscrowRow}
    (trade : b.tradeInstance.find? tradeInstanceId = some t)
    (escrow : b.itemStackEscrow.find? e.itemStackEscrowId = some e)
    (escrowTrade : e.tradeInstanceId = tradeInstanceId) (unreleased : e.isReleased = false)
    (drawn : Drawn e e' quantity) (tradeId : t'.tradeInstanceId = t.tradeInstanceId)
    (issuer : t'.issuerId = t.issuerId)
    (remaining : t'.remainingQuantity = t.remainingQuantity - quantity)
    (closed : t'.tradeState ≠ .open → t'.remainingQuantity = 0)
    (trades : b'.tradeInstance = b.tradeInstance.set t')
    (escrows : b'.itemStackEscrow = b.itemStackEscrow.set e')
    (wallets : ∀ x ∈ b'.walletEscrow.rows, x.isReleased = true ∧ x.iskAmount = 0) : Book b' := by
  have hmem := Table.find?_some_mem escrow
  have hholds := (h.escrowHolds e hmem unreleased).2 t (escrowTrade ▸ trade)
  have hkey : Keyed.key e' = Keyed.key e := drawn.itemStackEscrowId
  have hin : e' ∈ (b.itemStackEscrow.set e').rows :=
    Table.mem_set.2 (.inl ⟨rfl, e, by rw [hkey]; exact escrow⟩)
  -- an unreleased escrow other than the drawn one backs another trade
  have hother : ∀ f ∈ b.itemStackEscrow.rows, Keyed.key f ≠ Keyed.key e' →
      f.isReleased = false → tradeInstanceId ≠ f.tradeInstanceId := by
    intro f hf hne hunreleased hk
    obtain rfl := h.escrowSole e hmem f hf unreleased hunreleased (escrowTrade.trans hk)
    exact hne hkey.symm
  have hdrawn := drawn.drawn
  refine ⟨wallets, ?_, ?_, ?_, ?_, ?_⟩
  · rw [trades, escrows]
    intro f hf
    rcases Table.mem_set.1 hf with ⟨rfl, _⟩ | ⟨hf, _⟩
    · rw [drawn.tradeInstanceId, drawn.ownerId]
      exact h.escrowTrade_set trade tradeId issuer hmem
    · exact h.escrowTrade_set trade tradeId issuer hf
  · rw [trades, escrows]
    intro f hf hunreleased
    rcases Table.mem_set.1 hf with ⟨rfl, _⟩ | ⟨hf, hne⟩
    · have hnonzero : f.quantity ≠ 0 := by
        intro hzero
        rw [drawn.isReleased.2 hzero] at hunreleased
        cases hunreleased
      refine ⟨lt_of_le_of_ne f.quantity_nonneg (Ne.symm hnonzero), fun t₁ ht₁ => ?_⟩
      rw [find?_set_trade _ trade tradeId, if_pos (drawn.tradeInstanceId.trans escrowTrade).symm] at ht₁
      obtain rfl := Option.some.inj ht₁
      omega
    · obtain ⟨hpos, hf'⟩ := h.escrowHolds f hf hunreleased
      refine ⟨hpos, fun t₁ ht₁ => hf' t₁ ?_⟩
      rwa [find?_set_trade _ trade tradeId, if_neg (hother f hf hne hunreleased)] at ht₁
  · rw [escrows]
    intro f hf g hg hfu hgu htrade
    rcases Table.mem_set.1 hf with ⟨rfl, _⟩ | ⟨hf, hfne⟩
    · rcases Table.mem_set.1 hg with ⟨rfl, _⟩ | ⟨hg, hgne⟩
      · rfl
      · refine absurd ?_ (hother g hg hgne hgu)
        rw [← htrade, drawn.tradeInstanceId, escrowTrade]
    · rcases Table.mem_set.1 hg with ⟨hge, _⟩ | ⟨hg, _⟩
      · refine absurd ?_ (hother f hf hfne hfu)
        rw [htrade, hge, drawn.tradeInstanceId, escrowTrade]
      · exact h.escrowSole f hf g hg hfu hgu htrade
  · rw [trades, escrows]
    intro t₁ ht₁ hreleased
    have hid : t.tradeInstanceId = tradeInstanceId := Table.find?_some_key trade
    rcases Table.mem_set.1 ht₁ with ⟨rfl, _⟩ | ⟨ht₁, hne⟩
    · have hempty := drawn.isReleased.1 (hreleased e' hin (by
        rw [drawn.tradeInstanceId, escrowTrade, tradeId, hid]))
      omega
    · have hne' : t₁.tradeInstanceId ≠ tradeInstanceId := fun hk =>
        hne (hk.trans (tradeId.trans hid).symm)
      refine h.tradeHolds t₁ ht₁ fun f hf htrade => hreleased f (Table.mem_set.2 (.inr ⟨hf, ?_⟩)) htrade
      intro hk
      obtain rfl := Table.mem_unique hf hmem (hk.trans hkey)
      exact hne' (htrade.symm.trans escrowTrade)
  · rw [trades]
    intro t₁ ht₁ hstate
    rcases Table.mem_set.1 ht₁ with ⟨rfl, _⟩ | ⟨ht₁, _⟩
    · exact closed hstate
    · exact h.tradeClosed t₁ ht₁ hstate

theorem Book.escrowTrade_ne (h : Book b) {trades : Table TradeInstanceRow}
    (newTrade : b.tradeInstance.insert? t = some trades) {e : ItemStackEscrowRow}
    (he : e ∈ b.itemStackEscrow.rows) : t.tradeInstanceId ≠ e.tradeInstanceId := by
  intro hk
  obtain ⟨t₀, hfound, _⟩ := h.escrowTrade e he
  have habsent : b.tradeInstance.find? t.tradeInstanceId = none :=
    (Table.insert?_eq_some_iff.1 newTrade).1
  rw [hk, hfound] at habsent
  cases habsent

theorem Issued.book (h : Book b) (hi : Issued actor tradeInstanceId quantity b b') : Book b' := by
  obtain ⟨s, s', t, e, trades, escrows, entries, source, sourceOwner, debited, newTrade, tradeId,
    issuer, opened, total, whole, newEscrow, escrowTrade, escrowOwner, unreleased, held⟩ := hi
  have hfind : ∀ k, trades.find? k =
      if t.tradeInstanceId = k then some t else b.tradeInstance.find? k := Table.find?_insert newTrade
  have hold : ∀ f ∈ b.itemStackEscrow.rows,
      trades.find? f.tradeInstanceId = b.tradeInstance.find? f.tradeInstanceId :=
    fun f hf => (hfind _).trans (if_neg (h.escrowTrade_ne newTrade hf))
  have hnew : trades.find? e.tradeInstanceId = some t :=
    (hfind _).trans (if_pos (tradeId.trans escrowTrade.symm))
  refine ⟨h.walletEscrowClosed, ?_, ?_, ?_, ?_, ?_⟩
  · intro f hf
    rcases (Table.mem_insert newEscrow).1 hf with hf | rfl
    · rw [hold f hf]
      exact h.escrowTrade f hf
    · exact ⟨t, hnew, issuer.trans escrowOwner.symm⟩
  · intro f hf hunreleased
    rcases (Table.mem_insert newEscrow).1 hf with hf | rfl
    · rw [hold f hf]
      exact h.escrowHolds f hf hunreleased
    · have hpos := t.totalQuantity_pos
      refine ⟨by omega, fun t₁ ht₁ => ?_⟩
      rw [hnew] at ht₁
      obtain rfl := Option.some.inj ht₁
      omega
  · intro f hf g hg hfu hgu htrade
    rcases (Table.mem_insert newEscrow).1 hf with hf | rfl
    · rcases (Table.mem_insert newEscrow).1 hg with hg | rfl
      · exact h.escrowSole f hf g hg hfu hgu htrade
      · exact absurd (tradeId.trans (escrowTrade.symm.trans htrade.symm)) (h.escrowTrade_ne newTrade hf)
    · rcases (Table.mem_insert newEscrow).1 hg with hg | rfl
      · exact absurd (tradeId.trans (escrowTrade.symm.trans htrade)) (h.escrowTrade_ne newTrade hg)
      · rfl
  · intro t₁ ht₁ hreleased
    rcases (Table.mem_insert newTrade).1 ht₁ with ht₁ | rfl
    · exact h.tradeHolds t₁ ht₁ fun f hf => hreleased f ((Table.mem_insert newEscrow).2 (.inl hf))
    · have := hreleased e ((Table.mem_insert newEscrow).2 (.inr rfl)) (escrowTrade.trans tradeId.symm)
      rw [unreleased] at this
      cases this
  · intro t₁ ht₁ hstate
    rcases (Table.mem_insert newTrade).1 ht₁ with ht₁ | rfl
    · exact h.tradeClosed t₁ ht₁ hstate
    · exact absurd opened hstate

theorem Accepted.book (h : Book b) (ha : Accepted actor tradeInstanceId quantity b t b') :
    Book b' := by
  obtain ⟨state, e, e', w, w', v, v', s, s', rows, x, walletEscrows, walletEntries, stackEntries,
    changes, trade, opened, buyer, positive, range, completion, escrow, escrowTrade, unreleased,
    drawn, payer, payerOwner, paid, seller, sellerOwner, credited, added, destination,
    destinationOwner, delivered, newWalletEscrow, walletEscrowOwner, walletEscrowTrade, closed,
    emptied, changesTrade⟩ := ha
  refine h.draw (drawnTrade t quantity state range) trade escrow escrowTrade unreleased drawn rfl rfl
    rfl ?_ rfl rfl ?_
  · intro hstate
    rcases completion with hopen | ⟨_, hall⟩
    · exact absurd hopen hstate
    · exact sub_eq_zero.2 hall
  · intro y hy
    rcases (Table.mem_insert newWalletEscrow).1 hy with hy | rfl
    · exact h.walletEscrowClosed y hy
    · exact ⟨closed, emptied⟩

theorem Cancelled.book (h : Book b) (hc : Cancelled actor tradeInstanceId b t b') : Book b' := by
  cases hc with
  | sold changes trade issuer opened nothing changesTrade =>
    exact h.retrade (closedTrade t) trade rfl rfl nothing rfl rfl rfl rfl
  | returned e e' s s' entries changes trade issuer opened escrow escrowTrade unreleased held drawn
      destination destinationOwner restocked changesTrade =>
    exact h.draw (closedTrade t) trade escrow escrowTrade unreleased drawn rfl rfl (sub_self _).symm
      (fun _ => rfl) rfl rfl h.walletEscrowClosed

end Invariant

section Untouched

/-- The wallets, stacks, escrows and trades of a capsuleer are the same rows in both. -/
structure Untouched (capsuleer : Int) (b b' : Business) : Prop where
  wallet : ∀ w : WalletRow, w.capsuleerId = capsuleer →
    (w ∈ b'.wallet.rows ↔ w ∈ b.wallet.rows)
  itemStack : ∀ s : ItemStackRow, s.ownerId = capsuleer →
    (s ∈ b'.itemStack.rows ↔ s ∈ b.itemStack.rows)
  walletEscrow : ∀ x : WalletEscrowRow, x.ownerId = capsuleer →
    (x ∈ b'.walletEscrow.rows ↔ x ∈ b.walletEscrow.rows)
  itemStackEscrow : ∀ e : ItemStackEscrowRow, e.ownerId = capsuleer →
    (e ∈ b'.itemStackEscrow.rows ↔ e ∈ b.itemStackEscrow.rows)
  tradeInstance : ∀ t : TradeInstanceRow, t.issuerId = capsuleer →
    (t ∈ b'.tradeInstance.rows ↔ t ∈ b.tradeInstance.rows)

variable {R K O : Type} [Keyed R K] [DecidableEq K] {owner : R → O} {c : O}

theorem mem_set_of_owner {table : Table R} {r q : R} (found : table.find? (Keyed.key q) = some q)
    (key : Keyed.key r = Keyed.key q) (same : owner r = owner q) (other : owner q ≠ c) (x : R)
    (hx : owner x = c) : x ∈ (table.set r).rows ↔ x ∈ table.rows := by
  refine Table.mem_set_of_ne (by rw [key]; exact found) ?_ ?_
  · rintro rfl
    exact other (same ▸ hx)
  · rintro rfl
    exact other hx

theorem mem_insert_of_owner {table rows : Table R} {r : R} (inserted : table.insert? r = some rows)
    (other : owner r ≠ c) (x : R) (hx : owner x = c) : x ∈ rows.rows ↔ x ∈ table.rows := by
  rw [Table.mem_insert inserted, or_iff_left]
  rintro rfl
  exact other hx

theorem StackAdded.mem_of_owner {actor capsuleer : Int} {table rows : Table ItemStackRow}
    (h : StackAdded actor table rows) (other : actor ≠ capsuleer) (s : ItemStackRow)
    (hs : s.ownerId = capsuleer) : s ∈ rows.rows ↔ s ∈ table.rows := by
  cases h with
  | same => rfl
  | added s₀ _ howner _ inserted => exact mem_insert_of_owner inserted (howner ▸ other) s hs

variable {actor capsuleer : Int} {tradeInstanceId : Uuid} {quantity : Int} {b b' : Business}
  {t : TradeInstanceRow}

theorem Issued.untouched (hi : Issued actor tradeInstanceId quantity b b')
    (other : actor ≠ capsuleer) : Untouched capsuleer b b' := by
  obtain ⟨s, s', t, e, trades, escrows, entries, source, sourceOwner, debited, newTrade, tradeId,
    issuer, opened, total, whole, newEscrow, escrowTrade, escrowOwner, unreleased, held⟩ := hi
  exact ⟨fun _ _ => Iff.rfl,
    mem_set_of_owner source debited.itemStackId debited.ownerId (sourceOwner ▸ other),
    fun _ _ => Iff.rfl, mem_insert_of_owner newEscrow (escrowOwner ▸ other),
    mem_insert_of_owner newTrade (issuer ▸ other)⟩

theorem Accepted.untouched (h : Book b) (ha : Accepted actor tradeInstanceId quantity b t b')
    (other : actor ≠ capsuleer) (other' : t.issuerId ≠ capsuleer) : Untouched capsuleer b b' := by
  obtain ⟨state, e, e', w, w', v, v', s, s', rows, x, walletEscrows, walletEntries, stackEntries,
    changes, trade, opened, buyer, positive, range, completion, escrow, escrowTrade, unreleased,
    drawn, payer, payerOwner, paid, seller, sellerOwner, credited, added, destination,
    destinationOwner, delivered, newWalletEscrow, walletEscrowOwner, walletEscrowTrade, closed,
    emptied, changesTrade⟩ := ha
  have hescrow : e.ownerId ≠ capsuleer := h.escrowOwner trade escrow escrowTrade ▸ other'
  have hdistinct : w'.walletId ≠ v.walletId := by
    intro hk
    rw [paid.walletId] at hk
    have hw : w = v := by
      rw [hk, seller] at payer
      exact (Option.some.inj payer).symm
    exact buyer (payerOwner.symm.trans (hw ▸ sellerOwner))
  have hseller : (b.wallet.set w').find? (Keyed.key v) = some v :=
    (Table.find?_set_ne hdistinct).trans seller
  have hfound := Table.find?_of_mem (Table.find?_some_mem trade)
  refine ⟨fun y hy => ?_, fun y hy => ?_,
    mem_insert_of_owner newWalletEscrow (walletEscrowOwner ▸ other),
    mem_set_of_owner escrow drawn.itemStackEscrowId drawn.ownerId hescrow,
    mem_set_of_owner hfound rfl rfl other'⟩
  · exact (mem_set_of_owner hseller credited.walletId credited.capsuleerId (sellerOwner ▸ other')
      y hy).trans (mem_set_of_owner payer paid.walletId paid.capsuleerId (payerOwner ▸ other) y hy)
  · exact (mem_set_of_owner destination delivered.itemStackId delivered.ownerId
      (destinationOwner ▸ other) y hy).trans (added.mem_of_owner other y hy)

theorem Cancelled.untouched (h : Book b) (hc : Cancelled actor tradeInstanceId b t b')
    (other : actor ≠ capsuleer) : Untouched capsuleer b b' := by
  cases hc with
  | sold changes trade issuer opened nothing changesTrade =>
    have hfound := Table.find?_of_mem (Table.find?_some_mem trade)
    exact ⟨fun _ _ => Iff.rfl, fun _ _ => Iff.rfl, fun _ _ => Iff.rfl, fun _ _ => Iff.rfl,
      mem_set_of_owner hfound rfl rfl (issuer ▸ other)⟩
  | returned e e' s s' entries changes trade issuer opened escrow escrowTrade unreleased held drawn
      destination destinationOwner restocked changesTrade =>
    have hfound := Table.find?_of_mem (Table.find?_some_mem trade)
    have hescrow : e.ownerId ≠ capsuleer :=
      h.escrowOwner trade escrow escrowTrade ▸ issuer ▸ other
    exact ⟨fun _ _ => Iff.rfl,
      mem_set_of_owner destination restocked.itemStackId restocked.ownerId
        (destinationOwner ▸ other),
      fun _ _ => Iff.rfl, mem_set_of_owner escrow drawn.itemStackEscrowId drawn.ownerId hescrow,
      mem_set_of_owner hfound rfl rfl (issuer ▸ other)⟩

end Untouched

end EveTrade.TradeBook
