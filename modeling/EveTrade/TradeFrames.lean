import EveTrade.SettlementAuthorizationSpecs
import EveTrade.TradeBook

set_option autoImplicit false

/-!
# What a committed plan changes
-/
namespace EveTrade.TradeFrames

open KeyedTable TransactionMonad UuidText SettlementTypes SettlementCommands SettlementSchema
  SettlementStatements SettlementOperations SettlementEffects SettlementPlan SettlementExecutor
  SettlementOutcome SettlementAuthorizationSpecs TradeBook

section Runs

variable {ext : External} {env : ExecEnv} {i : ℕ} {b b' : Business} {checks : List DeferredCheck}
  {os : List OperationOutput}

theorem StepsRun.of_append {cs ds : List SettlementCommand}
    (h : StepsRun ext env i (cs ++ ds) b b' checks os) :
    ∃ b₁ c₁ c₂ o₁ o₂, StepsRun ext env i cs b b₁ c₁ o₁ ∧
      StepsRun ext env (i + cs.length) ds b₁ b' c₂ o₂ ∧ checks = c₁ ++ c₂ := by
  induction cs generalizing i b checks os with
  | nil => exact ⟨b, [], checks, [], os, .nil, h, rfl⟩
  | cons c cs ih =>
    cases h with
    | @cons _ _ _ _ _ _ first later o rest effect run =>
      obtain ⟨b₁, c₁, c₂, o₁, o₂, h₁, h₂, rfl⟩ := ih run
      refine ⟨b₁, first ++ c₁, c₂, o :: o₁, o₂, .cons effect h₁, ?_, (List.append_assoc _ _ _).symm⟩
      rw [List.length_cons, Nat.add_comm cs.length 1, ← Nat.add_assoc]
      exact h₂

theorem StepsRun.of_singleton {c : SettlementCommand}
    (h : StepsRun ext env i [c] b b' checks os) : ∃ ctx, Effect ext ctx c b b' checks := by
  cases h with
  | cons effect run =>
    cases run
    rw [List.append_nil]
    exact ⟨_, effect⟩

theorem StepsRun.of_optional {α : Type} {op : α → SettlementCommand} {o : Option α}
    (h : StepsRun ext env i (o.toList.map op) b b' checks os) :
    (o = none ∧ b' = b ∧ checks = []) ∨ ∃ a ctx, o = some a ∧ Effect ext ctx (op a) b b' checks := by
  cases o with
  | none =>
    cases h
    exact .inl ⟨rfl, rfl, rfl⟩
  | some a =>
    obtain ⟨ctx, effect⟩ := StepsRun.of_singleton h
    exact .inr ⟨a, ctx, rfl, effect⟩

end Runs

section Rows

variable (ext : External) (ctx : StepContext)

theorem postedWallet_repriced (w : WalletRow) (delta : Int) (h : 0 ≤ w.iskAmount + delta) :
    Repriced w (postedWallet ext w (w.iskAmount + delta) h) delta :=
  ⟨rfl, rfl, rfl, rfl⟩

theorem postedStack_restocked {s : ItemStackRow} (active : s.stackState = .active) (delta : Int)
    (h : 0 ≤ s.quantity + delta) :
    Restocked s (postedStack ext s (s.quantity + delta) .active h) delta :=
  ⟨rfl, rfl, rfl, rfl, active.symm, rfl⟩

theorem drawnItemEscrow_drawn {e : ItemStackEscrowRow} (unreleased : e.isReleased = false)
    (quantity : Int) (h : 0 ≤ e.quantity - quantity) :
    Drawn e (drawnItemEscrow ctx e (e.quantity - quantity) h) quantity := by
  unfold drawnItemEscrow
  by_cases hzero : e.quantity - quantity = 0
  · rw [if_pos hzero]
    exact ⟨rfl, rfl, rfl, hzero.symm, by simp [ItemStackEscrowRow.released]⟩
  · rw [if_neg hzero]
    refine ⟨rfl, rfl, rfl, rfl, ?_⟩
    simp [ItemStackEscrowRow.holding, unreleased, hzero]

/-- A release moves a quantity from the escrow of a trade to a stack, and off what remains of it. -/
inductive ReleaseFrame (rule : EscrowOwnerRule) (r : TransferQuantityFromItemStackEscrowToItemStack)
    (b : Business) : Business → Prop
  | released (e e' : ItemStackEscrowRow) (s s' : ItemStackRow) (t : TradeInstanceRow)
      (l : ItemStackLedgerRow)
      (range : 0 ≤ t.remainingQuantity - r.quantity ∧
        t.remainingQuantity - r.quantity ≤ t.totalQuantity)
      (positive : 0 < r.quantity) (escrow : b.itemStackEscrow.find? r.itemStackEscrowId = some e)
      (unreleased : e.isReleased = false) (drawn : Drawn e e' r.quantity)
      (destination : b.itemStack.find? r.destinationItemStackId = some s)
      (restocked : Restocked s s' r.quantity) (ownerRule : OwnerRuleHolds rule e.ownerId s.ownerId)
      (trade : b.tradeInstance.find? e.tradeInstanceId = some t)
      (held : e.quantity = t.remainingQuantity) :
      ReleaseFrame rule r b
        { b with
          itemStack := b.itemStack.set s'
          itemStackLedger := b.itemStackLedger ++ [l]
          itemStackEscrow := b.itemStackEscrow.set e'
          tradeInstance := b.tradeInstance.set (drawnTrade t r.quantity t.tradeState range) }

theorem releaseFrame_of_release {ext : External} {ctx : StepContext} {rule : EscrowOwnerRule}
    {r : TransferQuantityFromItemStackEscrowToItemStack} {b b' : Business}
    {checks : List DeferredCheck} (h : ItemRelease ext ctx rule r b b' checks) :
    ReleaseFrame rule r b b' ∧ ∀ e, b.itemStackEscrow.find? r.itemStackEscrowId = some e →
      .tradeRemainingQuantity e.tradeInstanceId ∈ checks := by
  obtain ⟨e, s, t, b₁, c₁, positive, escrow, unreleased, h, destinationId, active, itemType,
    station, ownerRule, trade, paid, remaining, range, posting⟩ := h
  obtain ⟨found, valid, nonneg, l, entry⟩ := posting
  have hrange : 0 ≤ t.remainingQuantity - r.quantity ∧
      t.remainingQuantity - r.quantity ≤ t.totalQuantity := remaining ▸ range
  have hrow : t.withRemaining (e.quantity - r.quantity) range =
      drawnTrade t r.quantity t.tradeState hrange := by
    simp only [drawnTrade, TradeInstanceRow.withRemaining, TradeInstanceRow.withState, remaining]
  constructor
  · rw [hrow]
    exact .released e _ s _ t l hrange positive escrow unreleased
      (drawnItemEscrow_drawn ctx unreleased r.quantity h) (destinationId ▸ found)
      (postedStack_restocked ext active _ nonneg) ownerRule trade remaining.symm
  · intro e₁ he₁
    obtain rfl := Option.some.inj (escrow.symm.trans he₁)
    simp

end Rows

section Issue

variable {ext : External} {env : ExecEnv} {i : ℕ} {b b' : Business} {checks : List DeferredCheck}
  {os : List OperationOutput} {actor : Int}

theorem issued_of_run {p : IssuePlan} (hb : Book b) (hg : IssueAuthorized actor b p)
    (hrun : StepsRun ext env i p.operations b b' checks os) :
    Issued actor p.escrow.tradeInstanceId p.escrow.quantity b b' := by
  cases hrun with
  | cons creation run =>
    obtain ⟨ctx, deposit⟩ := StepsRun.of_singleton run
    obtain ⟨ht, hp, future, trades, inserted, issuer, itemType, station⟩ :
      TradeCreation _ p.create b _ _ := creation
    obtain ⟨t, source, b₁, b₂, c₁, c₂, positive, trade, opened, live, sourceId, active, owner,
      enough, posting, funding⟩ : ItemDeposit _ _ p.escrow _ _ _ := deposit
    rw [hg.identity, Option.getD_some] at inserted
    -- the deposit finds the trade that was just created
    have hnew := Table.find?_insert_self inserted
    obtain rfl := Option.some.inj (trade.symm.trans hnew)
    have howner : source.ownerId = actor := owner.trans hg.issuer
    obtain ⟨found, valid, nonneg, l, entry⟩ := posting
    cases funding with
    | toppedUp e hfound unreleased htrade _ _ _ _ =>
      have hne := hb.escrowTrade_ne inserted (Table.find?_some_mem hfound)
      exact absurd htrade.symm hne
    | opened absent h escrows newEscrow sole =>
      exact .issued source _ _ _ trades escrows [l] found howner
        (postedStack_restocked ext active _ nonneg) inserted rfl hg.issuer rfl hg.quantity hg.quantity
        newEscrow rfl howner rfl rfl

end Issue

section Accept

variable {ext : External} {env : ExecEnv} {i : ℕ} {b b' : Business} {checks : List DeferredCheck}
  {os : List OperationOutput} {actor : Int} {p : AcceptPlan} {t : TradeInstanceRow}
  {e : ItemStackEscrowRow}

/-- The destination stack of an acceptance exists and belongs to the actor once the plan has created
it, if it does. -/
theorem destination_of_run (hg : AcceptAuthorized actor b p t e)
    (hrun : StepsRun ext env i (p.destination.toList.map .createNewEmptyItemStack) b b' checks os) :
    ∃ rows entries s, StackAdded actor b.itemStack rows ∧
      rows.find? p.delivery.destinationItemStackId = some s ∧ s.ownerId = actor ∧
      b' = { b with itemStack := rows, itemStackLedger := b.itemStackLedger ++ entries } := by
  rcases StepsRun.of_optional hrun with ⟨hnone, rfl, _⟩ | ⟨d, ctx, hd, effect⟩
  · rcases hg.destination with ⟨d, hd, _⟩ | ⟨s, hs, howner⟩
    · rw [hnone] at hd
      cases hd
    · exact ⟨b'.itemStack, [], s, .same, hs, howner, by rw [List.append_nil]⟩
  · obtain ⟨id, hid, rows, inserted, _, l, entry⟩ : StackCreation _ _ d b b' _ := effect
    have hactor := hg.destinationOwner d hd
    have hadded : StackAdded actor b.itemStack rows := .added _ rows hactor rfl inserted
    have hfind := Table.find?_insert inserted p.delivery.destinationItemStackId
    by_cases hkey : id = p.delivery.destinationItemStackId
    · exact ⟨rows, [l], _, hadded, hfind.trans (if_pos hkey), hactor, rfl⟩
    · rcases hg.destination with ⟨d', hd', hsame⟩ | ⟨s, hs, howner⟩
      · obtain rfl := Option.some.inj (hd.symm.trans hd')
        rw [hsame] at hid
        exact absurd hid hkey
      · exact ⟨rows, [l], s, hadded, hfind.trans ((if_neg hkey).trans hs), howner, rfl⟩

theorem deposit_opens {ctx : StepContext} {d : TransferIskAmountFromWalletToWalletEscrow}
    (h : IskDeposit ext ctx d b b' checks)
    (closed : ∀ x ∈ b.walletEscrow.rows, x.isReleased = true ∧ x.iskAmount = 0) :
    ∃ w w' x escrows entry, b.wallet.find? d.sourceWalletId = some w ∧
      Repriced w w' (-d.iskAmount) ∧ b.walletEscrow.insert? x = some escrows ∧
      x.walletEscrowId = d.walletEscrowId.getD ctx.newId ∧
      x.tradeInstanceId = d.tradeInstanceId ∧ x.ownerId = w.capsuleerId ∧
      x.iskAmount = d.iskAmount ∧
      b' = { b with
        wallet := b.wallet.set w', walletLedger := b.walletLedger ++ [entry]
        walletEscrow := escrows } := by
  obtain ⟨w, t, b₁, b₂, c₂, positive, sourceId, active, trade, opened, live, divides, buys, enough,
    posting, funding⟩ := h
  obtain ⟨found, valid, nonneg⟩ := posting
  cases funding with
  | toppedUp e hfound unreleased _ _ _ =>
    have hreleased := (closed e (Table.find?_some_mem hfound)).1
    rw [unreleased] at hreleased
    cases hreleased
  | opened absent h escrows inserted =>
    exact ⟨w, _, _, escrows, _, sourceId ▸ found, postedWallet_repriced ext w _ nonneg, inserted, rfl,
      rfl, rfl, rfl, rfl⟩

theorem release_closes {ctx : StepContext} {rule : EscrowOwnerRule}
    {r : TransferIskAmountFromWalletEscrowToWallet} {x : WalletEscrowRow}
    (h : IskRelease ext ctx rule r b b' checks)
    (found : b.walletEscrow.find? r.walletEscrowId = some x) (whole : x.iskAmount = r.iskAmount) :
    ∃ v v' x' entry, b.wallet.find? r.destinationWalletId = some v ∧
      Repriced v v' r.iskAmount ∧ x'.walletEscrowId = x.walletEscrowId ∧
      x'.tradeInstanceId = x.tradeInstanceId ∧ x'.ownerId = x.ownerId ∧ x'.isReleased = true ∧
      x'.iskAmount = 0 ∧
      b' = { b with
        wallet := b.wallet.set v', walletLedger := b.walletLedger ++ [entry]
        walletEscrow := b.walletEscrow.set x' } := by
  obtain ⟨x₁, v, b₁, positive, escrow, unreleased, h, destinationId, active, ownerRule, live,
    posting⟩ := h
  obtain rfl := Option.some.inj (escrow.symm.trans found)
  obtain ⟨hfound, valid, nonneg⟩ := posting
  have hclosed : drawnWalletEscrow ctx x₁ (x₁.iskAmount - r.iskAmount) h =
      x₁.released ctx.settlementStepId := if_pos (sub_eq_zero.2 whole)
  rw [hclosed]
  exact ⟨v, _, x₁.released ctx.settlementStepId, _, destinationId ▸ hfound,
    postedWallet_repriced ext v _ nonneg, rfl, rfl, rfl, rfl, rfl, rfl⟩

/-- The debit, the delivery and the credit of an acceptance. -/
theorem exchange_of_run (hb : Book b) (hg : AcceptAuthorized actor b p t e)
    {rows : Table ItemStackRow} {entries : List ItemStackLedgerRow} {s : ItemStackRow}
    (added : StackAdded actor b.itemStack rows)
    (destination : rows.find? p.delivery.destinationItemStackId = some s)
    (owner : s.ownerId = actor)
    (hrun : StepsRun ext env i [.transferIskAmountFromWalletToWalletEscrow p.debit,
      .transferQuantityFromItemStackEscrowToItemStackWithNewOwner p.delivery,
      .transferIskAmountFromWalletEscrowToWalletWithNewOwner p.credit]
      { b with itemStack := rows, itemStackLedger := b.itemStackLedger ++ entries } b' checks os) :
    Accepted actor p.debit.tradeInstanceId p.delivery.quantity b t b' ∧
      LeftIn b' p.debit.tradeInstanceId .open := by
  cases hrun with
  | cons debit run =>
  cases run with
  | cons delivery run =>
  obtain ⟨ctx, credit⟩ := StepsRun.of_singleton run
  change IskDeposit _ _ p.debit _ _ _ at debit
  obtain ⟨w₁, w', x, escrows, entry, hw₁, paid, opened, escrowId, escrowTrade, escrowOwner,
    escrowAmount, rfl⟩ := deposit_opens debit hb.walletEscrowClosed
  obtain ⟨w, hw, payer⟩ := hg.payer
  obtain rfl := Option.some.inj (hw.symm.trans hw₁)
  change ItemRelease _ _ _ p.delivery _ _ _ at delivery
  obtain ⟨⟨e₁, e', s₁, s', t₁, l, range, positive, hescrow, unreleased, drawn, hs₁, restocked,
    ownerRule, trade, held⟩, _⟩ := releaseFrame_of_release delivery
  obtain rfl := Option.some.inj (hg.escrow.symm.trans hescrow)
  obtain rfl := Option.some.inj (destination.symm.trans hs₁)
  rw [hg.escrowTrade] at trade
  obtain rfl := Option.some.inj (hg.trade.symm.trans trade)
  -- the owner rule of the delivery keeps the issuer from buying from themselves
  have hbuyer : actor ≠ t.issuerId := by
    intro hself
    have := ownerRule.2 (by rw [owner, hg.escrowOwner, hself])
    cases this
  have hescrowId : x.walletEscrowId = p.credit.walletEscrowId := by
    rw [escrowId, hg.escrowIdentity]
    rfl
  change IskRelease _ _ _ p.credit _ _ _ at credit
  obtain ⟨v, v', x', entry', hv, credited, hx'id, hx'trade, hx'owner, hx'released, hx'amount,
    rfl⟩ := release_closes credit (hescrowId ▸ Table.find?_insert_self opened)
      (escrowAmount.trans hg.balanced)
  obtain ⟨v₁, hv₁, seller⟩ := hg.proceeds
  have hdistinct : Keyed.key w' ≠ p.credit.destinationWalletId := by
    intro hk
    have hkey : Keyed.key w = p.credit.destinationWalletId := paid.walletId.symm.trans hk
    have hsame : w = v₁ := Table.mem_unique (Table.find?_some_mem hw) (Table.find?_some_mem hv₁)
      (hkey.trans (Table.find?_some_key hv₁).symm)
    exact hbuyer (payer.symm.trans (hsame ▸ seller))
  obtain rfl := Option.some.inj ((hv.symm.trans (Table.find?_set_ne hdistinct)).trans hv₁)
  have hamount : p.debit.iskAmount = p.delivery.quantity * t.unitPriceIsk := hg.price
  constructor
  · rw [hg.opened]
    have hframe := Accepted.accepted .open e e' w w' v v' s s' rows x' _ [entry, entry']
      (entries ++ [l]) [] hg.trade hg.opened hbuyer positive range (.inl rfl)
      (Table.find?_of_mem (Table.find?_some_mem hg.escrow)) hg.escrowTrade unreleased drawn
      (Table.find?_of_mem (Table.find?_some_mem hw)) payer (hamount ▸ paid)
      (Table.find?_of_mem (Table.find?_some_mem hv₁)) seller (hamount ▸ hg.balanced ▸ credited) added
      (Table.find?_of_mem (Table.find?_some_mem destination)) owner restocked
      (Table.insert_set opened hx'id) (hx'owner.trans (escrowOwner.trans payer))
      (hx'trade.trans escrowTrade) hx'released hx'amount (fun c hc => absurd hc List.not_mem_nil)
    simpa only [List.append_assoc, List.append_nil, List.cons_append, List.nil_append] using hframe
  · rw [hg.opened]
    exact ⟨_, (find?_set_trade (drawnTrade t p.delivery.quantity .open range) hg.trade rfl
      p.debit.tradeInstanceId).trans (if_pos rfl), rfl⟩

theorem accepted_complete {ctx : StepContext} {b₁ : Business} {id : Uuid} {quantity : Int}
    {state : ModifyTradeInstanceState} (hb₁ : Book b₁) (ha : Accepted actor id quantity b t b₁)
    (tradeId : state.tradeInstanceId = id) (completes : state.toTradeState = "COMPLETED")
    (h : StateChange ctx state b₁ b' checks) :
    Accepted actor id quantity b t b' ∧ LeftIn b' id .completed := by
  obtain ⟨t₁, found, _, target, htarget, closes, kind, _, finished⟩ := h
  rw [completes] at htarget
  obtain rfl : TradeState.completed = target := Option.some.inj htarget
  have hactive := hb₁.active found
  obtain ⟨before, e, e', w, w', v, v', s, s', rows, x, walletEscrows, walletEntries, stackEntries,
    changes, trade, opened, buyer, positive, range, completion, escrow, escrowTrade, unreleased,
    drawn, payer, payerOwner, paid, seller, sellerOwner, credited, added, destination,
    destinationOwner, delivered, newWalletEscrow, walletEscrowOwner, walletEscrowTrade, closed,
    emptied, changesTrade⟩ := ha
  rw [tradeId, find?_set_trade (drawnTrade t quantity before range) trade rfl, if_pos rfl] at found
  obtain rfl := Option.some.inj found
  have hset : (b.tradeInstance.set (drawnTrade t quantity before range)).set
      ((drawnTrade t quantity before range).withState .completed) =
      b.tradeInstance.set (drawnTrade t quantity .completed range) := Table.set_set rfl
  -- the step has found the trade's escrows empty, so nothing remains of it
  have hdrawn : (drawnTrade t quantity before range).remainingQuantity =
      t.remainingQuantity - quantity := rfl
  have hempty : t.remainingQuantity = quantity := by
    have hnone := (finished rfl).2.1
    rw [hactive, hdrawn] at hnone
    have hrange := range.1
    omega
  rw [hset]
  have hfound := find?_set_trade (drawnTrade t quantity .completed range) trade rfl id
  have hframe := Accepted.accepted .completed e e' w w' v v' s s' rows x walletEscrows walletEntries
    stackEntries (changes ++ [⟨ctx.settlementStepId, state.tradeInstanceId, .open, .completed, kind,
      state.changedByService⟩]) trade opened buyer positive range
    (.inr ⟨rfl, hempty⟩) escrow escrowTrade unreleased drawn payer payerOwner paid
    seller sellerOwner credited added destination destinationOwner delivered newWalletEscrow
    walletEscrowOwner walletEscrowTrade closed emptied
    (fun c hc => (List.mem_append.1 hc).elim (changesTrade c) fun hc =>
      List.mem_singleton.1 hc ▸ tradeId)
  rw [← List.append_assoc] at hframe
  exact ⟨hframe, _, hfound.trans (if_pos rfl), rfl⟩

/-- The state in which an acceptance leaves its trade. -/
def leavesTrade (p : AcceptPlan) : TradeState :=
  if p.completion.isSome then .completed else .open

theorem accepted_of_run (hb : Book b) (hg : AcceptAuthorized actor b p t e)
    (hrun : StepsRun ext env i p.operations b b' checks os) :
    Accepted actor p.debit.tradeInstanceId p.delivery.quantity b t b' ∧
      LeftIn b' p.debit.tradeInstanceId (leavesTrade p) := by
  obtain ⟨b₁, c₁, c₂, _, _, creation, later, rfl⟩ := StepsRun.of_append hrun
  obtain ⟨rows, entries, s, added, destination, owner, rfl⟩ := destination_of_run hg creation
  obtain ⟨b₂, c₃, c₄, _, _, exchange, completion, rfl⟩ := StepsRun.of_append later
  obtain ⟨accepted, left⟩ := exchange_of_run hb hg added destination owner exchange
  unfold leavesTrade
  rcases StepsRun.of_optional completion with ⟨hnone, rfl, _⟩ | ⟨state, ctx, hstate, change⟩
  · rw [hnone]
    exact ⟨accepted, left⟩
  · rw [hstate]
    obtain ⟨hid, hto, _⟩ := hg.completion state hstate
    exact accepted_complete (accepted.book hb) accepted hid hto change

end Accept

section Cancel

variable {ext : External} {env : ExecEnv} {i : ℕ} {b b' : Business} {checks : List DeferredCheck}
  {os : List OperationOutput} {actor : Int} {p : CancelPlan} {t : TradeInstanceRow}

theorem nothing_held (hb : Book b) (hg : CancelAuthorized actor b p t)
    (hnone : p.itemReturn = none) : t.remainingQuantity = 0 := by
  have hcount := hg.itemsReturned
  rw [hnone] at hcount
  refine hb.tradeHolds t (Table.find?_some_mem hg.trade) fun e he htrade => ?_
  have hid : t.tradeInstanceId = p.state.tradeInstanceId := Table.find?_some_key hg.trade
  have hnot := List.countP_eq_zero.1 hcount.symm e he
  simpa [htrade, hid] using hnot

theorem no_refund (hb : Book b) (hg : CancelAuthorized actor b p t) : p.refund = none := by
  cases hrefund : p.refund with
  | none => rfl
  | some r =>
    obtain ⟨x, hx, hunreleased⟩ := hg.refund r hrefund
    have hreleased := (hb.walletEscrowClosed x (Table.find?_some_mem hx)).1
    rw [hunreleased] at hreleased
    cases hreleased

/-- What a plan that returns items does, whether or not it returns all of them. -/
theorem return_of_run (hb : Book b) (hg : CancelAuthorized actor b p t)
    {r : TransferQuantityFromItemStackEscrowToItemStack} (hr : p.itemReturn = some r)
    (hrun : StepsRun ext env i p.operations b b' checks os) :
    ∃ e e' s s' l change, ∃ range : 0 ≤ t.remainingQuantity - r.quantity ∧
        t.remainingQuantity - r.quantity ≤ t.totalQuantity,
      b.itemStackEscrow.find? r.itemStackEscrowId = some e ∧
      e.tradeInstanceId = p.state.tradeInstanceId ∧ e.isReleased = false ∧
      e.quantity = t.remainingQuantity ∧ Drawn e e' r.quantity ∧
      b.itemStack.find? r.destinationItemStackId = some s ∧ s.ownerId = actor ∧
      Restocked s s' r.quantity ∧ change.tradeInstanceId = p.state.tradeInstanceId ∧
      b' = { b with
        itemStack := b.itemStack.set s'
        itemStackLedger := b.itemStackLedger ++ [l]
        tradeInstance := b.tradeInstance.set (drawnTrade t r.quantity .cancelled range)
        tradeStateChange := b.tradeStateChange ++ [change]
        itemStackEscrow := b.itemStackEscrow.set e' } ∧
      .tradeRemainingQuantity p.state.tradeInstanceId ∈ checks := by
  obtain ⟨b₁, c₁, c₂, _, _, itemReturn, later, rfl⟩ := StepsRun.of_append hrun
  obtain ⟨b₂, c₃, c₄, _, _, refund, closing, rfl⟩ := StepsRun.of_append later
  rw [no_refund hb hg] at refund
  cases refund
  obtain ⟨ctx, change⟩ := StepsRun.of_singleton closing
  obtain ⟨t₁, found, opened, target, htarget, closes, kind, kindText, _⟩ :
    StateChange _ p.state _ _ _ := change
  rw [hg.cancels] at htarget
  obtain rfl : TradeState.cancelled = target := Option.some.inj htarget
  rw [hr] at itemReturn
  obtain ⟨ctx', release⟩ := StepsRun.of_singleton itemReturn
  obtain ⟨e₁, hescrow₁, htrade, howner, hunreleased⟩ := (hg.itemReturn r hr).escrow
  change ItemRelease _ _ _ r _ _ _ at release
  obtain ⟨⟨e, e', s, s', t₂, l, range, positive, hescrow, unreleased, drawn, hs, restocked,
    ownerRule, trade, held⟩, checked⟩ := releaseFrame_of_release release
  obtain rfl := Option.some.inj (hescrow.symm.trans hescrow₁)
  rw [htrade] at trade
  obtain rfl := Option.some.inj (hg.trade.symm.trans trade)
  rw [find?_set_trade (drawnTrade t r.quantity t.tradeState range) trade rfl, if_pos rfl] at found
  obtain rfl := Option.some.inj found
  have hset : (b.tradeInstance.set (drawnTrade t r.quantity t.tradeState range)).set
      ((drawnTrade t r.quantity t.tradeState range).withState .cancelled) =
      b.tradeInstance.set (drawnTrade t r.quantity .cancelled range) := Table.set_set rfl
  rw [hset]
  obtain ⟨s₁, hs₁, hstack⟩ := (hg.itemReturn r hr).destination
  obtain rfl := Option.some.inj (hs.symm.trans hs₁)
  refine ⟨e, e', s, s', l, _, range, hescrow, htrade, unreleased, held, drawn, hs, hstack,
    restocked, rfl, rfl, ?_⟩
  have := checked e hescrow
  rw [htrade] at this
  simp [this]

theorem returns_whole (hb : Book b) (hg : CancelAuthorized actor b p t)
    (hrun : StepsRun ext env i p.operations b b' checks os)
    (constraints : ∀ d ∈ checks, d.run b' = .ok ()) :
    ∀ r ∈ p.itemReturn, r.quantity = t.remainingQuantity := by
  intro r hr
  obtain ⟨e, e', s, s', l, change, range, _, _, _, _, _, _, _, _, _, rfl, hmem⟩ :=
    return_of_run hb hg hr hrun
  have hcheck := constraints _ hmem
  have hfound := find?_set_trade (drawnTrade t r.quantity .cancelled range) hg.trade rfl
    p.state.tradeInstanceId
  have hempty : t.remainingQuantity - r.quantity = 0 :=
    (checkTradeRemainingQuantityInvariant_eq_ok (hfound.trans (if_pos rfl)) hcheck).2
      TradeState.noConfusion
  exact (sub_eq_zero.1 hempty).symm

theorem cancelled_of_run (hb : Book b) (hg : CancelAuthorized actor b p t)
    (hrun : StepsRun ext env i p.operations b b' checks os)
    (whole : ∀ r ∈ p.itemReturn, r.quantity = t.remainingQuantity) :
    Cancelled actor p.state.tradeInstanceId b t b' := by
  cases hreturn : p.itemReturn with
  | some r =>
    obtain ⟨e, e', s, s', l, change, range, hescrow, htrade, unreleased, held, drawn, hs, hstack,
      restocked, hchange, rfl, _⟩ := return_of_run hb hg hreturn hrun
    have hall := whole r hreturn
    have hrow : drawnTrade t r.quantity .cancelled range = closedTrade t := by
      simp only [drawnTrade, closedTrade, TradeInstanceRow.withRemaining,
        TradeInstanceRow.withState, hall, sub_self]
    rw [hrow]
    exact .returned e e' s s' [l] [change] hg.trade hg.issuer hg.opened
      (Table.find?_of_mem (Table.find?_some_mem hescrow)) htrade unreleased held (hall ▸ drawn)
      (Table.find?_of_mem (Table.find?_some_mem hs)) hstack (hall ▸ restocked)
      (fun c hc => List.mem_singleton.1 hc ▸ hchange)
  | none =>
    obtain ⟨b₁, c₁, c₂, _, _, itemReturn, later, rfl⟩ := StepsRun.of_append hrun
    obtain ⟨b₂, c₃, c₄, _, _, refund, closing, rfl⟩ := StepsRun.of_append later
    rw [no_refund hb hg] at refund
    rw [hreturn] at itemReturn
    cases refund
    cases itemReturn
    obtain ⟨ctx, change⟩ := StepsRun.of_singleton closing
    obtain ⟨t₁, found, opened, target, htarget, closes, kind, kindText, _⟩ :
      StateChange _ p.state _ _ _ := change
    rw [hg.cancels] at htarget
    obtain rfl : TradeState.cancelled = target := Option.some.inj htarget
    obtain rfl := Option.some.inj (hg.trade.symm.trans found)
    have hempty := nothing_held hb hg hreturn
    have hrow : t.withState .cancelled = closedTrade t := by
      simp only [closedTrade, TradeInstanceRow.withRemaining, TradeInstanceRow.withState, hempty]
    rw [hrow]
    exact .sold [_] hg.trade hg.issuer hg.opened hempty
      (fun c hc => List.mem_singleton.1 hc ▸ rfl)

end Cancel

end EveTrade.TradeFrames
