import EveTrade.SettlementOutcome

set_option autoImplicit false

/-!
# What an authorised plan has been checked for

The plan of a call with an intent has one of three shapes, and the rows it names have been compared
with its actor before the first step runs.
-/
namespace EveTrade.SettlementAuthorizationSpecs

open KeyedTable TransactionMonad UuidText SettlementTypes SettlementCommands SettlementSchema
  SettlementOperations SettlementAuthorization SettlementPlan SettlementExecutor SettlementOutcome

section Answers

variable {b : Business} {id : Uuid}

theorem fromRow_answers {α : Type} {read : Business → Option α} {e : SettlementError} {a : α}
    (h : Tx.Answers (select read >>= fun row => Tx.fromOption row e) b a) : read b = some a := by
  obtain ⟨row, hrow, ha⟩ := Tx.Answers.bind (Tx.ReadOnly.query _ _) h
  rw [← Tx.Answers.query hrow]
  exact Tx.Answers.fromOption ha

theorem itemOwner_answers {owner : Int} (h : (itemOwner id).Answers b owner) :
    ∃ s, b.itemStack.find? id = some s ∧ s.ownerId = owner :=
  Option.map_eq_some_iff.1 (fromRow_answers h)

theorem walletOwner_answers {owner : Int} (h : (walletOwner id).Answers b owner) :
    ∃ w, b.wallet.find? id = some w ∧ w.capsuleerId = owner :=
  Option.map_eq_some_iff.1 (fromRow_answers h)

theorem itemOwner_require {actor : Int} {m : String}
    (h : Tx.Answers (itemOwner id >>= fun owner => require (owner = actor) m) b ()) :
    ∃ s, b.itemStack.find? id = some s ∧ s.ownerId = actor := by
  obtain ⟨owner, howner, h⟩ := Tx.Answers.bind (lookup_readOnly _ _) h
  have hrequired := Tx.Answers.ensure h
  exact hrequired ▸ itemOwner_answers howner

theorem itemOwner_require_bind {β : Type} {actor : Int} {m : String} {f : Unit → OpTx β} {r : β}
    (h : Tx.Answers (itemOwner id >>= fun owner => require (owner = actor) m >>= f) b r) :
    (∃ s, b.itemStack.find? id = some s ∧ s.ownerId = actor) ∧ (f ()).Answers b r := by
  obtain ⟨owner, howner, h⟩ := Tx.Answers.bind (lookup_readOnly _ _) h
  obtain ⟨hrequired, hrest⟩ := Tx.Answers.ensure_bind h
  exact ⟨hrequired ▸ itemOwner_answers howner, hrest⟩

theorem walletOwner_require_bind {β : Type} {actor : Int} {m : String} {f : Unit → OpTx β} {r : β}
    (h : Tx.Answers (walletOwner id >>= fun owner => require (owner = actor) m >>= f) b r) :
    (∃ w, b.wallet.find? id = some w ∧ w.capsuleerId = actor) ∧ (f ()).Answers b r := by
  obtain ⟨owner, howner, h⟩ := Tx.Answers.bind (lookup_readOnly _ _) h
  obtain ⟨hrequired, hrest⟩ := Tx.Answers.ensure_bind h
  exact ⟨hrequired ▸ walletOwner_answers howner, hrest⟩

end Answers

section Plans

variable (actor : Int) (b : Business)

structure IssueAuthorized (p : IssuePlan) : Prop where
  issuer : p.create.issuerId = actor
  identity : p.create.tradeInstanceId = some p.escrow.tradeInstanceId
  quantity : p.create.totalQuantity = p.escrow.quantity
  source : ∃ s, b.itemStack.find? p.escrow.sourceItemStackId = some s ∧ s.ownerId = actor

structure AcceptAuthorized (p : AcceptPlan) (t : TradeInstanceRow) (e : ItemStackEscrowRow) :
    Prop where
  destinationOwner : ∀ d ∈ p.destination, d.ownerId = actor
  escrowIdentity : p.debit.walletEscrowId = some p.credit.walletEscrowId
  balanced : p.debit.iskAmount = p.credit.iskAmount
  completion : ∀ s ∈ p.completion, s.tradeInstanceId = p.debit.tradeInstanceId ∧
    s.toTradeState = "COMPLETED" ∧ s.tradeStateChangeKind = "ACCEPTED_BY_BUYER"
  payer : ∃ w, b.wallet.find? p.debit.sourceWalletId = some w ∧ w.capsuleerId = actor
  trade : b.tradeInstance.find? p.debit.tradeInstanceId = some t
  opened : t.tradeState = .open
  escrow : b.itemStackEscrow.find? p.delivery.itemStackEscrowId = some e
  escrowTrade : e.tradeInstanceId = p.debit.tradeInstanceId
  escrowOwner : e.ownerId = t.issuerId
  price : p.debit.iskAmount = p.delivery.quantity * t.unitPriceIsk
  proceeds : ∃ w, b.wallet.find? p.credit.destinationWalletId = some w ∧
    w.capsuleerId = t.issuerId
  destination : (∃ d ∈ p.destination, d.itemStackId = some p.delivery.destinationItemStackId) ∨
    ∃ s, b.itemStack.find? p.delivery.destinationItemStackId = some s ∧ s.ownerId = actor

structure ItemReturnAuthorized (tradeInstanceId : Uuid)
    (p : TransferQuantityFromItemStackEscrowToItemStack) : Prop where
  escrow : ∃ e, b.itemStackEscrow.find? p.itemStackEscrowId = some e ∧
    e.tradeInstanceId = tradeInstanceId ∧ e.ownerId = actor ∧ e.isReleased = false
  destination : ∃ s, b.itemStack.find? p.destinationItemStackId = some s ∧ s.ownerId = actor

structure CancelAuthorized (p : CancelPlan) (t : TradeInstanceRow) : Prop where
  cancels : p.state.toTradeState = "CANCELLED"
  trade : b.tradeInstance.find? p.state.tradeInstanceId = some t
  issuer : t.issuerId = actor
  opened : t.tradeState = .open
  itemReturn : ∀ r ∈ p.itemReturn, ItemReturnAuthorized actor b p.state.tradeInstanceId r
  refund : ∀ r ∈ p.refund, ∃ e, b.walletEscrow.find? r.walletEscrowId = some e ∧
    e.isReleased = false
  itemsReturned : p.itemReturn.toList.length = b.activeItemEscrowCount p.state.tradeInstanceId

/-- A call that settles with an intent carries a plan of that shape, authorised for its actor. -/
inductive Licensed (command : ExecuteBatchCommand) : Prop
  | issue (p : IssuePlan) (intent : command.intent = .issue)
      (operations : command.operations = p.operations) (granted : IssueAuthorized actor b p)
  | accept (p : AcceptPlan) (t : TradeInstanceRow) (e : ItemStackEscrowRow)
      (intent : command.intent = .accept) (operations : command.operations = p.operations)
      (granted : AcceptAuthorized actor b p t e)
  | cancel (p : CancelPlan) (t : TradeInstanceRow) (intent : command.intent = .cancel)
      (operations : command.operations = p.operations) (granted : CancelAuthorized actor b p t)

end Plans

section Selectors

theorem AcceptPlan.findSome_walletDebit (p : AcceptPlan) :
    p.operations.findSome? walletDebit? = some p.debit := by
  obtain ⟨_ | d, debit, delivery, credit, completion⟩ := p <;> rfl

theorem AcceptPlan.findSome_itemDelivery (p : AcceptPlan) :
    p.operations.findSome? itemDelivery? = some p.delivery := by
  obtain ⟨_ | d, debit, delivery, credit, completion⟩ := p <;> rfl

theorem AcceptPlan.findSome_sellerCredit (p : AcceptPlan) :
    p.operations.findSome? sellerCredit? = some p.credit := by
  obtain ⟨_ | d, debit, delivery, credit, completion⟩ := p <;> rfl

theorem CancelPlan.findSome_stateTransition (p : CancelPlan) :
    p.operations.findSome? stateTransition? = some p.state := by
  obtain ⟨_ | r, _ | w, state⟩ := p <;> rfl

theorem AcceptPlan.createsDestination_of_any {p : AcceptPlan} {actor : Int} {id : Uuid}
    (h : p.operations.any (createsDestination actor id) = true) :
    ∃ d ∈ p.destination, d.itemStackId = some id := by
  obtain ⟨c, hc, hcreates⟩ := List.any_eq_true.1 h
  cases c with
  | createNewEmptyItemStack d =>
    refine ⟨d, ?_, (of_decide_eq_true hcreates).1⟩
    obtain ⟨_ | d', debit, delivery, credit, _ | s⟩ := p <;>
      simp [AcceptPlan.operations] at hc <;> simp [hc]
  | _ => cases hcreates

end Selectors

section Intents

variable {actor : Int} {b : Business}

theorem authorizeIssue_answers {p : IssuePlan}
    (h : (authorizeIssue actor p.operations).Answers b ()) :
    ∃ s, b.itemStack.find? p.escrow.sourceItemStackId = some s ∧ s.ownerId = actor :=
  itemOwner_require h

theorem authorizeAccept_answers {p : AcceptPlan}
    (hdestination : ∀ d ∈ p.destination, d.ownerId = actor)
    (hidentity : p.debit.walletEscrowId = some p.credit.walletEscrowId)
    (hbalanced : p.debit.iskAmount = p.credit.iskAmount)
    (hcompletion : ∀ s ∈ p.completion, s.tradeInstanceId = p.debit.tradeInstanceId ∧
      s.toTradeState = "COMPLETED" ∧ s.tradeStateChangeKind = "ACCEPTED_BY_BUYER")
    (h : (authorizeAccept actor p.operations).Answers b ()) :
    ∃ t e, AcceptAuthorized actor b p t e := by
  unfold authorizeAccept at h
  rw [AcceptPlan.findSome_walletDebit, AcceptPlan.findSome_itemDelivery,
    AcceptPlan.findSome_sellerCredit] at h
  change (authorizeAcceptTrade actor p.operations p.debit p.delivery p.credit).Answers b () at h
  unfold authorizeAcceptTrade at h
  obtain ⟨hpayer, h⟩ := walletOwner_require_bind h
  obtain ⟨t, ht, h⟩ := Tx.Answers.bind (lookup_readOnly _ _) h
  obtain ⟨hopened, h⟩ := Tx.Answers.ensure_bind h
  obtain ⟨e, he, h⟩ := Tx.Answers.bind (lookup_readOnly _ _) h
  obtain ⟨htrade, h⟩ := Tx.Answers.ensure_bind h
  obtain ⟨howner, h⟩ := Tx.Answers.ensure_bind h
  obtain ⟨_, h⟩ := Tx.Answers.ensure_bind h
  obtain ⟨_, h⟩ := Tx.Answers.ensure_bind h
  obtain ⟨_, h⟩ := Tx.Answers.ensure_bind h
  obtain ⟨hprice, h⟩ := Tx.Answers.ensure_bind h
  obtain ⟨hseller, h⟩ := walletOwner_require_bind h
  refine ⟨t, e, hdestination, hidentity, hbalanced, hcompletion, hpayer, fromRow_answers ht,
    hopened, fromRow_answers he, htrade, howner, hprice, hseller, ?_⟩
  -- the destination is either created by the plan for its actor or was looked up
  cases hany : p.operations.any (createsDestination actor p.delivery.destinationItemStackId) with
  | true => exact .inl (AcceptPlan.createsDestination_of_any hany)
  | false => exact .inr (itemOwner_require (h.when hany))

theorem authorizeReturns_item {id : Uuid} {p : TransferQuantityFromItemStackEscrowToItemStack}
    {rest : List SettlementCommand} {i w : ℕ} {r : ℕ × ℕ}
    (h : (authorizeReturns actor id
      (.transferQuantityFromItemStackEscrowToItemStackWithPreviousOwner p :: rest) i w).Answers b r) :
    ItemReturnAuthorized actor b id p ∧
      (authorizeReturns actor id rest (i + 1) w).Answers b r := by
  unfold authorizeReturns at h
  obtain ⟨e, he, h⟩ := Tx.Answers.bind (lookup_readOnly _ _) h
  obtain ⟨hreturnable, h⟩ := Tx.Answers.ensure_bind h
  obtain ⟨howner, h⟩ := itemOwner_require_bind h
  exact ⟨⟨⟨e, fromRow_answers he, hreturnable⟩, howner⟩, h⟩

theorem authorizeReturns_refund {id : Uuid} {p : TransferIskAmountFromWalletEscrowToWallet}
    {rest : List SettlementCommand} {i w : ℕ} {r : ℕ × ℕ}
    (h : (authorizeReturns actor id
      (.transferIskAmountFromWalletEscrowToWalletWithPreviousOwner p :: rest) i w).Answers b r) :
    (∃ e, b.walletEscrow.find? p.walletEscrowId = some e ∧ e.isReleased = false) ∧
      (authorizeReturns actor id rest i (w + 1)).Answers b r := by
  unfold authorizeReturns at h
  obtain ⟨e, he, h⟩ := Tx.Answers.bind (lookup_readOnly _ _) h
  obtain ⟨hreturnable, h⟩ := Tx.Answers.ensure_bind h
  obtain ⟨_, h⟩ := walletOwner_require_bind h
  exact ⟨⟨e, fromRow_answers he, hreturnable.2⟩, h⟩

theorem authorizeReturns_answers {id : Uuid} {p : CancelPlan} {r : ℕ × ℕ}
    (h : (authorizeReturns actor id p.operations 0 0).Answers b r) :
    (∀ q ∈ p.itemReturn, ItemReturnAuthorized actor b id q) ∧
      (∀ q ∈ p.refund, ∃ e, b.walletEscrow.find? q.walletEscrowId = some e ∧
        e.isReleased = false) ∧
      r.1 = p.itemReturn.toList.length := by
  obtain ⟨itemReturn, refund, state⟩ := p
  cases itemReturn with
  | none =>
    cases refund with
    | none =>
      obtain rfl := Tx.Answers.pure h
      simp
    | some q =>
      obtain ⟨hq, h⟩ := authorizeReturns_refund h
      obtain rfl := Tx.Answers.pure h
      simpa using hq
  | some p =>
    obtain ⟨hp, h⟩ := authorizeReturns_item h
    cases refund with
    | none =>
      obtain rfl := Tx.Answers.pure h
      simpa using hp
    | some q =>
      obtain ⟨hq, h⟩ := authorizeReturns_refund h
      obtain rfl := Tx.Answers.pure h
      simpa using ⟨hp, hq⟩

theorem authorizeCancel_answers {p : CancelPlan} (hcancels : p.state.toTradeState = "CANCELLED")
    (h : (authorizeCancel actor p.operations).Answers b ()) :
    ∃ t, CancelAuthorized actor b p t := by
  unfold authorizeCancel at h
  rw [CancelPlan.findSome_stateTransition] at h
  obtain ⟨state, hstate, h⟩ := Tx.Answers.bind (Tx.ReadOnly.fromOption _ _) h
  obtain rfl := Option.some.inj (Tx.Answers.fromOption hstate)
  obtain ⟨t, ht, h⟩ := Tx.Answers.bind (lookup_readOnly _ _) h
  obtain ⟨hissuer, h⟩ := Tx.Answers.ensure_bind h
  obtain ⟨hopened, h⟩ := Tx.Answers.ensure_bind h
  obtain ⟨r, hr, h⟩ := Tx.Answers.bind (authorizeReturns_readOnly _ _ _ _ _) h
  obtain ⟨items, hitems, h⟩ := Tx.Answers.bind (Tx.ReadOnly.query _ _) h
  obtain ⟨wallets, _, h⟩ := Tx.Answers.bind (Tx.ReadOnly.query _ _) h
  obtain ⟨hcount, _⟩ := Tx.Answers.ensure_bind h
  obtain ⟨hreturn, hrefund, hlength⟩ := authorizeReturns_answers hr
  refine ⟨t, hcancels, fromRow_answers ht, hissuer, hopened, hreturn, hrefund, ?_⟩
  have hread := Tx.Answers.query hitems
  omega

/-- A command with an intent that passes its grammar and its authorisation is licensed. -/
theorem licensed_of_authorized {command : ExecuteBatchCommand}
    (hintent : command.intent ≠ .unspecified) (hplan : validatePlan command = .ok ())
    (h : Authorized command b) :
    ∃ actor, command.causedByCapsuleerId = some actor ∧ Licensed actor b command := by
  obtain ⟨actor, hactor, h⟩ := Tx.Answers.bind (Tx.ReadOnly.fromOption _ _) h
  have hcaused := Tx.Answers.fromOption hactor
  refine ⟨actor, hcaused, ?_⟩
  rw [validatePlan, if_pos hintent] at hplan
  simp only [validatePlanSemantics, hcaused] at hplan
  cases hkind : command.intent with
  | unspecified => exact absurd hkind hintent
  | issue =>
    simp only [hkind] at hplan h
    obtain ⟨p, hops, hissuer, hidentity, hquantity⟩ := validateIssue_eq_ok hplan
    rw [hops] at h
    exact .issue p hkind hops ⟨hissuer, hidentity, hquantity, authorizeIssue_answers h⟩
  | accept =>
    simp only [hkind] at hplan h
    obtain ⟨p, hops, hdestination, hidentity, hbalanced, hcompletion⟩ := validateAccept_eq_ok hplan
    rw [hops] at h
    obtain ⟨t, e, hgranted⟩ :=
      authorizeAccept_answers hdestination hidentity hbalanced hcompletion h
    exact .accept p t e hkind hops hgranted
  | cancel =>
    simp only [hkind] at hplan h
    obtain ⟨p, hops, hcancels, _⟩ := validateCancel_eq_ok hplan
    rw [hops] at h
    obtain ⟨t, hgranted⟩ := authorizeCancel_answers hcancels h
    exact .cancel p t hkind hops hgranted

end Intents

end EveTrade.SettlementAuthorizationSpecs
