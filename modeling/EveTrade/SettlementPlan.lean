import EveTrade.SettlementCommands
import EveTrade.TransactionMonad

set_option autoImplicit false

namespace EveTrade.SettlementPlan

open TransactionMonad SettlementTypes SettlementCommands

def invalidGrammar (message : String) : Except SettlementError Unit :=
  .error (.invalidArgument s!"settlement operation grammar: {message}")

def validateIssue (actor : Int) : List SettlementCommand → Except SettlementError Unit
  | [.createNewTradeInstanceRow create, .transferQuantityFromItemStackToItemStackEscrow escrow] =>
    if create.issuerId ≠ actor then
      .error (.permissionDenied "ISSUE actor must equal trade issuer")
    else if create.tradeInstanceId ≠ some escrow.tradeInstanceId ∨
        create.totalQuantity ≠ escrow.quantity then
      invalidGrammar "ISSUE trade identity and escrow quantity must match"
    else .ok ()
  | _ => invalidGrammar "ISSUE requires create-trade followed by item escrow funding"

def validateAcceptEnd : List SettlementCommand → Except SettlementError Unit
  | [] => .ok ()
  | _ => invalidGrammar "ACCEPT contains a forbidden, duplicate, or out-of-order operation"

def validateAcceptCompletion (debit : TransferIskAmountFromWalletToWalletEscrow) :
    List SettlementCommand → Except SettlementError Unit
  | .modifyTradeInstanceState state :: rest =>
    if state.tradeInstanceId ≠ debit.tradeInstanceId ∨ state.toTradeState ≠ "COMPLETED" ∨
        state.tradeStateChangeKind ≠ "ACCEPTED_BY_BUYER" then
      invalidGrammar "ACCEPT completion state transition is invalid"
    else validateAcceptEnd rest
  | rest => validateAcceptEnd rest

def validateAcceptPayment : List SettlementCommand → Except SettlementError Unit
  | .transferIskAmountFromWalletToWalletEscrow debit :: rest =>
    match rest with
    | .transferQuantityFromItemStackEscrowToItemStackWithNewOwner _ :: rest =>
      match rest with
      | .transferIskAmountFromWalletEscrowToWalletWithNewOwner credit :: rest =>
        if debit.walletEscrowId ≠ some credit.walletEscrowId ∨
            debit.iskAmount ≠ credit.iskAmount then
          invalidGrammar "ACCEPT wallet escrow identity and amounts must balance"
        else validateAcceptCompletion debit rest
      | _ => invalidGrammar "ACCEPT requires seller wallet credit"
    | _ => invalidGrammar "ACCEPT requires item delivery to the new owner"
  | _ => invalidGrammar "ACCEPT requires actor wallet debit"

def validateAccept (actor : Int) : List SettlementCommand → Except SettlementError Unit
  | .createNewEmptyItemStack destination :: rest =>
    if destination.ownerId ≠ actor then
      .error (.permissionDenied "ACCEPT destination item stack must belong to actor")
    else validateAcceptPayment rest
  | operations => validateAcceptPayment operations

def validateCancelState : List SettlementCommand → Except SettlementError Unit
  | .modifyTradeInstanceState state :: rest =>
    if state.toTradeState ≠ "CANCELLED" ∨ state.tradeStateChangeKind ≠ "CANCELLED_BY_ISSUER" then
      invalidGrammar "CANCEL state transition is invalid"
    else
      match rest with
      | [] => .ok ()
      | _ => invalidGrammar "CANCEL contains a forbidden, duplicate, or out-of-order operation"
  | _ => invalidGrammar "CANCEL requires a final trade cancellation transition"

def validateCancelRefund : List SettlementCommand → Except SettlementError Unit
  | .transferIskAmountFromWalletEscrowToWalletWithPreviousOwner _ :: rest =>
    validateCancelState rest
  | operations => validateCancelState operations

def validateCancel : List SettlementCommand → Except SettlementError Unit
  | .transferQuantityFromItemStackEscrowToItemStackWithPreviousOwner _ :: rest =>
    validateCancelRefund rest
  | operations => validateCancelRefund operations

def validatePlanSemantics (command : ExecuteBatchCommand) : Except SettlementError Unit :=
  match command.causedByCapsuleerId with
  | none => .error (.invalidArgument "caused_by_capsuleer_id is required")
  | some actor =>
    match command.intent with
    | .issue => validateIssue actor command.operations
    | .accept => validateAccept actor command.operations
    | .cancel => validateCancel command.operations
    | .unspecified => .error (.invalidArgument "settlement intent is required")

section Shapes

variable {ops : List SettlementCommand}

structure IssuePlan where
  create : CreateNewTradeInstanceRow
  escrow : TransferQuantityFromItemStackToItemStackEscrow

def IssuePlan.operations (p : IssuePlan) : List SettlementCommand :=
  [.createNewTradeInstanceRow p.create, .transferQuantityFromItemStackToItemStackEscrow p.escrow]

structure AcceptPlan where
  destination : Option CreateNewEmptyItemStack
  debit : TransferIskAmountFromWalletToWalletEscrow
  delivery : TransferQuantityFromItemStackEscrowToItemStack
  credit : TransferIskAmountFromWalletEscrowToWallet
  completion : Option ModifyTradeInstanceState

def AcceptPlan.operations (p : AcceptPlan) : List SettlementCommand :=
  p.destination.toList.map .createNewEmptyItemStack ++
    ([.transferIskAmountFromWalletToWalletEscrow p.debit,
      .transferQuantityFromItemStackEscrowToItemStackWithNewOwner p.delivery,
      .transferIskAmountFromWalletEscrowToWalletWithNewOwner p.credit] ++
    p.completion.toList.map .modifyTradeInstanceState)

structure CancelPlan where
  itemReturn : Option TransferQuantityFromItemStackEscrowToItemStack
  refund : Option TransferIskAmountFromWalletEscrowToWallet
  state : ModifyTradeInstanceState

def CancelPlan.operations (p : CancelPlan) : List SettlementCommand :=
  p.itemReturn.toList.map .transferQuantityFromItemStackEscrowToItemStackWithPreviousOwner ++
    (p.refund.toList.map .transferIskAmountFromWalletEscrowToWalletWithPreviousOwner ++
      [.modifyTradeInstanceState p.state])

theorem validateIssue_eq_ok {actor : Int} (h : validateIssue actor ops = .ok ()) :
    ∃ p : IssuePlan, ops = p.operations ∧ p.create.issuerId = actor ∧
      p.create.tradeInstanceId = some p.escrow.tradeInstanceId ∧
      p.create.totalQuantity = p.escrow.quantity := by
  unfold validateIssue at h
  split at h
  · rename_i create escrow
    split_ifs at h with h1 h2
    · cases h
    · simp only [not_or, not_not, ne_eq] at h1 h2
      exact ⟨⟨create, escrow⟩, rfl, h1, h2.1, h2.2⟩
  · cases h

theorem validateAcceptEnd_eq_ok (h : validateAcceptEnd ops = .ok ()) : ops = [] := by
  cases ops with
  | nil => rfl
  | cons c cs => cases h

theorem validateAcceptCompletion_eq_ok {debit : TransferIskAmountFromWalletToWalletEscrow}
    (h : validateAcceptCompletion debit ops = .ok ()) :
    ∃ completion : Option ModifyTradeInstanceState,
      ops = completion.toList.map .modifyTradeInstanceState ∧
      ∀ s ∈ completion, s.tradeInstanceId = debit.tradeInstanceId ∧
        s.toTradeState = "COMPLETED" ∧ s.tradeStateChangeKind = "ACCEPTED_BY_BUYER" := by
  unfold validateAcceptCompletion at h
  split at h
  · rename_i state rest
    split_ifs at h with hbad
    · cases h
    · simp only [not_or, not_not, ne_eq] at hbad
      refine ⟨some state, by rw [validateAcceptEnd_eq_ok h]; rfl, ?_⟩
      intro s hs
      cases hs
      exact hbad
  · exact ⟨none, validateAcceptEnd_eq_ok h, fun s hs => by cases hs⟩

theorem validateAcceptPayment_eq_ok (h : validateAcceptPayment ops = .ok ()) :
    ∃ debit delivery credit, ∃ completion : Option ModifyTradeInstanceState,
      ops = [.transferIskAmountFromWalletToWalletEscrow debit,
        .transferQuantityFromItemStackEscrowToItemStackWithNewOwner delivery,
        .transferIskAmountFromWalletEscrowToWalletWithNewOwner credit] ++
        completion.toList.map .modifyTradeInstanceState ∧
      debit.walletEscrowId = some credit.walletEscrowId ∧ debit.iskAmount = credit.iskAmount ∧
      ∀ s ∈ completion, s.tradeInstanceId = debit.tradeInstanceId ∧
        s.toTradeState = "COMPLETED" ∧ s.tradeStateChangeKind = "ACCEPTED_BY_BUYER" := by
  unfold validateAcceptPayment at h
  split at h
  · split at h
    · split at h
      · split_ifs at h with hbad
        · cases h
        · simp only [not_or, not_not, ne_eq] at hbad
          obtain ⟨completion, hrest, hcompletion⟩ := validateAcceptCompletion_eq_ok h
          exact ⟨_, _, _, completion, by rw [hrest]; rfl, hbad.1, hbad.2, hcompletion⟩
      · cases h
    · cases h
  · cases h

theorem validateAccept_eq_ok {actor : Int} (h : validateAccept actor ops = .ok ()) :
    ∃ p : AcceptPlan, ops = p.operations ∧ (∀ d ∈ p.destination, d.ownerId = actor) ∧
      p.debit.walletEscrowId = some p.credit.walletEscrowId ∧
      p.debit.iskAmount = p.credit.iskAmount ∧
      ∀ s ∈ p.completion, s.tradeInstanceId = p.debit.tradeInstanceId ∧
        s.toTradeState = "COMPLETED" ∧ s.tradeStateChangeKind = "ACCEPTED_BY_BUYER" := by
  unfold validateAccept at h
  split at h
  · rename_i destination rest
    split_ifs at h with howner
    obtain ⟨debit, delivery, credit, completion, hrest, hid, hamount, hcompletion⟩ :=
      validateAcceptPayment_eq_ok h
    refine ⟨⟨some destination, debit, delivery, credit, completion⟩, by rw [hrest]; rfl, ?_, hid,
      hamount, hcompletion⟩
    intro d hd
    cases hd
    exact not_not.1 howner
  · obtain ⟨debit, delivery, credit, completion, hrest, hid, hamount, hcompletion⟩ :=
      validateAcceptPayment_eq_ok h
    refine ⟨⟨none, debit, delivery, credit, completion⟩, hrest, ?_, hid, hamount, hcompletion⟩
    intro d hd
    cases hd

theorem validateCancelState_eq_ok (h : validateCancelState ops = .ok ()) :
    ∃ state, ops = [.modifyTradeInstanceState state] ∧ state.toTradeState = "CANCELLED" ∧
      state.tradeStateChangeKind = "CANCELLED_BY_ISSUER" := by
  unfold validateCancelState at h
  split at h
  · split_ifs at h with hbad
    · cases h
    · simp only [not_or, not_not, ne_eq] at hbad
      split at h
      · exact ⟨_, rfl, hbad⟩
      · cases h
  · cases h

theorem validateCancelRefund_eq_ok (h : validateCancelRefund ops = .ok ()) :
    ∃ refund : Option TransferIskAmountFromWalletEscrowToWallet, ∃ state,
      ops = refund.toList.map .transferIskAmountFromWalletEscrowToWalletWithPreviousOwner ++
        [.modifyTradeInstanceState state] ∧ state.toTradeState = "CANCELLED" ∧
      state.tradeStateChangeKind = "CANCELLED_BY_ISSUER" := by
  unfold validateCancelRefund at h
  split at h
  · rename_i refund rest
    obtain ⟨state, hrest, hto, hkind⟩ := validateCancelState_eq_ok h
    exact ⟨some refund, state, by rw [hrest]; rfl, hto, hkind⟩
  · obtain ⟨state, hrest, hto, hkind⟩ := validateCancelState_eq_ok h
    exact ⟨none, state, hrest, hto, hkind⟩

theorem validateCancel_eq_ok (h : validateCancel ops = .ok ()) :
    ∃ p : CancelPlan, ops = p.operations ∧ p.state.toTradeState = "CANCELLED" ∧
      p.state.tradeStateChangeKind = "CANCELLED_BY_ISSUER" := by
  unfold validateCancel at h
  split at h
  · rename_i itemReturn rest
    obtain ⟨refund, state, hrest, hto, hkind⟩ := validateCancelRefund_eq_ok h
    exact ⟨⟨some itemReturn, refund, state⟩, by rw [hrest]; rfl, hto, hkind⟩
  · obtain ⟨refund, state, hrest, hto, hkind⟩ := validateCancelRefund_eq_ok h
    exact ⟨⟨none, refund, state⟩, hrest, hto, hkind⟩

end Shapes

end EveTrade.SettlementPlan
