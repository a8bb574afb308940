import EveTrade.GameTrade
import EveTrade.SettlementPlan

set_option autoImplicit false

/-!
# From the market's plans to the commands that are executed

The operations of a plan, converted one by one, are those of a plan of the settlement grammar.
-/
namespace EveTrade.PlanConversion

open UuidText TransactionMonad SettlementTypes SettlementCommands SettlementPlan SettlementWork
  GameTrade

variable {commands : List SettlementCommand}

theorem toCommands_optional {c : Prop} [Decidable c] {x : Operation}
    (h : toCommands (if c then [x] else []) = .ok commands) :
    (c ∧ ∃ command, x.toCommand = .ok command ∧ commands = [command]) ∨ (¬ c ∧ commands = []) := by
  split_ifs at h with hc
  · exact .inl ⟨hc, toCommands_singleton h⟩
  · exact .inr ⟨hc, (Except.ok.inj h).symm⟩

theorem acceptOperations_injective : Function.Injective AcceptPlan.operations := by
  rintro ⟨destination, debit, delivery, credit, completion⟩ ⟨destination', debit', delivery',
    credit', completion'⟩ h
  cases destination <;> cases destination' <;> cases completion <;> cases completion' <;>
    simp_all [AcceptPlan.operations]

section Accept

variable {input : AcceptTradeInstanceInput} {destinationItemStackId walletEscrowId : String}

/-- What the grammar's plan has of the acceptance it was converted from. -/
structure AcceptConverted (input : AcceptTradeInstanceInput) (p : AcceptPlan) : Prop where
  trade : requiredUuid input.tradeInstanceId "trade_instance_id" = .ok p.debit.tradeInstanceId
  quantity : p.delivery.quantity = input.quantityRequested
  completes : p.completion.isSome = input.completeTrade

theorem destinationCreation_toCommands
    (h : toCommands (destinationCreation input destinationItemStackId) = .ok commands) :
    ∃ destination : Option SettlementCommands.CreateNewEmptyItemStack,
      commands = destination.toList.map .createNewEmptyItemStack := by
  rcases toCommands_optional h with ⟨_, command, hcommand, rfl⟩ | ⟨_, rfl⟩
  · obtain ⟨id, _, hcommand⟩ := except_bind_eq_ok.1 hcommand
    obtain rfl := Except.ok.inj hcommand
    exact ⟨some _, rfl⟩
  · exact ⟨none, rfl⟩

theorem tradeCompletion_toCommands (h : toCommands (tradeCompletion input) = .ok commands) :
    ∃ completion : Option SettlementCommands.ModifyTradeInstanceState,
      commands = completion.toList.map .modifyTradeInstanceState ∧
        completion.isSome = input.completeTrade := by
  rcases toCommands_optional h with ⟨hc, command, hcommand, rfl⟩ | ⟨hc, rfl⟩
  · obtain ⟨id, _, hcommand⟩ := except_bind_eq_ok.1 hcommand
    obtain ⟨toTradeState, _, hcommand⟩ := except_bind_eq_ok.1 hcommand
    obtain ⟨changeKind, _, hcommand⟩ := except_bind_eq_ok.1 hcommand
    obtain rfl := Except.ok.inj hcommand
    exact ⟨some _, rfl, hc.symm⟩
  · exact ⟨none, rfl, (Bool.eq_false_iff.2 hc).symm⟩

theorem walletDebit_toCommand {payload : SettlementWork.TransferIskAmountFromWalletToWalletEscrow}
    {command : SettlementCommand}
    (h : (Operation.transferIskAmountFromWalletToWalletEscrow payload).toCommand = .ok command) :
    ∃ debit, command = .transferIskAmountFromWalletToWalletEscrow debit ∧
      requiredUuid payload.tradeInstanceId "trade_instance_id" = .ok debit.tradeInstanceId := by
  obtain ⟨sourceWalletId, _, h⟩ := except_bind_eq_ok.1 h
  obtain ⟨walletEscrowId, _, h⟩ := except_bind_eq_ok.1 h
  obtain ⟨tradeInstanceId, htrade, h⟩ := except_bind_eq_ok.1 h
  obtain rfl := Except.ok.inj h
  exact ⟨_, rfl, htrade⟩

theorem except_map_eq_ok {ε α β : Type} {f : α → β} {x : Except ε α} {b : β}
    (h : x.map f = .ok b) : ∃ a, x = .ok a ∧ b = f a := by
  cases x with
  | error e => cases h
  | ok a => exact ⟨a, rfl, (Except.ok.inj h).symm⟩

theorem releaseCommand_quantity
    {payload : SettlementWork.TransferQuantityFromItemStackEscrowToItemStack}
    {release : SettlementCommands.TransferQuantityFromItemStackEscrowToItemStack}
    (h : releaseCommand payload = .ok release) : release.quantity = payload.quantity := by
  obtain ⟨itemStackEscrowId, _, h⟩ := except_bind_eq_ok.1 h
  obtain ⟨destinationItemStackId, _, h⟩ := except_bind_eq_ok.1 h
  obtain rfl := Except.ok.inj h
  rfl

/-- The operations of an acceptance become those of one plan of the grammar. -/
theorem acceptPlan_toCommands
    (h : toCommands (acceptPlan input destinationItemStackId walletEscrowId).operations =
      .ok commands) :
    ∃ p : AcceptPlan, commands = p.operations ∧ AcceptConverted input p := by
  obtain ⟨created, later, hcreated, hlater, rfl⟩ := toCommands_append h
  obtain ⟨exchanged, completed, hexchanged, hcompleted, rfl⟩ := toCommands_append hlater
  obtain ⟨destination, rfl⟩ := destinationCreation_toCommands hcreated
  obtain ⟨completion, rfl, hcompletion⟩ := tradeCompletion_toCommands hcompleted
  obtain ⟨c₁, paid, hdebit, hpaid, rfl⟩ := toCommands_cons hexchanged
  obtain ⟨c₂, delivered, hdelivery, hdelivered, rfl⟩ := toCommands_cons hpaid
  obtain ⟨c₃, hcredit, rfl⟩ := toCommands_singleton hdelivered
  obtain ⟨debit, rfl, htrade⟩ := walletDebit_toCommand hdebit
  obtain ⟨delivery, hrelease, rfl⟩ := except_map_eq_ok hdelivery
  obtain ⟨credit, _, rfl⟩ := except_map_eq_ok hcredit
  exact ⟨⟨destination, debit, delivery, credit, completion⟩, rfl, htrade,
    releaseCommand_quantity hrelease, hcompletion⟩

end Accept

end EveTrade.PlanConversion
