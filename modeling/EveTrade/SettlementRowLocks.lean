import EveTrade.SettlementTradeLocks

set_option autoImplicit false

/-!
# The locks of a batch

A batch takes the advisory locks of its trades, then the record of its key, then the rows that its
authorisation reads `FOR UPDATE`, and then the rows that its steps read or write, and it keeps them
all until it commits or is rolled back. A row that a batch has inserted itself is locked for others
by its key alone: they cannot see it, but they wait if they insert the same key.
-/
namespace EveTrade.SettlementRowLocks

open KeyedTable TransactionMonad UuidText SettlementTypes SettlementCommands SettlementSchema
  SettlementOperations SettlementEffects SettlementPlan SettlementAuthorization SettlementExecutor
  SettlementOutcome SettlementAuthorizationSpecs SettlementTradeLocks TradeFrames

inductive Lock where
  | advisory (key : Int)
  | idempotencyRecord (key : String)
  | wallet (id : Uuid)
  | tradeInstance (id : Uuid)
  | itemStack (id : Uuid)
  | itemStackEscrow (id : Uuid)
  | walletEscrow (id : Uuid)
  | newItemStack (id : Uuid)
deriving DecidableEq

section Sequences

/-- The trade that a plan is about. Authorisation has found every escrow that the plan draws on to be
for this trade. -/
def planTrade (operations : List SettlementCommand) : Option Uuid :=
  match operations.findSome? walletDebit?, operations.findSome? stateTransition? with
  | some debit, _ => some debit.tradeInstanceId
  | none, some state => some state.tradeInstanceId
  | none, none => none

/-- What the steps that release an escrow lock, with the trade that the escrow is for. -/
def releaseLocks (trade : Option Uuid) (escrow destination : Lock) : List Lock :=
  escrow :: destination :: trade.toList.map .tradeInstance

/-- The rows that a step locks, in the order of its statements. -/
def stepLocks (trade : Option Uuid) : SettlementCommand → List Lock
  | .createNewTradeInstanceRow _ => []
  | .modifyTradeInstanceState p => [.tradeInstance p.tradeInstanceId]
  | .createNewEmptyItemStack p => p.itemStackId.toList.map .newItemStack
  | .transferQuantityFromItemStackToItemStackEscrow p =>
    .tradeInstance p.tradeInstanceId :: .itemStack p.sourceItemStackId ::
      p.itemStackEscrowId.toList.map .itemStackEscrow
  | .transferQuantityFromItemStackEscrowToItemStackWithNewOwner p =>
    releaseLocks trade (.itemStackEscrow p.itemStackEscrowId) (.itemStack p.destinationItemStackId)
  | .transferQuantityFromItemStackEscrowToItemStackWithPreviousOwner p =>
    releaseLocks trade (.itemStackEscrow p.itemStackEscrowId) (.itemStack p.destinationItemStackId)
  | .mergeItemStacksWithIdenticalItemTypeAndIdenticalOwner p =>
    [.itemStack p.sourceItemStackId, .itemStack p.destinationItemStackId]
  | .createNewEmptyWalletEscrow p =>
    .wallet p.sourceWalletId :: p.walletEscrowId.toList.map .walletEscrow
  | .transferIskAmountFromWalletToWalletEscrow p =>
    .wallet p.sourceWalletId :: .tradeInstance p.tradeInstanceId ::
      p.walletEscrowId.toList.map .walletEscrow
  | .transferIskAmountFromWalletEscrowToWalletWithNewOwner p =>
    releaseLocks trade (.walletEscrow p.walletEscrowId) (.wallet p.destinationWalletId)
  | .transferIskAmountFromWalletEscrowToWalletWithPreviousOwner p =>
    releaseLocks none (.walletEscrow p.walletEscrowId) (.wallet p.destinationWalletId)

/-- A row that the plan inserts under an id it names. -/
def createdRow : SettlementCommand → Option Lock
  | .createNewTradeInstanceRow p => p.tradeInstanceId.map .tradeInstance
  | .createNewEmptyItemStack p => p.itemStackId.map .itemStack
  | _ => none

/-- The locks of the steps. Nobody else can hold a row that the plan itself has inserted. -/
def executionLocks (operations : List SettlementCommand) : List Lock :=
  (operations.flatMap (stepLocks (planTrade operations))).filter fun l =>
    !(operations.filterMap createdRow).contains l

def issueLocks (operations : List SettlementCommand) : List Lock :=
  match (operations[1]? : Option SettlementCommand) with
  | some (.transferQuantityFromItemStackToItemStackEscrow escrow) =>
    [.itemStack escrow.sourceItemStackId]
  | _ => []

def acceptLocks (actor : Int) (operations : List SettlementCommand) : List Lock :=
  match operations.findSome? walletDebit?, operations.findSome? itemDelivery?,
      operations.findSome? sellerCredit? with
  | some debit, some delivery, some credit =>
    [.wallet debit.sourceWalletId, .tradeInstance debit.tradeInstanceId,
      .itemStackEscrow delivery.itemStackEscrowId, .wallet credit.destinationWalletId] ++
    if operations.any (createsDestination actor delivery.destinationItemStackId) then []
    else [.itemStack delivery.destinationItemStackId]
  | _, _, _ => []

def returnLocks : SettlementCommand → List Lock
  | .transferQuantityFromItemStackEscrowToItemStackWithPreviousOwner p =>
    [.itemStackEscrow p.itemStackEscrowId, .itemStack p.destinationItemStackId]
  | .transferIskAmountFromWalletEscrowToWalletWithPreviousOwner p =>
    [.walletEscrow p.walletEscrowId, .wallet p.destinationWalletId]
  | _ => []

def cancelLocks (operations : List SettlementCommand) : List Lock :=
  match operations.findSome? stateTransition? with
  | some state => .tradeInstance state.tradeInstanceId :: operations.flatMap returnLocks
  | none => []

def authorizationLocks (command : ExecuteBatchCommand) : List Lock :=
  match command.causedByCapsuleerId, command.intent with
  | some _, .issue => issueLocks command.operations
  | some actor, .accept => acceptLocks actor command.operations
  | some _, .cancel => cancelLocks command.operations
  | _, _ => []

/-- Every lock that a batch asks for, in order. The advisory lock of a trade is on a hash of its id. -/
def lockSequence (hash : Uuid → Int) (command : ExecuteBatchCommand) : List Lock :=
  (advisoryLockIds command).map (fun id => .advisory (hash id)) ++
    (.idempotencyRecord command.idempotencyKey ::
      (authorizationLocks command ++ executionLocks command.operations))

end Sequences

section Batches

theorem mem_executionLocks {l : Lock} {operations : List SettlementCommand} :
    l ∈ executionLocks operations ↔
      l ∈ operations.flatMap (stepLocks (planTrade operations)) ∧
        l ∉ operations.filterMap createdRow := by
  simp [executionLocks]

theorem AcceptPlan.planTrade_eq (p : AcceptPlan) :
    planTrade p.operations = some p.debit.tradeInstanceId := by
  rw [planTrade, AcceptPlan.findSome_walletDebit]

theorem CancelPlan.planTrade_eq (p : CancelPlan) :
    planTrade p.operations = some p.state.tradeInstanceId := by
  obtain ⟨_ | r, _ | refund, state⟩ := p <;> rfl

end Batches

end EveTrade.SettlementRowLocks
