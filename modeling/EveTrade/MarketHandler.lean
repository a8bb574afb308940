import EveTrade.MarketReplay
import EveTrade.SettlementDelivery

set_option autoImplicit false

/-!
# The market's handlers

Each handler checks its request, answers it from a completed settlement if there is one, and
otherwise plans it from the rows it reads. What it plans is published as work; the answer names the
operation under which the work was queued.
-/
namespace EveTrade.MarketHandler

open UuidText TransactionMonad SettlementTypes SettlementSchema SettlementWork SettlementDelivery
  GameTrade MarketRequests MarketRepository MarketReplay

/-- What a handler has decided before it publishes anything. -/
inductive Submission (ρ : Type) where
  | replayed (result : ρ)
  | planned (work : Work) (respond : SettlementPublication → ρ)

def Submission.work? {ρ : Type} : Submission ρ → Option Work
  | replayed _ => none
  | planned work _ => some work

/-- The answer once the publication of planned work is known. -/
def Submission.conclude {ρ : Type} : Submission ρ → Except String SettlementPublication →
    Except ApiError ρ
  | replayed result, _ => .ok result
  | planned _ respond, .ok publication => .ok (respond publication)
  | planned _ _, .error e => .error ⟨.unavailable, s!"publish settlement work: {e}"⟩

def apiError {α : Type} (code : ErrCode) : Except String α → Except ApiError α
  | .ok a => .ok a
  | .error message => .error ⟨code, message⟩

section Checks

variable (now : DateTime) (db : Db)

def requireOpen : TradeState → Except ApiError Unit
  | .open => .ok ()
  | .cancelled => .error ⟨.failedPrecondition, "trade is cancelled"⟩
  | .completed => .error ⟨.failedPrecondition, "trade is completed"⟩

def loadAcceptableTrade (tradeInstanceId : String) (requestedQuantity : Int) :
    Except ApiError TradeSnapshot := do
  let trade ← apiError .failedPrecondition (loadTrade db tradeInstanceId)
  requireOpen trade.tradeState
  check (trade.escrowReleased = false)
    ⟨.failedPrecondition, s!"item_stack_escrow {trade.itemStackEscrowId} is already released"⟩
  check (∀ t ∈ trade.expiresAt, now < t) ⟨.failedPrecondition, "trade is expired"⟩
  check (requestedQuantity ≤ trade.escrowQuantity)
    ⟨.failedPrecondition, s!"item_stack_escrow {trade.itemStackEscrowId} has {trade.escrowQuantity}, requested {requestedQuantity}"⟩
  pure trade

def loadCancellableTrade (tradeInstanceId : String) (cancelledByCapsuleerId : Int) :
    Except ApiError TradeSnapshot := do
  let trade ← apiError .failedPrecondition (loadTrade db tradeInstanceId)
  check (cancelledByCapsuleerId = trade.issuerId)
    ⟨.permissionDenied, "only the trade issuer can cancel this trade"⟩
  requireOpen trade.tradeState
  check (trade.escrowReleased = false ∧ 0 < trade.escrowQuantity)
    ⟨.failedPrecondition, s!"item_stack_escrow {trade.itemStackEscrowId} is already released"⟩
  pure trade

def maxInt64 : Int := 2 ^ 63 - 1

def checkedIskAmount (quantity unitPriceIsk : Int) : Except String Int :=
  if unitPriceIsk < 0 then .error "unit_price_isk must be non-negative"
  else if unitPriceIsk ≠ 0 ∧ maxInt64 / unitPriceIsk < quantity then
    .error "trade price overflows int64"
  else .ok (quantity * unitPriceIsk)

def validateBuyerDestination (destinationItemStackId : String) (buyerCapsuleerId : Int)
    (trade : TradeSnapshot) : Except ApiError Unit :=
  if destinationItemStackId = "" then .ok ()
  else do
    let destination ← apiError .failedPrecondition (loadItemStack db destinationItemStackId)
    check (destination.ownerId = buyerCapsuleerId)
      ⟨.failedPrecondition, "buyer_destination_item_stack_id is not owned by buyer_capsuleer_id"⟩
    check (destination.stackState = .active)
      ⟨.failedPrecondition, "buyer destination item stack is not ACTIVE"⟩
    check (destination.itemTypeId = trade.itemTypeId ∧ destination.stationId = trade.stationId)
      ⟨.failedPrecondition, "buyer destination item stack must match trade item type and station"⟩

end Checks

section Plans

variable (ext : External) (now : DateTime) (db : Db)

def attachRequestFingerprint (kind : RequestKind) (body : String) (plan : SettlementPlan) :
    SettlementPlan :=
  { plan with requestFingerprint := marketRequestFingerprint ext kind body }

/-- The item stack as it is stored, not as the request describes it. -/
def planIssue (message : IssueTradeInstanceRequest) : Except ApiError SettlementPlan := do
  let stack ← apiError .failedPrecondition
    (loadItemStack db (stackOrZero message.itemStack).itemStackId)
  check (stack.stackState = .active) ⟨.failedPrecondition, "item_stack is not ACTIVE"⟩
  let plan ← apiError .invalidArgument (GameTrade.issueTradeInstance ext now {
    idempotencyKey := message.idempotencyKey
    externalRequestId := message.externalRequestId
    issuedByCapsuleerId := message.issuedByCapsuleerId
    itemStack := ⟨stack.itemStackId, stack.ownerId, stack.itemTypeId, stack.stationId,
      stack.quantity⟩
    quantity := message.quantity
    unitPriceIsk := message.unitPriceIsk
    expiresAt := message.expiresAt
    tradeInstanceId := ""
    itemStackEscrowId := "" })
  pure (attachRequestFingerprint ext .issueTradeInstance message.marshal plan)

def acceptInput (message : AcceptTradeInstanceRequest) (trade : TradeSnapshot)
    (sellerWallet : WalletSnapshot) (iskAmountPaid : Int) : AcceptTradeInstanceInput where
  idempotencyKey := message.idempotencyKey
  externalRequestId := message.externalRequestId
  tradeInstanceId := message.tradeInstanceId
  buyerCapsuleerId := message.buyerCapsuleerId
  sellerCapsuleerId := trade.issuerId
  itemTypeId := trade.itemTypeId
  stationId := trade.stationId
  quantityRequested := message.quantityRequested
  iskAmountPaid := iskAmountPaid
  buyerWalletId := message.buyerWalletId
  sellerWalletId := sellerWallet.walletId
  itemStackEscrowId := trade.itemStackEscrowId
  buyerDestinationItemStackId := message.buyerDestinationItemStackId
  createBuyerDestinationItemStack := message.buyerDestinationItemStackId = ""
  walletEscrowId := ""
  completeTrade := message.quantityRequested = trade.escrowQuantity

def planAccept (message : AcceptTradeInstanceRequest) : Except ApiError SettlementPlan := do
  let trade ← loadAcceptableTrade now db message.tradeInstanceId message.quantityRequested
  let buyerWallet ← apiError .failedPrecondition (loadWallet db message.buyerWalletId)
  check (buyerWallet.capsuleerId = message.buyerCapsuleerId)
    ⟨.failedPrecondition, "buyer_wallet_id is not owned by buyer_capsuleer_id"⟩
  check (buyerWallet.walletState = .active) ⟨.failedPrecondition, "buyer wallet is not ACTIVE"⟩
  let sellerWallet ← apiError .failedPrecondition (loadPrimaryWallet db trade.issuerId)
  check (sellerWallet.walletState = .active) ⟨.failedPrecondition, "seller wallet is not ACTIVE"⟩
  validateBuyerDestination db message.buyerDestinationItemStackId message.buyerCapsuleerId trade
  let iskAmountPaid ← apiError .invalidArgument
    (checkedIskAmount message.quantityRequested trade.unitPriceIsk)
  let plan ← apiError .invalidArgument
    (GameTrade.acceptTradeInstance ext (acceptInput message trade sellerWallet iskAmountPaid))
  pure (attachRequestFingerprint ext .acceptTradeInstance message.marshal plan)

def planCancel (message : CancelTradeInstanceRequest) : Except ApiError SettlementPlan := do
  let trade ← loadCancellableTrade db message.tradeInstanceId message.cancelledByCapsuleerId
  let plan ← apiError .invalidArgument (GameTrade.cancelTradeInstance ext {
    idempotencyKey := message.idempotencyKey
    externalRequestId := message.externalRequestId
    tradeInstanceId := message.tradeInstanceId
    cancelledByCapsuleerId := message.cancelledByCapsuleerId
    itemStackEscrowId := trade.itemStackEscrowId
    returnItemStackId := trade.sourceItemStackId
    returnQuantity := trade.escrowQuantity
    walletEscrowId := ""
    returnWalletId := ""
    returnIskAmount := 0 })
  pure (attachRequestFingerprint ext .cancelTradeInstance message.marshal plan)

end Plans

section Handlers

variable (ext : External) (now : DateTime) (db : Db)

/-- What the three handlers share: the rules, the replay, the plan, and the work of the plan. -/
def submit {ρ : Type} (violations : List FieldText.Violation)
    (replay : Except ApiError (Option ρ)) (plan : Except ApiError SettlementPlan)
    (respond : SettlementPlan → SettlementPublication → ρ) : Except ApiError (Submission ρ) := do
  validateMarketProto ext violations
  match ← replay with
  | some result => pure (.replayed result)
  | none => do
    let plan ← plan
    let work ← apiError .invalidArgument (settleTradeInstance plan)
    pure (.planned work (respond plan))

def issueTradeInstance (message : IssueTradeInstanceRequest) :
    Except ApiError (Submission IssueTradeInstanceResult) :=
  submit ext (message.violations now) (replayIssueTradeInstance ext db message)
    (planIssue ext now db message) fun plan publication =>
      ⟨publication.operationId, publication.queuedAt, plan.tradeInstanceId,
        plan.itemStackEscrowId, ""⟩

def acceptTradeInstance (message : AcceptTradeInstanceRequest) :
    Except ApiError (Submission AcceptTradeInstanceResult) :=
  submit ext message.violations (replayAcceptTradeInstance ext db message)
    (planAccept ext now db message) fun plan publication =>
      ⟨publication.operationId, publication.queuedAt, plan.walletEscrowId,
        plan.destinationItemStackId, ""⟩

def cancelTradeInstance (message : CancelTradeInstanceRequest) :
    Except ApiError (Submission CancelTradeInstanceResult) :=
  submit ext message.violations (replayCancelTradeInstance ext db message)
    (planCancel ext db message) fun _ publication =>
      ⟨publication.operationId, publication.queuedAt, ""⟩

end Handlers

section Requests

/-- A request to any of the three handlers. -/
inductive Request where
  | issue (message : IssueTradeInstanceRequest)
  | accept (message : AcceptTradeInstanceRequest)
  | cancel (message : CancelTradeInstanceRequest)

def Request.intent : Request → String
  | issue _ => intentIssue
  | accept _ => intentAccept
  | cancel _ => intentCancel

def Request.idempotencyKey : Request → String
  | issue m => m.idempotencyKey
  | accept m => m.idempotencyKey
  | cancel m => m.idempotencyKey

def Request.externalRequestId : Request → String
  | issue m => m.externalRequestId
  | accept m => m.externalRequestId
  | cancel m => m.externalRequestId

def Request.actor : Request → Int
  | issue m => m.issuedByCapsuleerId
  | accept m => m.buyerCapsuleerId
  | cancel m => m.cancelledByCapsuleerId

def planned {ρ : Type} : Except ApiError (Submission ρ) → Option Work
  | .ok submission => submission.work?
  | .error _ => none

def Request.work? (ext : External) (now : DateTime) (db : Db) : Request → Option Work
  | issue m => planned (issueTradeInstance ext now db m)
  | accept m => planned (acceptTradeInstance ext now db m)
  | cancel m => planned (cancelTradeInstance ext db m)

variable {ext : External} {now : DateTime} {db : Db} {work : Work} {plan : SettlementPlan}

theorem apiError_eq_ok {α : Type} {code : ErrCode} {x : Except String α} {a : α} :
    apiError code x = .ok a ↔ x = .ok a := by
  cases x <;> simp [apiError]

theorem planned_submit {ρ : Type} {violations : List FieldText.Violation}
    {replay : Except ApiError (Option ρ)} {plan : Except ApiError SettlementPlan}
    {respond : SettlementPlan → SettlementPublication → ρ}
    (h : planned (submit ext violations replay plan respond) = some work) :
    violations = [] ∧ replay = .ok none ∧ ∃ p, plan = .ok p ∧ work = planWork p := by
  cases hs : submit ext violations replay plan respond with
  | error e =>
    rw [hs] at h
    cases h
  | ok submission =>
    rw [hs] at h
    obtain ⟨_, hvalid, hs⟩ := except_bind_eq_ok.1 hs
    obtain ⟨found, hreplay, hs⟩ := except_bind_eq_ok.1 hs
    cases found with
    | some result =>
      obtain rfl := Except.ok.inj hs
      cases h
    | none =>
      obtain ⟨p, hp, hs⟩ := except_bind_eq_ok.1 hs
      obtain ⟨w, hw, hs⟩ := except_bind_eq_ok.1 hs
      obtain rfl := Except.ok.inj hs
      obtain rfl := Option.some.inj h
      refine ⟨?_, hreplay, p, hp, settleTradeInstance_eq_ok (apiError_eq_ok.1 hw)⟩
      unfold validateMarketProto at hvalid
      split_ifs at hvalid with hv
      exact hv

theorem planIssue_eq_ok {m : IssueTradeInstanceRequest} (h : planIssue ext now db m = .ok plan) :
    ∃ input tradeInstanceId itemStackEscrowId,
      input.idempotencyKey = m.idempotencyKey ∧ input.externalRequestId = m.externalRequestId ∧
      input.issuedByCapsuleerId = m.issuedByCapsuleerId ∧
      plan = attachRequestFingerprint ext .issueTradeInstance m.marshal
        (issuePlan input tradeInstanceId itemStackEscrowId) := by
  obtain ⟨stack, _, h⟩ := except_bind_eq_ok.1 h
  obtain ⟨_, _, h⟩ := except_bind_eq_ok.1 h
  obtain ⟨p, hp, h⟩ := except_bind_eq_ok.1 h
  obtain ⟨tradeInstanceId, itemStackEscrowId, rfl⟩ :=
    issueTradeInstance_eq_ok (apiError_eq_ok.1 hp)
  exact ⟨_, tradeInstanceId, itemStackEscrowId, rfl, rfl, rfl, (Except.ok.inj h).symm⟩

theorem loadAcceptableTrade_eq_ok {tradeInstanceId : String} {quantity : Int}
    {trade : TradeSnapshot} (h : loadAcceptableTrade now db tradeInstanceId quantity = .ok trade) :
    loadTrade db tradeInstanceId = .ok trade := by
  obtain ⟨found, hload, h⟩ := except_bind_eq_ok.1 h
  obtain ⟨_, _, h⟩ := except_bind_eq_ok.1 h
  obtain ⟨_, _, h⟩ := except_bind_eq_ok.1 h
  obtain ⟨_, _, h⟩ := except_bind_eq_ok.1 h
  obtain ⟨_, _, h⟩ := except_bind_eq_ok.1 h
  obtain rfl := Except.ok.inj h
  exact apiError_eq_ok.1 hload

theorem planAccept_eq_ok {m : AcceptTradeInstanceRequest} (h : planAccept ext now db m = .ok plan) :
    ∃ trade sellerWallet iskAmountPaid destinationItemStackId walletEscrowId,
      loadTrade db m.tradeInstanceId = .ok trade ∧
      plan = attachRequestFingerprint ext .acceptTradeInstance m.marshal
        (acceptPlan (acceptInput m trade sellerWallet iskAmountPaid) destinationItemStackId
          walletEscrowId) := by
  obtain ⟨trade, htrade, h⟩ := except_bind_eq_ok.1 h
  obtain ⟨buyerWallet, _, h⟩ := except_bind_eq_ok.1 h
  obtain ⟨_, _, h⟩ := except_bind_eq_ok.1 h
  obtain ⟨_, _, h⟩ := except_bind_eq_ok.1 h
  obtain ⟨sellerWallet, _, h⟩ := except_bind_eq_ok.1 h
  obtain ⟨_, _, h⟩ := except_bind_eq_ok.1 h
  obtain ⟨_, _, h⟩ := except_bind_eq_ok.1 h
  obtain ⟨iskAmountPaid, _, h⟩ := except_bind_eq_ok.1 h
  obtain ⟨p, hp, h⟩ := except_bind_eq_ok.1 h
  obtain ⟨destinationItemStackId, walletEscrowId, rfl⟩ :=
    acceptTradeInstance_eq_ok (apiError_eq_ok.1 hp)
  exact ⟨trade, sellerWallet, iskAmountPaid, destinationItemStackId, walletEscrowId,
    loadAcceptableTrade_eq_ok htrade, (Except.ok.inj h).symm⟩

theorem planCancel_eq_ok {m : CancelTradeInstanceRequest} (h : planCancel ext db m = .ok plan) :
    ∃ input : CancelTradeInstanceInput,
      input.idempotencyKey = m.idempotencyKey ∧ input.externalRequestId = m.externalRequestId ∧
      input.cancelledByCapsuleerId = m.cancelledByCapsuleerId ∧
      plan = attachRequestFingerprint ext .cancelTradeInstance m.marshal (cancelPlan input) := by
  obtain ⟨trade, _, h⟩ := except_bind_eq_ok.1 h
  obtain ⟨p, hp, h⟩ := except_bind_eq_ok.1 h
  obtain rfl := cancelTradeInstance_eq_ok (apiError_eq_ok.1 hp)
  exact ⟨_, rfl, rfl, rfl, (Except.ok.inj h).symm⟩

/-- What the work of a request carries of the request. -/
structure Carries (request : Request) (work : Work) : Prop where
  intent : work.intent = request.intent
  idempotencyKey : work.idempotencyKey = request.idempotencyKey
  externalRequestId : work.externalRequestId = request.externalRequestId
  actor : work.causedByCapsuleerId = request.actor

theorem work?_carries {request : Request} (h : request.work? ext now db = some work) :
    Carries request work := by
  cases request with
  | issue m =>
    obtain ⟨_, _, p, hp, rfl⟩ := planned_submit h
    obtain ⟨input, _, _, hkey, hexternal, hactor, rfl⟩ := planIssue_eq_ok hp
    exact ⟨rfl, hkey, hexternal, hactor⟩
  | accept m =>
    obtain ⟨_, _, p, hp, rfl⟩ := planned_submit h
    obtain ⟨_, _, _, _, _, _, rfl⟩ := planAccept_eq_ok hp
    exact ⟨rfl, rfl, rfl, rfl⟩
  | cancel m =>
    obtain ⟨_, _, p, hp, rfl⟩ := planned_submit h
    obtain ⟨input, hkey, hexternal, hactor, rfl⟩ := planCancel_eq_ok hp
    exact ⟨rfl, hkey, hexternal, hactor⟩

theorem accept_work {m : AcceptTradeInstanceRequest}
    (h : (Request.accept m).work? ext now db = some work) :
    ∃ trade sellerWallet iskAmountPaid destinationItemStackId walletEscrowId,
      loadTrade db m.tradeInstanceId = .ok trade ∧
      work.operations = (acceptPlan (acceptInput m trade sellerWallet iskAmountPaid)
        destinationItemStackId walletEscrowId).operations := by
  obtain ⟨_, _, p, hp, rfl⟩ := planned_submit h
  obtain ⟨trade, sellerWallet, iskAmountPaid, destinationItemStackId, walletEscrowId, htrade,
    rfl⟩ := planAccept_eq_ok hp
  exact ⟨trade, sellerWallet, iskAmountPaid, destinationItemStackId, walletEscrowId, htrade, rfl⟩

end Requests

end EveTrade.MarketHandler
