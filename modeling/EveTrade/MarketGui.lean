import EveTrade.MarketHandler

set_option autoImplicit false

/-!
# Interactions with the trade window

An interaction names an action of the trade window and carries what was typed there. The market
decodes it, trims its texts, checks the rules it declares, and hands it to the handler that the
action stands for.
-/
namespace EveTrade.MarketGui

open FieldText TransactionMonad SettlementTypes
open EveTrade.SettlementSchema (Db)
open SettlementWork SettlementDelivery ValidationRules GameTrade MarketRequests MarketReplay
  MarketHandler

structure TradeGuiUi where
  window : String
  button : String
  action : String
  controlId : String
deriving DecidableEq, Inhabited

structure TradeGuiInput where
  idempotencyKey : String
  externalRequestId : String
  issuedByCapsuleerId : Int
  cancelledByCapsuleerId : Int
  tradeInstanceId : String
  buyerCapsuleerId : Int
  quantity : Int
  quantityRequested : Int
  unitPriceIsk : Int
  buyerWalletId : String
  buyerDestinationItemStackId : String
  itemStack : Option ItemStackRow
  expiresAt : Option DateTime
  sellerCapsuleerId : Int
  acceptedByCapsuleerId : Int
  delegatedCapsuleerId : Int
  itemTypeId : Int
  stationId : Int
  sellerWalletId : String
deriving DecidableEq

structure TradeGuiInteraction where
  schemaVersion : String
  interactionId : String
  ui : Option TradeGuiUi
  input : Option TradeGuiInput
deriving DecidableEq

def TradeGuiInput.unset : TradeGuiInput where
  idempotencyKey := ""
  externalRequestId := ""
  issuedByCapsuleerId := 0
  cancelledByCapsuleerId := 0
  tradeInstanceId := ""
  buyerCapsuleerId := 0
  quantity := 0
  quantityRequested := 0
  unitPriceIsk := 0
  buyerWalletId := ""
  buyerDestinationItemStackId := ""
  itemStack := none
  expiresAt := none
  sellerCapsuleerId := 0
  acceptedByCapsuleerId := 0
  delegatedCapsuleerId := 0
  itemTypeId := 0
  stationId := 0
  sellerWalletId := ""

def TradeGuiInteraction.getUi (i : TradeGuiInteraction) : TradeGuiUi := i.ui.getD ⟨"", "", "", ""⟩

def TradeGuiInteraction.getInput (i : TradeGuiInteraction) : TradeGuiInput := i.input.getD .unset

section Rules

variable (now : DateTime)

def issueRequiredFields : Rule TradeGuiInteraction where
  id := "market.gui.issue_required_fields"
  message := "issue trade GUI input requires seller, item stack, quantity, and unit price"
  holds := fun i => !issueActions.contains i.getUi.action ||
    (decide (0 < i.getInput.issuedByCapsuleerId) && i.getInput.itemStack.isSome &&
      decide (0 < i.getInput.quantity) && decide (0 < i.getInput.unitPriceIsk))

def acceptRequiredFields : Rule TradeGuiInteraction where
  id := "market.gui.accept_required_fields"
  message := "accept trade GUI input requires buyer, trade, positive quantity_requested, and buyer wallet"
  holds := fun i => !acceptActions.contains i.getUi.action ||
    (decide (0 < i.getInput.buyerCapsuleerId) && i.getInput.tradeInstanceId != "" &&
      (decide (0 < i.getInput.quantityRequested) || decide (0 < i.getInput.quantity)) &&
      i.getInput.buyerWalletId != "")

def cancelRequiredFields : Rule TradeGuiInteraction where
  id := "market.gui.cancel_required_fields"
  message := "cancel trade GUI input requires issuer and trade"
  holds := fun i => !cancelActions.contains i.getUi.action ||
    (decide (0 < i.getInput.cancelledByCapsuleerId) && i.getInput.tradeInstanceId != "")

def TradeGuiUi.violations (ui : TradeGuiUi) : List Violation :=
  tradeGuiAction.check "action" ui.action

def TradeGuiInput.violations (input : TradeGuiInput) : List Violation :=
  optionalUuidString.check "trade_instance_id" input.tradeInstanceId ++
  nonNegative.check "quantity" input.quantity ++
  nonNegative.check "quantity_requested" input.quantityRequested ++
  nonNegative.check "unit_price_isk" input.unitPriceIsk ++
  optionalUuidString.check "buyer_wallet_id" input.buyerWalletId ++
  optionalUuidString.check "buyer_destination_item_stack_id" input.buyerDestinationItemStackId ++
  (match input.itemStack with
    | none => []
    | some s => within "item_stack" s.violations) ++
  (gtNow now).checkPresent "expires_at" input.expiresAt ++
  optionalUuidString.check "seller_wallet_id" input.sellerWalletId

/-- A message that must be there, with its own rules. -/
def requiredMessage {α : Type} (fieldPath : String) (violations : α → List Violation) :
    Option α → List Violation
  | none => required.check fieldPath false
  | some a => within fieldPath (violations a)

def TradeGuiInteraction.violations (i : TradeGuiInteraction) : List Violation :=
  issueRequiredFields.check "" i ++
  acceptRequiredFields.check "" i ++
  cancelRequiredFields.check "" i ++
  tradeGuiSchemaVersion.check "schema_version" i.schemaVersion ++
  nonBlankString.check "interaction_id" i.interactionId ++
  requiredMessage "ui" TradeGuiUi.violations i.ui ++
  requiredMessage "input" (TradeGuiInput.violations now) i.input

end Rules

section Normalizing

def normalizeUi (ui : TradeGuiUi) : TradeGuiUi :=
  ⟨trim ui.window, trim ui.button, trim ui.action, trim ui.controlId⟩

def normalizeInput (input : TradeGuiInput) : TradeGuiInput :=
  { input with
    idempotencyKey := trim input.idempotencyKey
    externalRequestId := trim input.externalRequestId
    tradeInstanceId := trim input.tradeInstanceId
    buyerWalletId := trim input.buyerWalletId
    buyerDestinationItemStackId := trim input.buyerDestinationItemStackId
    itemStack := input.itemStack.map fun s => { s with itemStackId := trim s.itemStackId } }

def normalizeTradeGuiInteraction (i : TradeGuiInteraction) : TradeGuiInteraction where
  schemaVersion := trim i.schemaVersion
  interactionId := trim i.interactionId
  ui := i.ui.map normalizeUi
  input := i.input.map normalizeInput

def quantityRequestedFromProto (input : TradeGuiInput) : Int :=
  if 0 < input.quantityRequested then input.quantityRequested else input.quantity

/-- The keys of a request default to the id of the interaction. -/
def orInteractionId (i : TradeGuiInteraction) (key : String) : String :=
  if key = "" then i.interactionId else key

def normalizeTradeGuiInput (i : TradeGuiInteraction) : TradeGuiInput :=
  { i.getInput with
    idempotencyKey := orInteractionId i i.getInput.idempotencyKey
    externalRequestId := orInteractionId i i.getInput.externalRequestId
    quantityRequested := quantityRequestedFromProto i.getInput }

end Normalizing

/-- `protojson`, which either refuses or skips the fields that a message does not declare. -/
structure ProtoJson where
  unmarshal (discardUnknown : Bool) (body : ByteArray) : Except String TradeGuiInteraction

/-- What a decoder that refuses unknown fields accepts, one that skips them reads alike. -/
def ProtoJson.Consistent (p : ProtoJson) : Prop :=
  ∀ body interaction, p.unmarshal false body = .ok interaction →
    p.unmarshal true body = .ok interaction

section Submitting

inductive TradeActionKind where
  | issue | accept | cancel
deriving DecidableEq

def tradeGuiActions : List (String × TradeActionKind) :=
  [("market_place_sell_order", .issue), ("contract_create_item_exchange", .issue),
    ("direct_trade_offer", .issue), ("market_buy_from_sell_order", .accept),
    ("contract_accept_item_exchange", .accept), ("direct_trade_accept", .accept),
    ("market_cancel_order", .cancel), ("contract_cancel_item_exchange", .cancel),
    ("direct_trade_cancel", .cancel)]

structure SubmitTradeGuiInteractionResponse where
  interactionId : String
  operationId : String
  queuedAt : DateTime
  status : String
  settlementBatchId : String
  tradeInstanceId : String
  itemStackEscrowId : String
  walletEscrowId : String
  buyerDestinationItemStackId : String
deriving DecidableEq

variable (ext : External) (now : DateTime) (db : Db) (protojson : ProtoJson)

def decodeTradeGuiInteraction (rawPayload : ByteArray) : Except ApiError TradeGuiInteraction :=
  match protojson.unmarshal false rawPayload with
  | .error e => .error ⟨.invalidArgument, s!"decode trade GUI packet: {e}"⟩
  | .ok interaction => do
    let interaction := normalizeTradeGuiInteraction interaction
    validateMarketProto ext (interaction.violations now)
    pure interaction

def issueRequest (input : TradeGuiInput) : IssueTradeInstanceRequest where
  idempotencyKey := input.idempotencyKey
  externalRequestId := input.externalRequestId
  issuedByCapsuleerId := input.issuedByCapsuleerId
  itemStack := input.itemStack
  quantity := input.quantity
  unitPriceIsk := input.unitPriceIsk
  expiresAt := input.expiresAt

def acceptRequest (input : TradeGuiInput) : AcceptTradeInstanceRequest where
  idempotencyKey := input.idempotencyKey
  externalRequestId := input.externalRequestId
  tradeInstanceId := input.tradeInstanceId
  buyerCapsuleerId := input.buyerCapsuleerId
  quantityRequested := input.quantityRequested
  buyerWalletId := input.buyerWalletId
  buyerDestinationItemStackId := input.buyerDestinationItemStackId

def cancelRequest (input : TradeGuiInput) : CancelTradeInstanceRequest where
  idempotencyKey := input.idempotencyKey
  externalRequestId := input.externalRequestId
  tradeInstanceId := input.tradeInstanceId
  cancelledByCapsuleerId := input.cancelledByCapsuleerId

def Submission.map {α β : Type} (f : α → β) : Submission α → Submission β
  | .replayed result => .replayed (f result)
  | .planned work respond => .planned work (f ∘ respond)

def submitIssueTrade (interactionId : String) (input : TradeGuiInput) :
    Except ApiError (Submission SubmitTradeGuiInteractionResponse) := do
  let submission ← issueTradeInstance ext now db (issueRequest input)
  pure (Submission.map (fun r => ⟨interactionId, r.operationId, r.queuedAt, "queued",
    r.settlementBatchId, r.tradeInstanceId, r.itemStackEscrowId, "", ""⟩) submission)

def submitAcceptTrade (interactionId : String) (input : TradeGuiInput) :
    Except ApiError (Submission SubmitTradeGuiInteractionResponse) := do
  let submission ← acceptTradeInstance ext now db (acceptRequest input)
  pure (Submission.map (fun r => ⟨interactionId, r.operationId, r.queuedAt, "queued",
    r.settlementBatchId, "", "", r.walletEscrowId, r.buyerDestinationItemStackId⟩) submission)

def submitCancelTrade (interactionId : String) (input : TradeGuiInput) :
    Except ApiError (Submission SubmitTradeGuiInteractionResponse) := do
  let submission ← cancelTradeInstance ext db (cancelRequest input)
  pure (Submission.map (fun r => ⟨interactionId, r.operationId, r.queuedAt, "queued",
    r.settlementBatchId, "", "", "", ""⟩) submission)

def submitTradeGuiInteraction (rawPayload : ByteArray) :
    Except ApiError (Submission SubmitTradeGuiInteractionResponse) := do
  validateMarketProto ext (minBytes.check "raw_payload" rawPayload.size)
  let interaction ← decodeTradeGuiInteraction ext now protojson rawPayload
  let input := normalizeTradeGuiInput interaction
  match tradeGuiActions.lookup interaction.getUi.action with
  | some .issue => submitIssueTrade ext now db interaction.interactionId input
  | some .accept => submitAcceptTrade ext now db interaction.interactionId input
  | some .cancel => submitCancelTrade ext db interaction.interactionId input
  | none => .error ⟨.invalidArgument, "unsupported trade GUI action"⟩

end Submitting

section Actors

variable {ext : External} {now : DateTime} {db : Db} {protojson : ProtoJson} {work : Work}

/-- The input field that names the actor of an action. -/
def TradeActionKind.actor : TradeActionKind → TradeGuiInput → Int
  | issue, input => input.issuedByCapsuleerId
  | accept, input => input.buyerCapsuleerId
  | cancel, input => input.cancelledByCapsuleerId

theorem normalize_action (i : TradeGuiInteraction) :
    (normalizeTradeGuiInteraction i).getUi.action = trim i.getUi.action := by
  unfold TradeGuiInteraction.getUi normalizeTradeGuiInteraction
  cases i.ui with
  | none => rfl
  | some ui => rfl

theorem normalize_actor (i : TradeGuiInteraction) (kind : TradeActionKind) :
    kind.actor (normalizeTradeGuiInput (normalizeTradeGuiInteraction i)) =
      kind.actor i.getInput := by
  unfold normalizeTradeGuiInput TradeGuiInteraction.getInput normalizeTradeGuiInteraction
  cases i.input <;> cases kind <;> rfl

theorem decodeTradeGuiInteraction_eq_ok {rawPayload : ByteArray} {i : TradeGuiInteraction}
    (h : decodeTradeGuiInteraction ext now protojson rawPayload = .ok i) :
    ∃ sent, protojson.unmarshal false rawPayload = .ok sent ∧
      i = normalizeTradeGuiInteraction sent := by
  unfold decodeTradeGuiInteraction at h
  cases hsent : protojson.unmarshal false rawPayload with
  | error e =>
    rw [hsent] at h
    cases h
  | ok sent =>
    rw [hsent] at h
    obtain ⟨_, _, h⟩ := except_bind_eq_ok.1 h
    exact ⟨sent, rfl, (Except.ok.inj h).symm⟩

theorem planned_map {α β : Type} {f : α → β} {x : Except ApiError (Submission α)}
    (h : planned (x >>= fun s => pure (Submission.map f s)) = some work) :
    planned x = some work := by
  cases x with
  | error e => cases h
  | ok submission =>
    cases submission with
    | replayed result => cases h
    | planned w respond => exact h

/-- The request that an action of the window is turned into. -/
def TradeActionKind.request : TradeActionKind → TradeGuiInput → Request
  | issue, input => .issue (issueRequest input)
  | accept, input => .accept (acceptRequest input)
  | cancel, input => .cancel (cancelRequest input)

theorem actor_request (kind : TradeActionKind) (input : TradeGuiInput) :
    (kind.request input).actor = kind.actor input := by
  cases kind <;> rfl

theorem submitted_request {rawPayload : ByteArray}
    (h : planned (submitTradeGuiInteraction ext now db protojson rawPayload) = some work) :
    ∃ sent kind, protojson.unmarshal false rawPayload = .ok sent ∧
      tradeGuiActions.lookup (trim sent.getUi.action) = some kind ∧
      (kind.request (normalizeTradeGuiInput (normalizeTradeGuiInteraction sent))).work? ext now db
        = some work := by
  cases hs : submitTradeGuiInteraction ext now db protojson rawPayload with
  | error e =>
    rw [hs] at h
    cases h
  | ok submission =>
    rw [hs] at h
    obtain ⟨_, _, hs⟩ := except_bind_eq_ok.1 hs
    obtain ⟨i, hi, hs⟩ := except_bind_eq_ok.1 hs
    obtain ⟨sent, hsent, rfl⟩ := decodeTradeGuiInteraction_eq_ok hi
    rw [normalize_action] at hs
    cases hkind : tradeGuiActions.lookup (trim sent.getUi.action) with
    | none =>
      rw [hkind] at hs
      cases hs
    | some kind =>
      rw [hkind] at hs
      refine ⟨sent, kind, hsent, hkind, ?_⟩
      cases kind <;> exact planned_map (by rw [← h, ← hs]; rfl)

/-- The capsuleer who acts by the work is the one whom the field of the action names. -/
theorem submitted_actor {rawPayload : ByteArray}
    (h : planned (submitTradeGuiInteraction ext now db protojson rawPayload) = some work) :
    ∃ sent kind, protojson.unmarshal false rawPayload = .ok sent ∧
      tradeGuiActions.lookup (trim sent.getUi.action) = some kind ∧
      work.causedByCapsuleerId = kind.actor sent.getInput := by
  obtain ⟨sent, kind, hsent, hkind, hwork⟩ := submitted_request h
  refine ⟨sent, kind, hsent, hkind, ?_⟩
  rw [(work?_carries hwork).actor, actor_request, normalize_actor]

end Actors

end EveTrade.MarketGui
