import EveTrade.MarketGui
import EveTrade.MarketPlanning
import EveTrade.SettlementOperationChanges

set_option autoImplicit false

/-!
# One key from the market to the record

The market looks up a replay and queues the operation under the key as a request brings it; the
settlement service trims the key before it looks for a record, writes one or completes the operation.
The trade window trims the key first, the other ways into the market do not.
-/
namespace EveTrade.IdempotencyKeys

open KeyedTable FieldText UuidText SettlementTypes SettlementCommands SettlementSchema
  SettlementExecutor SettlementWork SettlementService SettlementDelivery SettlementOperationChanges
  MarketHandler MarketGui

section Entries

/-- The ways into the market. -/
inductive Entry where
  | rpc (request : Request)
  | gui (rawPayload : ByteArray)

/-- The request that the market handles for what has come in, and the work it plans for it. -/
inductive Handled (ext : External) (now : DateTime) (db : Db) (protojson : ProtoJson) (work : Work) :
    Entry → Request → Prop
  | rpc {request : Request} (planned : request.work? ext now db = some work) :
      Handled ext now db protojson work (.rpc request) request
  | gui {rawPayload : ByteArray} {sent : TradeGuiInteraction} {kind : TradeActionKind}
      (submitted :
        planned (submitTradeGuiInteraction ext now db protojson rawPayload) = some work)
      (decoded : protojson.unmarshal false rawPayload = .ok sent)
      (action : tradeGuiActions.lookup (trim sent.getUi.action) = some kind) :
      Handled ext now db protojson work (.gui rawPayload)
        (kind.request (normalizeTradeGuiInput (normalizeTradeGuiInteraction sent)))

variable {ext : External} {now : DateTime} {db : Db} {protojson : ProtoJson} {work : Work}
  {entry : Entry} {request : Request}

theorem Handled.work? (h : Handled ext now db protojson work entry request) :
    request.work? ext now db = some work := by
  cases h with
  | rpc planned => exact planned
  | gui submitted decoded action =>
    obtain ⟨sent, kind, hsent, hkind, hwork⟩ := submitted_request submitted
    obtain rfl := Except.ok.inj (hsent.symm.trans decoded)
    obtain rfl := Option.some.inj (hkind.symm.trans action)
    exact hwork

theorem key_request (kind : TradeActionKind) (input : TradeGuiInput) :
    (kind.request input).idempotencyKey = input.idempotencyKey := by
  cases kind <;> rfl

theorem trim_empty : trim "" = "" := by decide

theorem trim_normalized_key (sent : TradeGuiInteraction) :
    trim (normalizeTradeGuiInteraction sent).getInput.idempotencyKey =
      (normalizeTradeGuiInteraction sent).getInput.idempotencyKey := by
  unfold TradeGuiInteraction.getInput normalizeTradeGuiInteraction
  cases sent.input with
  | none => exact trim_empty
  | some input => exact trim_trim _

theorem Handled.gui_trimmed {rawPayload : ByteArray}
    (h : Handled ext now db protojson work (.gui rawPayload) request) :
    trim request.idempotencyKey = request.idempotencyKey := by
  cases h with
  | @gui _ sent kind submitted decoded action =>
    rw [key_request]
    unfold normalizeTradeGuiInput orInteractionId
    dsimp only
    split_ifs
    · exact trim_trim _
    · exact trim_normalized_key sent

end Entries

section Keys

variable {ext : External} {now : DateTime} {db : Db} {work : Work} {request : Request}
  {command : ExecuteBatchCommand}

theorem record_key {operation : SettlementOperationStatus} {t : DateTime}
    (planned : request.work? ext now db = some work)
    (h : tryFrom ext t (requestOf (queuedWork work operation)) = .ok command) :
    command.idempotencyKey = trim request.idempotencyKey := by
  rw [(tryFrom_eq_ok h).idempotencyKey, ← (work?_carries planned).idempotencyKey]
  rfl

/-- Completing the key `k` completes the waiting operation `o` exactly when `o` was queued under `k`. -/
theorem completed_iff {k : String} {db db' : Db} {id : Uuid} {o : SettlementOperationRow}
    (effect : ExecutionEffect k db db' id) (ho : o ∈ db.settlementOperation.rows)
    (waiting : o.operationState = .queued ∨ o.operationState = .processing) :
    (∃ o' ∈ db'.settlementOperation.rows, o'.idempotencyKey = o.idempotencyKey ∧
      o'.operationState = .succeeded ∧ o'.settlementBatchId = some id) ↔ k = o.idempotencyKey := by
  rw [effect.operations]
  constructor
  · rintro ⟨o', ho', hkey, hstate, -⟩
    by_contra hne
    obtain ⟨q, hq, rfl⟩ :=
      (Table.mem_modify _ k (succeedOperation id) (succeedOperation_key id) o').1 ho'
    by_cases hk : Keyed.key q = k
    · rw [if_pos hk, succeedOperation_key] at hkey
      exact hne (hk.symm.trans hkey)
    · rw [if_neg hk] at hkey hstate
      obtain rfl := Table.mem_unique hq ho hkey
      rw [hstate] at waiting
      rcases waiting with h | h <;> cases h
  · rintro rfl
    refine ⟨succeedOperation id o, ?_, succeedOperation_key id o, ?_⟩
    · exact (Table.mem_modify _ _ (succeedOperation id) (succeedOperation_key id) _).2
        ⟨o, ho, (if_pos rfl).symm⟩
    · have hsettles : o.operationState = .queued ∨ o.operationState = .processing ∨
          o.operationState = .succeeded := by
        rcases waiting with h | h
        · exact .inl h
        · exact .inr (.inl h)
      unfold succeedOperation
      rw [if_pos hsettles]
      exact ⟨rfl, rfl⟩

theorem executed_effect {env : ExecEnv} {t : DateTime} {request : ExecuteSettlementBatchRequest}
    {db db' : Db} {response : ExecuteSettlementBatchResponse}
    (h : executeSettlementBatch ext env t request db = (.ok response, db')) :
    ∃ id : Uuid, ExecutionEffect (trim request.idempotencyKey) db db' id ∧
      response.settlementBatchId = id.text := by
  have hcases := executeSettlementBatch_cases ext env t request db
  rw [h] at hcases
  rcases hcases with ⟨-, -, e, herror⟩ | ⟨id, heffect, hbatch⟩
  · cases herror
  · exact ⟨id, heffect, hbatch response rfl⟩

end Keys

/-- The key that is looked up for a replay is the one under which the operation is queued; it is the
key of the record exactly when it has no surrounding white space, as it never has when it comes from
the trade window. Two requests share a record exactly when their keys are equal once trimmed, so never
two whose different keys need no trimming; and an execution completes the waiting operation whose work
it executed exactly when the key needs no trimming. -/
theorem one_key_iff_trimmed (ext : External) (now : DateTime) (db : Db) (protojson : ProtoJson)
    (work : Work) (entry : Entry) (request : Request)
    (handled : Handled ext now db protojson work entry request) :
    (∀ t id, (queuedOperation t id (queueRequest work)).idempotencyKey =
      request.idempotencyKey) ∧
    (∀ operation t command, tryFrom ext t (requestOf (queuedWork work operation)) = .ok command →
      (command.idempotencyKey = request.idempotencyKey ↔
        trim request.idempotencyKey = request.idempotencyKey)) ∧
    (∀ rawPayload, entry = .gui rawPayload →
      trim request.idempotencyKey = request.idempotencyKey) ∧
    (∀ now' db' work' entry' request', Handled ext now' db' protojson work' entry' request' →
      ∀ operation operation' t t' command command',
        tryFrom ext t (requestOf (queuedWork work operation)) = .ok command →
        tryFrom ext t' (requestOf (queuedWork work' operation')) = .ok command' →
        (command.idempotencyKey = command'.idempotencyKey ↔
          trim request.idempotencyKey = trim request'.idempotencyKey) ∧
        (request.idempotencyKey ≠ request'.idempotencyKey →
          trim request.idempotencyKey = request.idempotencyKey →
          trim request'.idempotencyKey = request'.idempotencyKey →
          command.idempotencyKey ≠ command'.idempotencyKey)) ∧
    ∀ operation env t before response after,
      executeSettlementBatch ext env t (requestOf (queuedWork work operation)) before =
        (.ok response, after) →
      ∀ o ∈ before.settlementOperation.rows, o.idempotencyKey = request.idempotencyKey →
        o.operationState = .queued ∨ o.operationState = .processing →
        ∃ id : Uuid, response.settlementBatchId = id.text ∧
          ((∃ o' ∈ after.settlementOperation.rows, o'.idempotencyKey = o.idempotencyKey ∧
            o'.operationState = .succeeded ∧ o'.settlementBatchId = some id) ↔
          trim request.idempotencyKey = request.idempotencyKey) := by
  have hplanned := handled.work?
  have hqueued : work.idempotencyKey = request.idempotencyKey :=
    (work?_carries hplanned).idempotencyKey
  refine ⟨?_, ?_, ?_, ?_, ?_⟩
  · intro t id
    exact hqueued
  · intro operation t command hcommand
    rw [record_key hplanned hcommand]
  · rintro rawPayload rfl
    exact handled.gui_trimmed
  · intro now' db' work' entry' request' handled' operation operation' t t' command command'
      hcommand hcommand'
    rw [record_key hplanned hcommand, record_key handled'.work? hcommand']
    refine ⟨Iff.rfl, ?_⟩
    intro hne htrimmed htrimmed'
    rwa [htrimmed, htrimmed']
  · intro operation env t before response after hexecuted o ho hkey hwaiting
    obtain ⟨id, heffect, hbatch⟩ := executed_effect hexecuted
    have hrecord : trim (requestOf (queuedWork work operation)).idempotencyKey =
        trim request.idempotencyKey := congrArg trim hqueued
    rw [hrecord] at heffect
    refine ⟨id, hbatch, ?_⟩
    rw [completed_iff heffect ho hwaiting, hkey]

section Seeded

open LocalDevWorld
open EveTrade.MarketPlanning (offer)

/-- The seller's offer under a key that ends with a blank. -/
def spacedOffer : Request := .issue {
  idempotencyKey := "issue "
  externalRequestId := "issue"
  issuedByCapsuleerId := sellerId
  itemStack := some ⟨sourceStackId.text, sellerId, 34, 60003760, 100⟩
  quantity := 10
  unitPriceIsk := 25
  expiresAt := none }

/-- The database once the offer has been planned, queued and executed. -/
def spacedOfferSettled : Db :=
  (MarketPlanning.run [.plan spacedOffer 0 0, .queue 0 (.ofNat 0x51) 0, .execute 0 (quietEnv 100) 0]
    (MarketPlanning.start hexadecimal (localDevWorld hexadecimal))).db

/-- The offer is settled under the record of another key, and its operation is left waiting. -/
theorem spacedOffer_not_completed :
    (spacedOfferSettled.settlementOperation.find? "issue ").map
      (fun o => (o.operationState, o.settlementBatchId)) = some (.queued, none) ∧
    (spacedOfferSettled.idempotencyRecord.find? "issue ").isNone = true ∧
    (spacedOfferSettled.idempotencyRecord.find? "issue").map (fun r => r.idempotencyState) =
      some .completed := by
  decide +kernel

/-- The offer under a key without white space has one key throughout. -/
theorem one_key_iff_trimmed_offer :
    ∃ work, offer.work? hexadecimal 0 (localDevWorld hexadecimal) = some work ∧
      (∀ t id, (queuedOperation t id (queueRequest work)).idempotencyKey = "issue") ∧
      ∀ operation t command,
        tryFrom hexadecimal t (requestOf (queuedWork work operation)) = .ok command →
        command.idempotencyKey = "issue" := by
  have hplanned : (offer.work? hexadecimal 0 (localDevWorld hexadecimal)).isSome = true := by
    decide +kernel
  obtain ⟨work, hwork⟩ := Option.isSome_iff_exists.1 hplanned
  obtain ⟨hqueued, hrecord, -⟩ := one_key_iff_trimmed hexadecimal 0 (localDevWorld hexadecimal)
    ⟨fun _ _ => .error ""⟩ work (.rpc offer) offer (.rpc hwork)
  exact ⟨work, hwork, hqueued, fun operation t command h =>
    (hrecord operation t command h).2 (by decide)⟩

end Seeded

end EveTrade.IdempotencyKeys
