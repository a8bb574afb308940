import EveTrade.SettlementRecords
import EveTrade.SettlementWork

set_option autoImplicit false

/-!
# The settlement service

The four calls of the service: the three on durable operations, each one transaction, and the
execution of a batch.
-/
namespace EveTrade.SettlementService

open KeyedTable FieldText UuidText SettlementTypes SettlementCommands SettlementSchema
  SettlementStatements SettlementExecutor SettlementOutcome SettlementRecords SettlementWork
  TransactionMonad

structure QueueSettlementOperationRequest where
  idempotencyKey : String
  requestFingerprint : String
  intent : SettlementIntent
  causedByCapsuleerId : Int
  externalRequestId : String

structure UpdateSettlementOperationRequest where
  operationId : String
  state : OperationState
  settlementBatchId : String
  failureCode : String
  failureDescription : String
  resultPublished : Bool

structure SettlementOperationStatus where
  operationId : String
  idempotencyKey : String
  requestFingerprint : String
  intent : SettlementIntent
  causedByCapsuleerId : Int
  state : OperationState
  queuedAt : DateTime
  settlementBatchId : String
  failureCode : String
  failureDescription : String
  resultPublished : Bool
deriving DecidableEq

structure SettlementStepResult where
  stepIndex : ℕ
  settlementStepId : String
  stepKind : SettlementOperationKind
  outputs : List (String × String)
deriving DecidableEq

structure ExecuteSettlementBatchResponse where
  settlementBatchId : String
  idempotencyKey : String
  batchState : ProgressState
  idempotentReplay : Bool
  stepResults : List SettlementStepResult
deriving DecidableEq

section Conversions

def operationStatus (o : SettlementOperationRow) : SettlementOperationStatus where
  operationId := o.operationId.text
  idempotencyKey := o.idempotencyKey
  requestFingerprint := o.requestFingerprint
  intent := o.intent
  causedByCapsuleerId := o.causedByCapsuleerId
  state := o.operationState
  queuedAt := o.queuedAt
  settlementBatchId := (o.settlementBatchId.map Uuid.text).getD ""
  failureCode := o.failureCode.getD ""
  failureDescription := o.failureDescription.getD ""
  resultPublished := o.resultPublished

def batchResponse (result : BatchExecutionResult) : ExecuteSettlementBatchResponse where
  settlementBatchId := result.settlementBatchId.text
  idempotencyKey := result.idempotencyKey
  batchState := result.batchState
  idempotentReplay := result.idempotentReplay
  stepResults := result.stepResults.map fun step =>
    ⟨step.stepIndex, step.settlementStepId.text, step.stepKind,
      step.output.entityReferences.map fun r => (r.entityKind, r.entityId.text)⟩

def internalDatabaseStatus (e : DbError) : Status :=
  ⟨.internal, s!"settlement operation database error: {e.message}"⟩

/-- `NULLIF(text, '')`. -/
def nullIfEmpty (s : String) : Option String := if s = "" then none else some s

def intentName : SettlementIntent → Except Status SettlementIntent
  | .unspecified => .error ⟨.invalidArgument, "settlement intent is required"⟩
  | intent => .ok intent

def validOperationTransition (current next : OperationState) : Bool :=
  current = next ||
    match current, next with
    | .queued, .processing | .queued, .failed | .queued, .cancelled | .queued, .expired => true
    | .processing, .succeeded | .processing, .failed | .processing, .cancelled
    | .processing, .expired => true
    | _, _ => false

end Conversions

section Calls

def findOperation (db : Db) (operationId : Uuid) : Option SettlementOperationRow :=
  db.settlementOperation.rows.find? fun o => o.operationId = operationId

def queuedOperation (now : DateTime) (operationId : Uuid)
    (request : QueueSettlementOperationRequest) : SettlementOperationRow where
  operationId := operationId
  idempotencyKey := request.idempotencyKey
  requestFingerprint := request.requestFingerprint
  intent := request.intent
  causedByCapsuleerId := request.causedByCapsuleerId
  externalRequestId := nullIfEmpty request.externalRequestId
  operationState := .queued
  settlementBatchId := none
  failureCode := none
  failureDescription := none
  resultPublished := false
  queuedAt := now

def insertOperation (row : SettlementOperationRow) (db : Db) : Except DbError Db := do
  check (findOperation db row.operationId = none) (.uniqueViolation "settlement_operation_pkey")
  let operations ← insertRow db.settlementOperation row "settlement_operation_idempotency_key_key"
  check (row.causedByCapsuleerId ∈ db.business.capsuleer)
    (.foreignKeyViolation "settlement_operation" "settlement_operation_caused_by_capsuleer_id_fkey")
  pure { db with settlementOperation := operations }

def sameOperation (o : SettlementOperationRow) (request : QueueSettlementOperationRequest) : Bool :=
  o.requestFingerprint = request.requestFingerprint && decide (o.intent = request.intent) &&
    o.causedByCapsuleerId = request.causedByCapsuleerId

def findOrInsertOperation (now : DateTime) (operationId : Uuid)
    (request : QueueSettlementOperationRequest) (db : Db) :
    Except Status SettlementOperationStatus × Db :=
  match db.settlementOperation.find? request.idempotencyKey with
  | some existing =>
    if sameOperation existing request then (.ok (operationStatus existing), db)
    else (.error ⟨.aborted,
      "idempotency_key was already queued with a different operation fingerprint"⟩, db)
  | none =>
    match insertOperation (queuedOperation now operationId request) db with
    | .error e => (.error (internalDatabaseStatus e), db)
    | .ok db' => (.ok (operationStatus (queuedOperation now operationId request)), db')

def queueSettlementOperation (now : DateTime) (operationId : Uuid)
    (request : QueueSettlementOperationRequest) (db : Db) :
    Except Status SettlementOperationStatus × Db :=
  match intentName request.intent with
  | .error e => (.error e, db)
  | .ok _ =>
    if trim request.idempotencyKey = "" ∨ trim request.requestFingerprint = "" ∨
        request.causedByCapsuleerId ≤ 0 then
      (.error ⟨.invalidArgument,
        "idempotency_key, request_fingerprint, and actor are required"⟩, db)
    else findOrInsertOperation now operationId request db

def getSettlementOperation (operationId : String) (db : Db) :
    Except Status SettlementOperationStatus :=
  match Uuid.parse operationId with
  | none => .error ⟨.invalidArgument, "operation_id must be a UUID"⟩
  | some id =>
    match findOperation db id with
    | none => .error ⟨.notFound, s!"settlement operation {id}"⟩
    | some o => .ok (operationStatus o)

def updatedOperation (request : UpdateSettlementOperationRequest) (batchId : Option Uuid)
    (o : SettlementOperationRow) : SettlementOperationRow :=
  { o with
    operationState := request.state
    settlementBatchId := batchId.or o.settlementBatchId
    failureCode := nullIfEmpty request.failureCode
    failureDescription := nullIfEmpty request.failureDescription
    resultPublished := o.resultPublished || request.resultPublished }

def parseBatchId (text : String) : Except Status (Option Uuid) :=
  if trim text = "" then .ok none
  else
    match Uuid.parse text with
    | none => .error ⟨.invalidArgument, "settlement_batch_id must be a UUID"⟩
    | some id => .ok (some id)

def checkUpdate (request : UpdateSettlementOperationRequest) (batchId : Option Uuid)
    (o : SettlementOperationRow) (db : Db) : Except Status Unit := do
  check (validOperationTransition o.operationState request.state = true)
    ⟨.failedPrecondition,
      s!"invalid settlement operation transition {o.operationState.text} -> {request.state.text}"⟩
  check (request.state = .succeeded → batchId.or o.settlementBatchId ≠ none)
    ⟨.invalidArgument, "SUCCEEDED operation requires settlement_batch_id"⟩
  check (request.state = .failed → trim request.failureCode ≠ "")
    ⟨.invalidArgument, "FAILED operation requires failure_code"⟩
  check (∀ id ∈ batchId, (db.settlementBatch.find? id).isSome)
    (internalDatabaseStatus
      (.foreignKeyViolation "settlement_operation" "settlement_operation_settlement_batch_id_fkey"))

def updateRow (request : UpdateSettlementOperationRequest) (batchId : Option Uuid)
    (o : SettlementOperationRow) (db : Db) : Except Status SettlementOperationStatus × Db :=
  match checkUpdate request batchId o db with
  | .error e => (.error e, db)
  | .ok _ =>
    (.ok (operationStatus (updatedOperation request batchId o)),
      { db with settlementOperation :=
        db.settlementOperation.modify o.idempotencyKey (updatedOperation request batchId) })

def updateSettlementOperation (request : UpdateSettlementOperationRequest) (db : Db) :
    Except Status SettlementOperationStatus × Db :=
  match Uuid.parse request.operationId with
  | none => (.error ⟨.invalidArgument, "operation_id must be a UUID"⟩, db)
  | some id =>
    match parseBatchId request.settlementBatchId with
    | .error e => (.error e, db)
    | .ok batchId =>
      match findOperation db id with
      | none => (.error ⟨.notFound, s!"settlement operation {id}"⟩, db)
      | some o => updateRow request batchId o db

def answer : Except SettlementError BatchExecutionResult × Db →
    Except Status ExecuteSettlementBatchResponse × Db
  | (.error e, db) => (.error e.intoStatus, db)
  | (.ok result, db) => (.ok (batchResponse result), db)

def executeSettlementBatch (ext : External) (env : ExecEnv) (now : DateTime)
    (request : ExecuteSettlementBatchRequest) (db : Db) :
    Except Status ExecuteSettlementBatchResponse × Db :=
  match tryFrom ext now request with
  | .error e => (.error e.intoStatus, db)
  | .ok command => answer (executeBatch ext env command db)

end Calls

section Effects

variable {db : Db}

theorem findOperation_eq_some {id : Uuid} {o : SettlementOperationRow}
    (h : findOperation db id = some o) :
    o ∈ db.settlementOperation.rows ∧ o.operationId = id := by
  refine ⟨List.mem_of_find?_eq_some h, ?_⟩
  simpa using List.find?_some h

theorem queueSettlementOperation_cases (now : DateTime) (id : Uuid)
    (request : QueueSettlementOperationRequest) (db : Db) :
    (∃ e, queueSettlementOperation now id request db = (.error e, db)) ∨
    (∃ o ∈ db.settlementOperation.rows, o.idempotencyKey = request.idempotencyKey ∧
      queueSettlementOperation now id request db = (.ok (operationStatus o), db)) ∨
    ∃ operations, db.settlementOperation.insert? (queuedOperation now id request) = some operations ∧
      (∀ o ∈ db.settlementOperation.rows, o.operationId ≠ id) ∧
      queueSettlementOperation now id request db =
        (.ok (operationStatus (queuedOperation now id request)),
          { db with settlementOperation := operations }) := by
  unfold queueSettlementOperation
  cases hi : intentName request.intent with
  | error e => exact .inl ⟨e, rfl⟩
  | ok _ =>
    dsimp only
    split_ifs with hblank
    · exact .inl ⟨_, rfl⟩
    · unfold findOrInsertOperation
      cases hf : db.settlementOperation.find? request.idempotencyKey with
      | some o =>
        dsimp only
        split_ifs
        · exact .inr (.inl ⟨o, Table.find?_some_mem hf, Table.find?_some_key hf, rfl⟩)
        · exact .inl ⟨_, rfl⟩
      | none =>
        dsimp only
        cases hins : insertOperation (queuedOperation now id request) db with
        | error e => exact .inl ⟨_, rfl⟩
        | ok db' =>
          obtain ⟨_, hfresh, hins⟩ := except_bind_eq_ok.1 hins
          obtain ⟨operations, hrow, hins⟩ := except_bind_eq_ok.1 hins
          obtain ⟨_, _, hdb⟩ := except_bind_eq_ok.1 hins
          obtain rfl := Except.ok.inj hdb
          refine .inr (.inr ⟨operations, insertRow_eq_ok.1 hrow, ?_, rfl⟩)
          have hnone := check_eq_ok.1 hfresh
          intro o ho he
          exact List.find?_eq_none.1 hnone o ho (decide_eq_true he)

/-- What an update that takes effect has found and asked. -/
structure Updated (request : UpdateSettlementOperationRequest) (db : Db)
    (batchId : Option Uuid) (o : SettlementOperationRow) : Prop where
  mem : o ∈ db.settlementOperation.rows
  operationId : Uuid.parse request.operationId = some o.operationId
  batchId : parseBatchId request.settlementBatchId = .ok batchId
  transition : validOperationTransition o.operationState request.state = true

theorem updateSettlementOperation_cases (request : UpdateSettlementOperationRequest) (db : Db) :
    (∃ e, updateSettlementOperation request db = (.error e, db)) ∨
    ∃ batchId o, Updated request db batchId o ∧
      updateSettlementOperation request db =
        (.ok (operationStatus (updatedOperation request batchId o)),
          { db with settlementOperation :=
            db.settlementOperation.modify o.idempotencyKey (updatedOperation request batchId) }) := by
  unfold updateSettlementOperation
  cases hid : Uuid.parse request.operationId with
  | none => exact .inl ⟨_, rfl⟩
  | some id =>
    dsimp only
    cases hbatch : parseBatchId request.settlementBatchId with
    | error e => exact .inl ⟨e, rfl⟩
    | ok batchId =>
      dsimp only
      cases hfind : findOperation db id with
      | none => exact .inl ⟨_, rfl⟩
      | some o =>
        dsimp only
        unfold updateRow
        cases hcheck : checkUpdate request batchId o db with
        | error e => exact .inl ⟨e, rfl⟩
        | ok _ =>
          obtain ⟨_, htransition, _⟩ := except_bind_eq_ok.1 hcheck
          obtain ⟨hmem, rfl⟩ := findOperation_eq_some hfind
          exact .inr ⟨batchId, o, ⟨hmem, hid, hbatch, check_eq_ok.1 htransition⟩, rfl⟩

theorem getSettlementOperation_eq_ok {operationId : String} {status : SettlementOperationStatus}
    (h : getSettlementOperation operationId db = .ok status) :
    ∃ o ∈ db.settlementOperation.rows,
      Uuid.parse operationId = some o.operationId ∧ status = operationStatus o := by
  unfold getSettlementOperation at h
  cases hid : Uuid.parse operationId with
  | none =>
    rw [hid] at h
    cases h
  | some id =>
    rw [hid] at h
    dsimp only at h
    cases hfind : findOperation db id with
    | none =>
      rw [hfind] at h
      cases h
    | some o =>
      rw [hfind] at h
      obtain ⟨hmem, rfl⟩ := findOperation_eq_some hfind
      exact ⟨o, hmem, rfl, (Except.ok.inj h).symm⟩

/-- The record of the key is completed, with what it names as its batch. -/
def Completed (db : Db) (k : String) (batchId : Option Uuid) : Prop :=
  ∃ r, db.idempotencyRecord.find? k = some r ∧ r.idempotencyState = .completed ∧
    r.resultSettlementBatchId = batchId

theorem Completed.unique {k : String} {id id' : Option Uuid} (h : Completed db k id)
    (h' : Completed db k id') : id = id' := by
  obtain ⟨r, hr, _, rfl⟩ := h
  obtain ⟨q, hq, _, rfl⟩ := h'
  rw [hr] at hq
  rw [Option.some.inj hq]

theorem completed_congr {db db' : Db} {k : String} {id : Option Uuid}
    (h : db'.idempotencyRecord.find? k = db.idempotencyRecord.find? k) :
    Completed db' k id ↔ Completed db k id := by
  unfold Completed
  rw [h]

/-- What executing a batch does to operations and to completed records, when it does anything: its
own record is completed, and the operation of that key, unless it has ended otherwise, carries the
record's batch. -/
structure ExecutionEffect (key : String) (db db' : Db) (id : Uuid) : Prop where
  completed : Completed db' key (some id)
  others : ∀ k batchId, k ≠ key → (Completed db' k batchId ↔ Completed db k batchId)
  kept : ∀ batchId, Completed db key batchId → batchId = some id
  operations : db'.settlementOperation = db.settlementOperation.modify key (succeedOperation id)

theorem opened_not_completed {env : ExecEnv} {command : ExecuteBatchCommand} {fingerprint : String}
    {record : IdempotencyRecordRow} {number : Int}
    (h : Opened env command fingerprint (db.idempotencyRecord.find? command.idempotencyKey) db record
      number) (batchId : Option Uuid) : ¬ Completed db command.idempotencyKey batchId := by
  rintro ⟨r, hr, hstate, _⟩
  have hopening := h.record
  rw [hr] at hopening
  cases hopening with
  | reset _ _ _ failed =>
    rw [hstate] at failed
    cases failed

theorem settled_effect {ext : External} {env : ExecEnv} {command : ExecuteBatchCommand}
    {fingerprint : String} {settlement : Settlement} {db' : Db}
    (h : Settled ext env command fingerprint (db.idempotencyRecord.find? command.idempotencyKey) db
      settlement db') :
    (db'.settlementOperation = db.settlementOperation ∧
      (∀ k batchId, Completed db' k batchId ↔ Completed db k batchId) ∧
      ∃ e, settlement = .answered (.error e)) ∨
    ∃ id, ExecutionEffect command.idempotencyKey db db' id ∧
      (settlement = .replaying id ∨
        ∃ r, settlement = .answered (.ok r) ∧ r.settlementBatchId = id) := by
  cases h with
  | refused e => exact .inl ⟨rfl, fun _ _ => Iff.rfl, e, rfl⟩
  | replaying r batchId seen same _ completed result =>
    have hcompleted : Completed db command.idempotencyKey (some batchId) := ⟨r, seen, completed, result⟩
    exact .inr ⟨batchId, ⟨hcompleted, fun _ _ _ => Iff.rfl, fun _ h => h.unique hcompleted, rfl⟩,
      .inl rfl⟩
  | failed record number _ opened attempted e audit _ operation =>
    have hkey : Keyed.key (recordFailed e.code e.display record) = command.idempotencyKey :=
      opened.record.key
    refine .inl ⟨operation, ?_, e, rfl⟩
    intro k batchId
    by_cases hk : command.idempotencyKey = k
    · subst hk
      refine iff_of_false ?_ (opened_not_completed opened batchId)
      rintro ⟨r, hr, hstate, _⟩
      rw [Table.find?_put audit.record, if_pos hkey] at hr
      obtain rfl := Option.some.inj hr
      cases hstate
    · refine completed_congr ?_
      rw [Table.find?_put audit.record, if_neg (fun he => hk (hkey.symm.trans he))]
  | completed record number _ opened checks outputs _ _ audit operation =>
    have hkey : Keyed.key (recordCompleted env.settlementBatchId record) =
        command.idempotencyKey := opened.record.key
    refine .inr ⟨env.settlementBatchId, ⟨?_, ?_, ?_, operation⟩, .inr ⟨_, rfl, rfl⟩⟩
    · refine ⟨recordCompleted env.settlementBatchId record, ?_, rfl, rfl⟩
      rw [Table.find?_put audit.record]
      exact if_pos hkey
    · intro k batchId hk
      refine completed_congr ?_
      rw [Table.find?_put audit.record, if_neg (fun he => hk (he.symm.trans hkey))]
    · intro batchId h
      exact absurd h (opened_not_completed opened batchId)

theorem answer_db (p : Except SettlementError BatchExecutionResult × Db) : (answer p).2 = p.2 := by
  obtain ⟨_ | _, _⟩ := p <;> rfl

theorem executeSettlementBatch_cases (ext : External) (env : ExecEnv) (now : DateTime)
    (request : ExecuteSettlementBatchRequest) (db : Db) :
    ((executeSettlementBatch ext env now request db).2.settlementOperation =
        db.settlementOperation ∧
      (∀ k batchId, Completed (executeSettlementBatch ext env now request db).2 k batchId ↔
        Completed db k batchId) ∧
      ∃ e, (executeSettlementBatch ext env now request db).1 = .error e) ∨
    ∃ id, ExecutionEffect (trim request.idempotencyKey) db
        (executeSettlementBatch ext env now request db).2 id ∧
      ∀ response, (executeSettlementBatch ext env now request db).1 = .ok response →
        response.settlementBatchId = id.text := by
  unfold executeSettlementBatch
  cases hfrom : tryFrom ext now request with
  | error e => exact .inl ⟨rfl, fun _ _ => Iff.rfl, _, rfl⟩
  | ok command =>
    have hkey := (tryFrom_eq_ok hfrom).idempotencyKey
    dsimp only
    rcases executeBatch_cases ext env command db with ⟨e, he⟩ | ⟨fp, settlement, db', _, hsettled, he⟩
    · rw [he]
      exact .inl ⟨rfl, fun _ _ => Iff.rfl, _, rfl⟩
    · rw [he, ← hkey]
      rcases settled_effect hsettled with ⟨hops, hrecords, e, rfl⟩ | ⟨id, heffect, hanswer⟩
      · exact .inl ⟨hops, hrecords, _, rfl⟩
      · rcases hanswer with rfl | ⟨r, rfl, rfl⟩
        · refine .inr ⟨id, ?_, ?_⟩
          · rw [answer_db, finishReplay_db]
            exact heffect
          · intro response hr
            change (answer (replayAnswer env command id db', db')).1 = _ at hr
            cases hreplay : replayAnswer env command id db' with
            | error e =>
              rw [hreplay] at hr
              cases hr
            | ok r =>
              rw [hreplay] at hr
              obtain rfl := Except.ok.inj hr
              obtain ⟨_, _, hr⟩ := except_bind_eq_ok.1 hreplay
              obtain rfl := Except.ok.inj hr
              rfl
        · refine .inr ⟨_, heffect, ?_⟩
          intro response hr
          obtain rfl := Except.ok.inj hr
          rfl

end Effects

end EveTrade.SettlementService
