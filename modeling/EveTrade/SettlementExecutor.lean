import EveTrade.SettlementAuthorization
import EveTrade.SettlementPlan
import Mathlib.Data.List.Sort

set_option autoImplicit false

namespace EveTrade.SettlementExecutor

open KeyedTable TransactionMonad JsonText UuidText SettlementTypes SettlementCommands
  SettlementSchema SettlementStatements SettlementOperations SettlementPlan SettlementAuthorization

abbrev DbSession := Session Db DeferredCheck DbError

abbrev DbTx := Tx Db DeferredCheck DbError SettlementError

def requestKind : String := "trade_settlement.execute_settlement_batch"

def requestFingerprintFormat : String := "trade-settlement.execute_settlement_batch.v1"

def requestFingerprintPrefix : String := "trade-settlement.execute_settlement_batch.v1.sha256:"

structure StepExecutionResult where
  stepIndex : ℕ
  settlementStepId : Uuid
  stepKind : SettlementOperationKind
  output : OperationOutput
deriving DecidableEq

structure BatchExecutionResult where
  settlementBatchId : Uuid
  idempotencyKey : String
  batchState : ProgressState
  idempotentReplay : Bool
  stepResults : List StepExecutionResult
deriving DecidableEq

structure StepRecord where
  stepIndex : ℕ
  settlementStepId : Uuid
  stepKind : SettlementOperationKind
deriving DecidableEq

structure StepEnv where
  settlementStepId : Uuid
  clock : DateTime
  newId : Uuid

/-- What one call takes from outside: the transaction time, generated ids, clock readings, and the
failures of its statements, up to the commit, from the rollback of a failed step on, and in the
reading of replayed steps. -/
structure ExecEnv where
  now : DateTime
  requestId : Uuid
  settlementBatchId : Uuid
  step : ℕ → StepEnv
  faults : List (Option DbError)
  auditFaults : List (Option DbError)
  replayFaults : List (Option DbError)

section Fingerprint

def fingerprintMaterial (ext : External) (command : ExecuteBatchCommand) : Json :=
  .obj [
    ("fingerprint_format", .str requestFingerprintFormat),
    ("request_kind", .str requestKind),
    ("intent", .str command.intent.text),
    ("external_request_id", optional .str command.externalRequestId),
    ("caused_by_capsuleer_id", optional .num command.causedByCapsuleerId),
    ("operations", .arr (command.operations.map (SettlementCommand.toJson ext)))]

def hashJson (ext : External) (j : Json) : String := ext.sha256Hex (render j)

def buildRequestFingerprint (ext : External) (command : ExecuteBatchCommand) : String :=
  requestFingerprintPrefix ++ hashJson ext (fingerprintMaterial ext command)

end Fingerprint

section Statements

variable {α : Type}

def executeDb (f : Db → Except DbError Db) : DbTx Unit :=
  Tx.statement .database fun db =>
    match f db with
    | .error e => .error e
    | .ok db' => .ok ((), db', [])

def selectDb (read : Db → α) : DbTx α := Tx.query .database read

def onBusiness (x : OpTx α) : DbTx α :=
  Tx.zoom Db.business (fun b db => { db with business := b }) x

def commit : DbTx Unit := Tx.commit .database fun c db => c.run db.business

def advisoryLockIds (command : ExecuteBatchCommand) : List Uuid :=
  ((command.operations.filterMap SettlementCommand.tradeInstanceId).insertionSort
    (fun u v => u.value ≤ v.value)).destutter (· ≠ ·)

def lockTradeInstances : List Uuid → DbTx Unit
  | [] => pure ()
  | _ :: ids => do
    selectDb fun _ => ()
    lockTradeInstances ids

def lockIdempotencyRecord (idempotencyKey : String) : DbTx (Option IdempotencyRecordRow) :=
  selectDb fun db => db.idempotencyRecord.find? idempotencyKey

def newIdempotencyRecord (idempotencyKey fingerprint createdByService : String) :
    IdempotencyRecordRow where
  idempotencyKey := idempotencyKey
  requestFingerprint := fingerprint
  requestKind := requestKind
  idempotencyState := .inProgress
  createdByService := createdByService
  resultSettlementBatchId := none
  failureCode := none
  failureMessage := none

def insertIdempotencyRecord (idempotencyKey fingerprint createdByService : String) : DbTx Unit :=
  executeDb fun db => do
    let records ← insertRow db.idempotencyRecord
      (newIdempotencyRecord idempotencyKey fingerprint createdByService) "idempotency_record_pkey"
    pure { db with idempotencyRecord := records }

def recordReset (r : IdempotencyRecordRow) : IdempotencyRecordRow :=
  { r with
    idempotencyState := .inProgress
    failureCode := none
    failureMessage := none
    resultSettlementBatchId := none }

def resetFailedIdempotencyRecord (idempotencyKey : String) : DbTx Unit :=
  executeDb fun db =>
    .ok { db with idempotencyRecord := db.idempotencyRecord.modify idempotencyKey recordReset }

def maxAttemptNumber (db : Db) (idempotencyKey : String) : Int :=
  (db.requestAttempt.rows.filter fun a => a.idempotencyKey = idempotencyKey).foldl
    (fun best a => max best a.attemptNumber) 0

def nextAttemptNumber (idempotencyKey : String) : DbTx Int :=
  Tx.statement .database fun db =>
    if InI32 (maxAttemptNumber db idempotencyKey + 1) then
      .ok (maxAttemptNumber db idempotencyKey + 1, db, [])
    else .error (.outOfRange "integer")

def newRequestAttempt (requestId : Uuid) (idempotencyKey : String) (attemptNumber : Int)
    (receivedByService : String) : RequestAttemptRow where
  requestId := requestId
  idempotencyKey := idempotencyKey
  attemptNumber := attemptNumber
  receivedByService := receivedByService
  attemptState := .inProgress
  failureCode := none
  failureMessage := none

def insertRequestAttempt (requestId : Uuid) (idempotencyKey : String) (attemptNumber : Int)
    (receivedByService : String) : DbTx Unit :=
  executeDb fun db => do
    let attempts ← insertRow db.requestAttempt
      (newRequestAttempt requestId idempotencyKey attemptNumber receivedByService)
      "request_attempt_pkey"
    check (∀ a ∈ db.requestAttempt.rows, a.idempotencyKey = idempotencyKey →
        a.attemptNumber ≠ attemptNumber)
      (.uniqueViolation "request_attempt_idempotency_key_attempt_number_key")
    check (db.idempotencyRecord.find? idempotencyKey |>.isSome)
      (.foreignKeyViolation "request_attempt" "request_attempt_idempotency_key_fkey")
    pure { db with requestAttempt := attempts }

def newSettlementBatch (settlementBatchId requestId : Uuid) (now : DateTime)
    (command : ExecuteBatchCommand) : SettlementBatchRow where
  settlementBatchId := settlementBatchId
  requestId := requestId
  idempotencyKey := command.idempotencyKey
  externalRequestId := command.externalRequestId
  causedByCapsuleerId := command.causedByCapsuleerId
  batchState := .inProgress
  createdByService := command.createdByService
  startedAt := now
  failureCode := none
  failureMessage := none

def insertSettlementBatch (settlementBatchId requestId : Uuid) (now : DateTime)
    (command : ExecuteBatchCommand) : DbTx Unit :=
  executeDb fun db => do
    let batches ← insertRow db.settlementBatch
      (newSettlementBatch settlementBatchId requestId now command) "settlement_batch_pkey"
    check (db.requestAttempt.find? requestId |>.isSome)
      (.foreignKeyViolation "settlement_batch" "settlement_batch_request_id_fkey")
    check (db.idempotencyRecord.find? command.idempotencyKey |>.isSome)
      (.foreignKeyViolation "settlement_batch" "settlement_batch_idempotency_key_fkey")
    check (∀ c ∈ command.causedByCapsuleerId, c ∈ db.business.capsuleer)
      (.foreignKeyViolation "settlement_batch" "settlement_batch_caused_by_capsuleer_id_fkey")
    pure { db with settlementBatch := batches }

def newSettlementStep (ext : External) (settlementBatchId settlementStepId : Uuid)
    (stepIndex : ℕ) (command : SettlementCommand) : SettlementStepRow where
  settlementStepId := settlementStepId
  settlementBatchId := settlementBatchId
  stepIndex := stepIndex
  stepKind := command.kindName
  stepPayload := command.toJson ext
  stepPayloadHash := hashJson ext (command.toJson ext)
  stepOutput := .obj []
  stepState := .pending
  failureCode := none
  failureMessage := none

def insertSettlementStep (ext : External) (settlementBatchId settlementStepId : Uuid)
    (stepIndex : ℕ) (command : SettlementCommand) : DbTx Unit :=
  executeDb fun db => do
    let steps ← insertRow db.settlementStep
      (newSettlementStep ext settlementBatchId settlementStepId stepIndex command)
      "settlement_step_pkey"
    check (∀ t ∈ db.settlementStep.rows, t.settlementBatchId = settlementBatchId →
        t.stepIndex ≠ stepIndex)
      (.uniqueViolation "settlement_step_settlement_batch_id_step_index_key")
    check (db.settlementBatch.find? settlementBatchId |>.isSome)
      (.foreignKeyViolation "settlement_step" "settlement_step_settlement_batch_id_fkey")
    pure { db with settlementStep := steps }

def insertSettlementSteps (ext : External) (env : ExecEnv) :
    ℕ → List SettlementCommand → DbTx (List StepRecord)
  | _, [] => pure []
  | index, command :: rest => do
    Tx.ensure (index < 2 ^ 31) (.invalidArgument "too many settlement operations")
    insertSettlementStep ext env.settlementBatchId (env.step index).settlementStepId index command
    let records ← insertSettlementSteps ext env (index + 1) rest
    pure (⟨index, (env.step index).settlementStepId, command.protoKind⟩ :: records)

def stepRunning (t : SettlementStepRow) : SettlementStepRow := { t with stepState := .running }

def stepCompleted (output : OperationOutput) (t : SettlementStepRow) : SettlementStepRow :=
  { t with stepState := .completed, stepOutput := output.toJson }

def stepFailed (failureCode failureMessage : String) (t : SettlementStepRow) :
    SettlementStepRow :=
  { t with
    stepState := .failed
    failureCode := some failureCode
    failureMessage := some failureMessage }

def updateStep (settlementStepId : Uuid) (f : SettlementStepRow → SettlementStepRow) :
    DbTx Unit :=
  executeDb fun db =>
    .ok { db with settlementStep := db.settlementStep.modify settlementStepId f }

def markStepRunning (settlementStepId : Uuid) : DbTx Unit :=
  updateStep settlementStepId stepRunning

def markStepCompleted (settlementStepId : Uuid) (output : OperationOutput) : DbTx Unit :=
  updateStep settlementStepId (stepCompleted output)

def markStepFailed (settlementStepId : Uuid) (failureCode failureMessage : String) : DbTx Unit :=
  updateStep settlementStepId (stepFailed failureCode failureMessage)

def batchCompleted (r : SettlementBatchRow) : SettlementBatchRow :=
  { r with batchState := .completed }

def batchFailed (failureCode failureMessage : String) (r : SettlementBatchRow) :
    SettlementBatchRow :=
  { r with
    batchState := .failed
    failureCode := some failureCode
    failureMessage := some failureMessage }

def updateBatch (settlementBatchId : Uuid) (f : SettlementBatchRow → SettlementBatchRow) :
    DbTx Unit :=
  executeDb fun db =>
    .ok { db with settlementBatch := db.settlementBatch.modify settlementBatchId f }

def completeBatch (settlementBatchId : Uuid) : DbTx Unit :=
  updateBatch settlementBatchId batchCompleted

def failBatch (settlementBatchId : Uuid) (failureCode failureMessage : String) : DbTx Unit :=
  updateBatch settlementBatchId (batchFailed failureCode failureMessage)

def attemptCompleted (r : RequestAttemptRow) : RequestAttemptRow :=
  { r with attemptState := .completed }

def attemptFailed (failureCode failureMessage : String) (r : RequestAttemptRow) :
    RequestAttemptRow :=
  { r with
    attemptState := .failed
    failureCode := some failureCode
    failureMessage := some failureMessage }

def updateAttempt (requestId : Uuid) (f : RequestAttemptRow → RequestAttemptRow) : DbTx Unit :=
  executeDb fun db => .ok { db with requestAttempt := db.requestAttempt.modify requestId f }

def completeRequestAttempt (requestId : Uuid) : DbTx Unit :=
  updateAttempt requestId attemptCompleted

def failRequestAttempt (requestId : Uuid) (failureCode failureMessage : String) : DbTx Unit :=
  updateAttempt requestId (attemptFailed failureCode failureMessage)

def recordCompleted (settlementBatchId : Uuid) (r : IdempotencyRecordRow) :
    IdempotencyRecordRow :=
  { r with
    idempotencyState := .completed
    resultSettlementBatchId := some settlementBatchId }

def recordFailed (failureCode failureMessage : String) (r : IdempotencyRecordRow) :
    IdempotencyRecordRow :=
  { r with
    idempotencyState := .failed
    failureCode := some failureCode
    failureMessage := some failureMessage
    resultSettlementBatchId := none }

def completeIdempotencyRecord (idempotencyKey : String) (settlementBatchId : Uuid) : DbTx Unit :=
  executeDb fun db => do
    check (db.settlementBatch.find? settlementBatchId |>.isSome)
      (.foreignKeyViolation "idempotency_record" "idempotency_record_result_batch_fk")
    pure { db with idempotencyRecord :=
      db.idempotencyRecord.modify idempotencyKey (recordCompleted settlementBatchId) }

def failIdempotencyRecord (idempotencyKey failureCode failureMessage : String) : DbTx Unit :=
  executeDb fun db =>
    .ok { db with idempotencyRecord :=
      db.idempotencyRecord.modify idempotencyKey (recordFailed failureCode failureMessage) }

/-- The durable operation of the key becomes `SUCCEEDED`, unless it has ended otherwise. -/
def succeedOperation (settlementBatchId : Uuid) (o : SettlementOperationRow) :
    SettlementOperationRow :=
  if o.operationState = .queued ∨ o.operationState = .processing ∨
      o.operationState = .succeeded then
    { o with operationState := .succeeded, settlementBatchId := some settlementBatchId }
  else o

def completeOperationIfPresent (idempotencyKey : String) (settlementBatchId : Uuid) :
    DbTx Unit :=
  executeDb fun db =>
    .ok { db with settlementOperation :=
      db.settlementOperation.modify idempotencyKey (succeedOperation settlementBatchId) }

end Statements

section Phases

variable (ext : External)

def validatePlan (command : ExecuteBatchCommand) : Except SettlementError Unit :=
  if command.intent ≠ .unspecified then validatePlanSemantics command else .ok ()

/-- What is decided before the transaction: the plan's grammar and the canonical fingerprint. -/
def prepare (command : ExecuteBatchCommand) : Except SettlementError String := do
  validatePlan command
  check (command.operations ≠ [])
    (.invalidArgument "operations must contain at least one settlement operation")
  pure (buildRequestFingerprint ext command)

def validateRequestFingerprintAssertion (assertion : Option String) (fingerprint : String) :
    DbTx Unit :=
  Tx.ensure (∀ a ∈ assertion, a = fingerprint)
    (.invalidArgument "request_fingerprint assertion does not match canonical settlement request")

/-- The transaction up to the locked read of the idempotency record. -/
def lookup (command : ExecuteBatchCommand) : DbTx (Option IdempotencyRecordRow) := do
  selectDb fun _ => ()
  lockTradeInstances (advisoryLockIds command)
  lockIdempotencyRecord command.idempotencyKey

/-- Decides from the record whether the call replays a batch or goes on to settle. -/
def resolveIdempotency (command : ExecuteBatchCommand) (fingerprint : String) :
    Option IdempotencyRecordRow → DbTx (Option Uuid)
  | some existing => do
    Tx.ensure (existing.requestFingerprint = fingerprint)
      (.conflict s!"idempotency_key {command.idempotencyKey} was already used with a different request fingerprint")
    validateRequestFingerprintAssertion command.requestFingerprint fingerprint
    match existing.idempotencyState with
    | .completed => do
      let batchId ← Tx.fromOption existing.resultSettlementBatchId
        (.failedPrecondition s!"idempotency_key {command.idempotencyKey} completed without a result batch")
      pure (some batchId)
    | .inProgress =>
      Tx.fail (.conflict s!"idempotency_key {command.idempotencyKey} is already in progress")
    | .failed => do
      resetFailedIdempotencyRecord command.idempotencyKey
      pure none
  | none => do
    validateRequestFingerprintAssertion command.requestFingerprint fingerprint
    insertIdempotencyRecord command.idempotencyKey fingerprint command.createdByService
    pure none

def requestIdOf (env : ExecEnv) (command : ExecuteBatchCommand) : Uuid :=
  command.requestId.getD env.requestId

/-- From authorisation to the savepoint: the attempt, the batch and its pending steps. -/
def openBatch (env : ExecEnv) (command : ExecuteBatchCommand) : DbTx (List StepRecord) := do
  Tx.when (command.intent ≠ .unspecified) (onBusiness (authorizePlan command))
  let attemptNumber ← nextAttemptNumber command.idempotencyKey
  insertRequestAttempt (requestIdOf env command) command.idempotencyKey attemptNumber
    command.createdByService
  insertSettlementBatch env.settlementBatchId (requestIdOf env command) env.now command
  let records ← insertSettlementSteps ext env 0 command.operations
  selectDb fun _ => ()
  pure records

/-- An error of a step rolls back to the savepoint; an error of the step's own bookkeeping aborts. -/
inductive StepsError where
  | aborted (error : SettlementError)
  | stepFailed (attemptedSteps : ℕ) (error : SettlementError)

abbrev StepsTx := Tx Db DeferredCheck DbError StepsError

def stepContext (env : ExecEnv) (step : StepRecord) : StepContext where
  settlementStepId := step.settlementStepId
  now := env.now
  clock := (env.step step.stepIndex).clock
  newId := (env.step step.stepIndex).newId

def executeStep (env : ExecEnv) (attemptedSteps : ℕ) (operation : SettlementCommand)
    (step : StepRecord) : StepsTx StepExecutionResult := do
  Tx.mapError .aborted (markStepRunning step.settlementStepId)
  let output ← Tx.mapError (.stepFailed attemptedSteps)
    (onBusiness (executeSettlementCommand ext (stepContext env step) operation))
  Tx.mapError .aborted (markStepCompleted step.settlementStepId output)
  pure ⟨step.stepIndex, step.settlementStepId, step.stepKind, output⟩

/-- The loop over the operations, after `done` of them. -/
def executeSteps (env : ExecEnv) :
    ℕ → List (SettlementCommand × StepRecord) → StepsTx (List StepExecutionResult)
  | _, [] => pure []
  | done, (operation, step) :: rest => do
    let result ← executeStep ext env (done + 1) operation step
    let results ← executeSteps env (done + 1) rest
    pure (result :: results)

def stepFailureMessage (attemptedSteps : ℕ) (message : String) (index : ℕ) : String :=
  if index + 1 = attemptedSteps then message
  else s!"rolled back after later step failed: {message}"

def failSteps (attemptedSteps : ℕ) (failureCode failureMessage : String) :
    ℕ → List StepRecord → DbTx Unit
  | _, [] => pure ()
  | index, step :: rest => do
    Tx.when (index < attemptedSteps)
      (markStepFailed step.settlementStepId failureCode
        (stepFailureMessage attemptedSteps failureMessage index))
    failSteps attemptedSteps failureCode failureMessage (index + 1) rest

/-- The failure audit, on the rows as the savepoint left them. -/
def failExecution (env : ExecEnv) (command : ExecuteBatchCommand) (records : List StepRecord)
    (attemptedSteps : ℕ) (failureCode failureMessage : String) : DbTx Unit := do
  failSteps attemptedSteps failureCode failureMessage 0 records
  failBatch env.settlementBatchId failureCode failureMessage
  failRequestAttempt (requestIdOf env command) failureCode failureMessage
  failIdempotencyRecord command.idempotencyKey failureCode failureMessage

def recordFailure (env : ExecEnv) (command : ExecuteBatchCommand) (records : List StepRecord)
    (attemptedSteps : ℕ) (error : SettlementError) : DbTx Unit := do
  selectDb fun _ => ()
  failExecution env command records attemptedSteps error.code error.display
  commit

def completeExecution (env : ExecEnv) (command : ExecuteBatchCommand) : DbTx Unit := do
  selectDb fun _ => ()
  completeBatch env.settlementBatchId
  completeRequestAttempt (requestIdOf env command)
  completeIdempotencyRecord command.idempotencyKey env.settlementBatchId
  completeOperationIfPresent command.idempotencyKey env.settlementBatchId
  commit

def replayOperation (command : ExecuteBatchCommand) (batchId : Uuid) : DbTx Unit := do
  completeOperationIfPresent command.idempotencyKey batchId
  commit

/-- How the transaction of a call ends: with the call's answer, or with a batch whose steps are
still to be read, outside the transaction, for the answer. -/
inductive Settlement where
  | answered (result : Except SettlementError BatchExecutionResult)
  | replaying (settlementBatchId : Uuid)

/-- The transaction from the record it has locked, on a session that has written nothing. -/
def settle (env : ExecEnv) (command : ExecuteBatchCommand) (fingerprint : String)
    (existing : Option IdempotencyRecordRow) (s : DbSession) : Settlement × Db :=
  match resolveIdempotency command fingerprint existing s with
  | .error e => (.answered (.error e), s.data)
  | .ok (some batchId, s₁) =>
    match replayOperation command batchId s₁ with
    | .error e => (.answered (.error e), s.data)
    | .ok (_, s₂) => (.replaying batchId, s₂.data)
  | .ok (none, s₁) =>
    match openBatch ext env command s₁ with
    | .error e => (.answered (.error e), s.data)
    | .ok (records, s₂) =>
      match executeSteps ext env 0 (command.operations.zip records) s₂ with
      | .error (.aborted e) => (.answered (.error e), s.data)
      | .error (.stepFailed attemptedSteps e) =>
        match recordFailure env command records attemptedSteps e
            ⟨s₂.data, s₂.deferred, env.auditFaults⟩ with
        | .error e' => (.answered (.error e'), s.data)
        | .ok (_, s₃) => (.answered (.error e), s₃.data)
      | .ok (results, s₃) =>
        match completeExecution env command s₃ with
        | .error e => (.answered (.error e), s.data)
        | .ok (_, s₄) =>
          (.answered (.ok ⟨env.settlementBatchId, command.idempotencyKey, .completed, false,
            results⟩), s₄.data)

def replayStep (row : SettlementStepRow) : Except SettlementError StepExecutionResult :=
  match OperationOutput.ofJson row.stepOutput with
  | .error m => .error (.serialization m)
  | .ok output =>
    .ok ⟨row.stepIndex, row.settlementStepId, kindNameToProto row.stepKind, output⟩

def replaySteps : List SettlementStepRow → Except SettlementError (List StepExecutionResult)
  | [] => .ok []
  | row :: rest => do
    let result ← replayStep row
    let results ← replaySteps rest
    pure (result :: results)

def batchSteps (db : Db) (settlementBatchId : Uuid) : List SettlementStepRow :=
  (db.settlementStep.rows.filter fun t => t.settlementBatchId = settlementBatchId).insertionSort
    (fun t u => t.stepIndex ≤ u.stepIndex)

def loadReplayedSteps (env : ExecEnv) (settlementBatchId : Uuid) (db : Db) :
    Except SettlementError (List StepExecutionResult) :=
  match env.replayFaults.head?.join with
  | some e => .error (.database e)
  | none => replaySteps (batchSteps db settlementBatchId)

def replayAnswer (env : ExecEnv) (command : ExecuteBatchCommand) (settlementBatchId : Uuid)
    (db : Db) : Except SettlementError BatchExecutionResult := do
  let results ← loadReplayedSteps env settlementBatchId db
  pure ⟨settlementBatchId, command.idempotencyKey, .completed, true, results⟩

def finishReplay (env : ExecEnv) (command : ExecuteBatchCommand) :
    Settlement × Db → Except SettlementError BatchExecutionResult × Db
  | (.answered r, db) => (r, db)
  | (.replaying batchId, db) => (replayAnswer env command batchId db, db)

def finishLookup (env : ExecEnv) (command : ExecuteBatchCommand) (fingerprint : String) (db : Db) :
    Except SettlementError (Option IdempotencyRecordRow × DbSession) →
      Except SettlementError BatchExecutionResult × Db
  | .error e => (.error e, db)
  | .ok (existing, s) => finishReplay env command (settle ext env command fingerprint existing s)

def executeBatch (env : ExecEnv) (command : ExecuteBatchCommand) (db : Db) :
    Except SettlementError BatchExecutionResult × Db :=
  match prepare ext command with
  | .error e => (.error e, db)
  | .ok fingerprint =>
    finishLookup ext env command fingerprint db (lookup command ⟨db, [], env.faults⟩)

end Phases

def runCalls (ext : External) : List (ExecEnv × ExecuteBatchCommand) → Db → Db
  | [], db => db
  | (env, command) :: rest, db => runCalls ext rest (executeBatch ext env command db).2

end EveTrade.SettlementExecutor
