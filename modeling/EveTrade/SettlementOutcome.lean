import EveTrade.SettlementExecutor
import EveTrade.SettlementOperationSpecs

set_option autoImplicit false

/-!
# What one settlement transaction can do

`Settled` lists every way in which the transaction of a call can end, with the rows it leaves.
-/
namespace EveTrade.SettlementOutcome

open KeyedTable TransactionMonad UuidText SettlementTypes SettlementCommands SettlementSchema
  SettlementStatements SettlementOperations SettlementEffects SettlementOperationSpecs
  SettlementAuthorization SettlementExecutor

section Rows

variable (ext : External) (env : ExecEnv)

def stepRecord (i : ℕ) (c : SettlementCommand) : StepRecord :=
  ⟨i, (env.step i).settlementStepId, c.protoKind⟩

def stepRecords : ℕ → List SettlementCommand → List StepRecord
  | _, [] => []
  | i, c :: cs => stepRecord env i c :: stepRecords (i + 1) cs

def stepRow (i : ℕ) (c : SettlementCommand) : SettlementStepRow :=
  newSettlementStep ext env.settlementBatchId (env.step i).settlementStepId i c

def stepRows : ℕ → List SettlementCommand → List SettlementStepRow
  | _, [] => []
  | i, c :: cs => stepRow ext env i c :: stepRows (i + 1) cs

def completedStepRows : ℕ → List SettlementCommand → List OperationOutput → List SettlementStepRow
  | i, c :: cs, o :: os => stepCompleted o (stepRow ext env i c) :: completedStepRows (i + 1) cs os
  | _, _, _ => []

def failedStepRow (attempted : ℕ) (code message : String) (i : ℕ) (c : SettlementCommand) :
    SettlementStepRow :=
  if i < attempted then stepFailed code (stepFailureMessage attempted message i) (stepRow ext env i c)
  else stepRow ext env i c

def failedStepRows (attempted : ℕ) (code message : String) :
    ℕ → List SettlementCommand → List SettlementStepRow
  | _, [] => []
  | i, c :: cs =>
    failedStepRow ext env attempted code message i c :: failedStepRows attempted code message (i + 1) cs

def stepResults : ℕ → List SettlementCommand → List OperationOutput → List StepExecutionResult
  | i, c :: cs, o :: os =>
    ⟨i, (env.step i).settlementStepId, c.protoKind, o⟩ :: stepResults (i + 1) cs os
  | _, _, _ => []

/-- The operations of a batch take effect one after the other. -/
inductive StepsRun : ℕ → List SettlementCommand → Business → Business → List DeferredCheck →
    List OperationOutput → Prop
  | nil {i : ℕ} {b : Business} : StepsRun i [] b b [] []
  | cons {i : ℕ} {c : SettlementCommand} {cs : List SettlementCommand} {b b₁ b₂ : Business}
      {checks₁ checks₂ : List DeferredCheck} {o : OperationOutput} {os : List OperationOutput}
      (effect : Effect ext (stepContext env (stepRecord env i c)) c b b₁ checks₁)
      (rest : StepsRun (i + 1) cs b₁ b₂ checks₂ os) :
      StepsRun i (c :: cs) b b₂ (checks₁ ++ checks₂) (o :: os)

end Rows

/-- The audit rows of one attempt: its record is put, the rest is new. -/
structure AuditWritten (db db' : Db) (record : IdempotencyRecordRow) (attempt : RequestAttemptRow)
    (batch : SettlementBatchRow) (steps : List SettlementStepRow) : Prop where
  record : db.idempotencyRecord.Put record db'.idempotencyRecord
  attempt : db.requestAttempt.insert? attempt = some db'.requestAttempt
  batch : db.settlementBatch.insert? batch = some db'.settlementBatch
  steps : db'.settlementStep.rows = db.settlementStep.rows ++ steps

/-- How a call that goes on to settle leaves the record of its key in progress. -/
inductive RecordOpening (command : ExecuteBatchCommand) (fingerprint : String)
    (records : Table IdempotencyRecordRow) : Option IdempotencyRecordRow → IdempotencyRecordRow → Prop
  | inserted (absent : records.find? command.idempotencyKey = none) :
      RecordOpening command fingerprint records none
        (newIdempotencyRecord command.idempotencyKey fingerprint command.createdByService)
  | reset (r : IdempotencyRecordRow) (found : records.find? command.idempotencyKey = some r)
      (same : r.requestFingerprint = fingerprint) (failed : r.idempotencyState = .failed) :
      RecordOpening command fingerprint records (some r) (recordReset r)

def Authorized (command : ExecuteBatchCommand) (b : Business) : Prop :=
  ∃ s s' : OpSession, s.data = b ∧ authorizePlan command s = .ok ((), s')

/-- A call that has reached its savepoint. -/
structure Opened (env : ExecEnv) (command : ExecuteBatchCommand) (fingerprint : String)
    (existing : Option IdempotencyRecordRow) (db : Db) (record : IdempotencyRecordRow)
    (attemptNumber : Int) : Prop where
  record : RecordOpening command fingerprint db.idempotencyRecord existing record
  assertion : ∀ a ∈ command.requestFingerprint, a = fingerprint
  authorized : command.intent ≠ .unspecified → Authorized command db.business
  attemptNumber : attemptNumber = maxAttemptNumber db command.idempotencyKey + 1
  causedBy : ∀ c ∈ command.causedByCapsuleerId, c ∈ db.business.capsuleer

section Tables

variable (env : ExecEnv) (command : ExecuteBatchCommand)

def openAttempt (attemptNumber : Int) : RequestAttemptRow :=
  newRequestAttempt (requestIdOf env command) command.idempotencyKey attemptNumber
    command.createdByService

def openBatchRow : SettlementBatchRow :=
  newSettlementBatch env.settlementBatchId (requestIdOf env command) env.now command

end Tables

def operationCompleted (idempotencyKey : String) (batchId : Uuid) (db : Db) : Db :=
  { db with
    settlementOperation :=
      db.settlementOperation.modify idempotencyKey (succeedOperation batchId) }

/-- Every way the transaction of a call can end. -/
inductive Settled (ext : External) (env : ExecEnv) (command : ExecuteBatchCommand)
    (fingerprint : String) (existing : Option IdempotencyRecordRow) (db : Db) :
    Settlement → Db → Prop
  | refused (e : SettlementError) :
      Settled ext env command fingerprint existing db (.answered (.error e)) db
  | replaying (r : IdempotencyRecordRow) (batchId : Uuid) (seen : existing = some r)
      (same : r.requestFingerprint = fingerprint)
      (assertion : ∀ a ∈ command.requestFingerprint, a = fingerprint)
      (completed : r.idempotencyState = .completed)
      (result : r.resultSettlementBatchId = some batchId) :
      Settled ext env command fingerprint existing db (.replaying batchId)
        (operationCompleted command.idempotencyKey batchId db)
  | failed (record : IdempotencyRecordRow) (attemptNumber : Int) (db' : Db)
      (opened : Opened env command fingerprint existing db record attemptNumber)
      (attempted : ℕ) (e : SettlementError)
      (audit : AuditWritten db db' (recordFailed e.code e.display record)
        (attemptFailed e.code e.display (openAttempt env command attemptNumber))
        (batchFailed e.code e.display (openBatchRow env command))
        (failedStepRows ext env attempted e.code e.display 0 command.operations))
      (business : db'.business = db.business)
      (operation : db'.settlementOperation = db.settlementOperation) :
      Settled ext env command fingerprint existing db (.answered (.error e)) db'
  | completed (record : IdempotencyRecordRow) (attemptNumber : Int) (db' : Db)
      (opened : Opened env command fingerprint existing db record attemptNumber)
      (checks : List DeferredCheck) (outputs : List OperationOutput)
      (run : StepsRun ext env 0 command.operations db.business db'.business checks outputs)
      (constraints : ∀ d ∈ checks, d.run db'.business = .ok ())
      (audit : AuditWritten db db' (recordCompleted env.settlementBatchId record)
        (attemptCompleted (openAttempt env command attemptNumber))
        (batchCompleted (openBatchRow env command))
        (completedStepRows ext env 0 command.operations outputs))
      (operation : db'.settlementOperation = db.settlementOperation.modify command.idempotencyKey
        (succeedOperation env.settlementBatchId)) :
      Settled ext env command fingerprint existing db
        (.answered (.ok ⟨env.settlementBatchId, command.idempotencyKey, .completed, false,
          stepResults env 0 command.operations outputs⟩)) db'

section Statements

variable {α : Type} {s s' : DbSession}

theorem executeDb_eq_ok {f : Db → Except DbError Db} {u : Unit} :
    executeDb f s = .ok (u, s') ↔
      s.nextFault = none ∧ ∃ db', f s.data = .ok db' ∧ s' = s.wrote db' [] := by
  unfold executeDb
  rw [Tx.statement_eq_ok]
  cases h : f s.data with
  | error e => simp
  | ok db' =>
    simp only [Except.ok.injEq, Prod.mk.injEq, true_and, exists_eq_left', and_congr_right_iff]
    intro _
    constructor
    · rintro ⟨_, _, ⟨rfl, rfl⟩, hs⟩
      exact hs
    · intro hs
      exact ⟨_, _, ⟨rfl, rfl⟩, hs⟩

theorem selectDb_eq_ok {read : Db → α} {a : α} :
    selectDb read s = .ok (a, s') ↔
      s.nextFault = none ∧ a = read s.data ∧ s' = s.wrote s.data [] :=
  Tx.query_eq_ok

theorem executeDb_bind_eq_ok {f : Db → Except DbError Db} {k : Unit → DbTx α}
    {r : α × DbSession} :
    (executeDb f >>= k) s = .ok r ↔
      s.nextFault = none ∧ ∃ db', f s.data = .ok db' ∧ k () (s.wrote db' []) = .ok r := by
  rw [Tx.unit_bind_eq_ok]
  constructor
  · rintro ⟨s₁, h₁, h₂⟩
    obtain ⟨hn, db', hf, rfl⟩ := executeDb_eq_ok.1 h₁
    exact ⟨hn, db', hf, h₂⟩
  · rintro ⟨hn, db', hf, h₂⟩
    exact ⟨_, executeDb_eq_ok.2 ⟨hn, db', hf, rfl⟩, h₂⟩

theorem lockTradeInstances_readOnly (ids : List Uuid) : (lockTradeInstances ids).ReadOnly := by
  induction ids with
  | nil => exact Tx.ReadOnly.pure ()
  | cons id ids ih => exact (Tx.ReadOnly.query _ _).bind fun _ => ih

theorem selectDb_succeeds (read : Db → α) : (selectDb read).Succeeds := Tx.Succeeds.query _ _

theorem lockTradeInstances_succeeds (ids : List Uuid) : (lockTradeInstances ids).Succeeds := by
  induction ids with
  | nil => exact Tx.Succeeds.pure ()
  | cons id ids ih => exact (selectDb_succeeds _).bind fun _ => ih

theorem lookup_succeeds (command : ExecuteBatchCommand) : (lookup command).Succeeds :=
  (selectDb_succeeds _).bind fun _ =>
    (lockTradeInstances_succeeds _).bind fun _ => selectDb_succeeds _

theorem lookup_eq_ok {command : ExecuteBatchCommand} {existing : Option IdempotencyRecordRow}
    (h : lookup command s = .ok (existing, s')) :
    s'.data = s.data ∧ s'.deferred = s.deferred ∧
      existing = s.data.idempotencyRecord.find? command.idempotencyKey := by
  obtain ⟨_, s₁, h₁, h⟩ := Tx.bind_eq_ok.1 h
  obtain ⟨_, _, rfl⟩ := selectDb_eq_ok.1 h₁
  obtain ⟨_, s₂, h₂, h⟩ := Tx.bind_eq_ok.1 h
  obtain ⟨hdata, hdeferred⟩ := lockTradeInstances_readOnly _ _ _ _ h₂
  obtain ⟨_, rfl, rfl⟩ := selectDb_eq_ok.1 h
  simp only [Session.wrote_data, Session.wrote_deferred, List.append_nil] at hdata hdeferred ⊢
  exact ⟨hdata, hdeferred, by rw [hdata]⟩

end Statements

section Opening

variable {ext : External} {env : ExecEnv} {command : ExecuteBatchCommand} {fingerprint : String}
  {existing : Option IdempotencyRecordRow} {s s' : DbSession}

theorem validateRequestFingerprintAssertion_bind_eq_ok {α : Type} {k : Unit → DbTx α}
    {r : α × DbSession} :
    (validateRequestFingerprintAssertion command.requestFingerprint fingerprint >>= k) s = .ok r ↔
      (∀ a ∈ command.requestFingerprint, a = fingerprint) ∧ k () s = .ok r :=
  Tx.ensure_bind_eq_ok

theorem resolveIdempotency_eq_none
    (locked : ∀ r ∈ existing, s.data.idempotencyRecord.find? command.idempotencyKey = some r)
    (h : resolveIdempotency command fingerprint existing s = .ok (none, s')) :
    ∃ record records,
      RecordOpening command fingerprint s.data.idempotencyRecord existing record ∧
      (∀ a ∈ command.requestFingerprint, a = fingerprint) ∧
      s.data.idempotencyRecord.Put record records ∧
      s'.data = { s.data with idempotencyRecord := records } ∧ s'.deferred = s.deferred := by
  cases existing with
  | none =>
    obtain ⟨ha, h⟩ := validateRequestFingerprintAssertion_bind_eq_ok.1 h
    obtain ⟨_, db', hi, h⟩ := executeDb_bind_eq_ok.1 h
    obtain ⟨records, hr, hdb⟩ := except_bind_eq_ok.1 hi
    obtain rfl := Except.ok.inj hdb
    obtain ⟨-, rfl⟩ := by simpa using h
    have hins := insertRow_eq_ok.1 hr
    exact ⟨_, records, .inserted (Table.insert?_eq_some_iff.1 hins).1, ha, .inl hins, rfl, by simp⟩
  | some r =>
    obtain ⟨hfp, h⟩ := Tx.ensure_bind_eq_ok.1 h
    obtain ⟨ha, h⟩ := validateRequestFingerprintAssertion_bind_eq_ok.1 h
    have hfound := locked r rfl
    cases hstate : r.idempotencyState with
    | completed =>
      simp only [hstate] at h
      obtain ⟨batchId, _, h⟩ := Tx.fromOption_bind_eq_ok.1 h
      simp at h
    | inProgress => simp [hstate] at h
    | failed =>
      simp only [hstate] at h
      obtain ⟨_, db', hdb, h⟩ := executeDb_bind_eq_ok.1 h
      obtain rfl := Except.ok.inj hdb
      obtain ⟨-, rfl⟩ := by simpa using h
      refine ⟨_, _, .reset r hfound hfp hstate, ha, .inr ⟨?_, ?_⟩, rfl, by simp⟩
      · have hk : Keyed.key (recordReset r) = command.idempotencyKey := by
          change Keyed.key r = _
          exact Table.find?_some_key hfound
        rw [hk, hfound]
        simp
      · exact Table.modify_of_find? hfound _

theorem resolveIdempotency_eq_some {batchId : Uuid}
    (h : resolveIdempotency command fingerprint existing s = .ok (some batchId, s')) :
    ∃ r, existing = some r ∧ r.requestFingerprint = fingerprint ∧
      (∀ a ∈ command.requestFingerprint, a = fingerprint) ∧ r.idempotencyState = .completed ∧
      r.resultSettlementBatchId = some batchId ∧ s' = s := by
  cases existing with
  | none =>
    obtain ⟨ha, h⟩ := validateRequestFingerprintAssertion_bind_eq_ok.1 h
    obtain ⟨_, db', hi, h⟩ := executeDb_bind_eq_ok.1 h
    simp at h
  | some r =>
    obtain ⟨hfp, h⟩ := Tx.ensure_bind_eq_ok.1 h
    obtain ⟨ha, h⟩ := validateRequestFingerprintAssertion_bind_eq_ok.1 h
    cases hstate : r.idempotencyState with
    | completed =>
      simp only [hstate] at h
      obtain ⟨id, hid, h⟩ := Tx.fromOption_bind_eq_ok.1 h
      obtain ⟨rfl, rfl⟩ := by simpa using h
      exact ⟨r, rfl, hfp, ha, hstate, hid, rfl⟩
    | inProgress => simp [hstate] at h
    | failed =>
      simp only [hstate] at h
      obtain ⟨_, db', hdb, h⟩ := executeDb_bind_eq_ok.1 h
      simp at h

theorem insertSettlementSteps_eq_ok {i : ℕ} {cs : List SettlementCommand}
    {records : List StepRecord} (h : insertSettlementSteps ext env i cs s = .ok (records, s')) :
    records = stepRecords env i cs ∧ s'.deferred = s.deferred ∧
      ∃ steps, s'.data = { s.data with settlementStep := steps } ∧
        steps.rows = s.data.settlementStep.rows ++ stepRows ext env i cs := by
  induction cs generalizing i s records with
  | nil =>
    obtain ⟨rfl, rfl⟩ := by simpa [insertSettlementSteps] using h
    exact ⟨rfl, rfl, s'.data.settlementStep, rfl, by simp [stepRows]⟩
  | cons c cs ih =>
    obtain ⟨_, h⟩ := Tx.ensure_bind_eq_ok.1 h
    obtain ⟨_, db', hi, h⟩ := executeDb_bind_eq_ok.1 h
    obtain ⟨steps₁, hins, hi⟩ := except_bind_eq_ok.1 hi
    obtain ⟨_, _, hi⟩ := except_bind_eq_ok.1 hi
    obtain ⟨_, _, hdb⟩ := except_bind_eq_ok.1 hi
    obtain rfl := Except.ok.inj hdb
    obtain ⟨rest, s₂, h₂, h⟩ := Tx.bind_eq_ok.1 h
    obtain ⟨rfl, rfl⟩ := by simpa using h
    obtain ⟨hrest, hdef, steps, hdata, hrows⟩ := ih h₂
    have hrows₁ := (Table.insert?_eq_some_iff.1 (insertRow_eq_ok.1 hins)).2
    refine ⟨by rw [hrest]; rfl, by simpa using hdef, steps, hdata, ?_⟩
    rw [hrows]
    change steps₁.rows ++ _ = _
    rw [hrows₁, List.append_assoc]
    rfl

theorem openBatch_eq_ok {records : List StepRecord}
    (h : openBatch ext env command s = .ok (records, s')) :
    records = stepRecords env 0 command.operations ∧ s'.deferred = s.deferred ∧
      (command.intent ≠ .unspecified → Authorized command s.data.business) ∧
      (∀ c ∈ command.causedByCapsuleerId, c ∈ s.data.business.capsuleer) ∧
      ∃ attempts batches steps,
        s.data.requestAttempt.insert? (openAttempt env command
          (maxAttemptNumber s.data command.idempotencyKey + 1)) = some attempts ∧
        s.data.settlementBatch.insert? (openBatchRow env command) = some batches ∧
        steps.rows = s.data.settlementStep.rows ++ stepRows ext env 0 command.operations ∧
        s'.data = { s.data with
          requestAttempt := attempts, settlementBatch := batches, settlementStep := steps } := by
  obtain ⟨_, s₁, h₁, h⟩ := Tx.bind_eq_ok.1 h
  obtain ⟨hdata₁, hdef₁⟩ :=
    Tx.ReadOnly.when _ ((authorizePlan_readOnly command).zoom fun _ => rfl) _ _ _ h₁
  have hauth : command.intent ≠ .unspecified → Authorized command s.data.business := by
    intro hintent
    rcases Tx.when_eq_ok.1 h₁ with ⟨_, hz⟩ | ⟨hn, _⟩
    · obtain ⟨t, ht, _⟩ := Tx.zoom_eq_ok.1 hz
      exact ⟨_, t, rfl, ht⟩
    · exact absurd hintent hn
  obtain ⟨number, s₂, h₂, h⟩ := Tx.bind_eq_ok.1 h
  obtain ⟨_, data₂, checks₂, hrun, hs₂⟩ := Tx.statement_eq_ok.1 h₂
  split_ifs at hrun with hrange
  obtain ⟨rfl, rfl, rfl⟩ := by simpa using hrun
  change s₂ = _ at hs₂
  subst hs₂
  obtain ⟨_, db₃, h₃, h⟩ := executeDb_bind_eq_ok.1 h
  obtain ⟨attempts, hins₃, h₃⟩ := except_bind_eq_ok.1 h₃
  obtain ⟨_, _, h₃⟩ := except_bind_eq_ok.1 h₃
  obtain ⟨_, _, h₃⟩ := except_bind_eq_ok.1 h₃
  obtain rfl := Except.ok.inj h₃
  obtain ⟨_, db₄, h₄, h⟩ := executeDb_bind_eq_ok.1 h
  obtain ⟨batches, hins₄, h₄⟩ := except_bind_eq_ok.1 h₄
  obtain ⟨_, _, h₄⟩ := except_bind_eq_ok.1 h₄
  obtain ⟨_, _, h₄⟩ := except_bind_eq_ok.1 h₄
  obtain ⟨_, hcaused, h₄⟩ := except_bind_eq_ok.1 h₄
  obtain rfl := Except.ok.inj h₄
  obtain ⟨rs, s₅, h₅, h⟩ := Tx.bind_eq_ok.1 h
  obtain ⟨hrecords, hdef₅, steps, hdata₅, hrows₅⟩ := insertSettlementSteps_eq_ok h₅
  obtain ⟨_, s₆, h₆, h⟩ := Tx.bind_eq_ok.1 h
  obtain ⟨_, _, rfl⟩ := selectDb_eq_ok.1 h₆
  obtain ⟨rfl, rfl⟩ := by simpa using h
  simp only [Session.wrote_data, Session.wrote_deferred, List.append_nil, hdata₁, insertRow_eq_ok,
    check_eq_ok] at *
  exact ⟨hrecords, hdef₅.trans hdef₁, hauth, hcaused, attempts, batches, steps, hins₃, hins₄,
    hrows₅, hdata₅⟩

end Opening

section Steps

variable {ext : External} {env : ExecEnv} {s s' : DbSession}
variable {id : Uuid} {u : Unit}

theorem executeDb_succeeds {f : Db → Except DbError Db} (h : ∀ db, ∃ db', f db = .ok db') :
    (executeDb f).Succeeds := by
  refine Tx.Succeeds.statement fun db => ?_
  obtain ⟨db', hdb⟩ := h db
  exact ⟨(), db', by rw [hdb]⟩

theorem updateStep_succeeds (id : Uuid) (f : SettlementStepRow → SettlementStepRow) :
    (updateStep id f).Succeeds :=
  executeDb_succeeds fun _ => ⟨_, rfl⟩

theorem updateBatch_succeeds (id : Uuid) (f : SettlementBatchRow → SettlementBatchRow) :
    (updateBatch id f).Succeeds :=
  executeDb_succeeds fun _ => ⟨_, rfl⟩

theorem updateAttempt_succeeds (id : Uuid) (f : RequestAttemptRow → RequestAttemptRow) :
    (updateAttempt id f).Succeeds :=
  executeDb_succeeds fun _ => ⟨_, rfl⟩

theorem failIdempotencyRecord_succeeds (key code message : String) :
    (failIdempotencyRecord key code message).Succeeds :=
  executeDb_succeeds fun _ => ⟨_, rfl⟩

/-- A statement that cannot fail by itself leaves no checks to the commit. -/
theorem rewriteDb_eq_ok {g : Db → Db} (h : executeDb (fun db => .ok (g db)) s = .ok (u, s')) :
    s'.data = g s.data ∧ s'.deferred = s.deferred := by
  obtain ⟨_, db', hdb, rfl⟩ := executeDb_eq_ok.1 h
  obtain rfl := Except.ok.inj hdb
  exact ⟨rfl, List.append_nil _⟩

theorem updateStep_eq_ok {f : SettlementStepRow → SettlementStepRow}
    (h : updateStep id f s = .ok (u, s')) :
    s'.data = { s.data with settlementStep := s.data.settlementStep.modify id f } ∧
      s'.deferred = s.deferred :=
  rewriteDb_eq_ok h

theorem updateBatch_eq_ok {f : SettlementBatchRow → SettlementBatchRow}
    (h : updateBatch id f s = .ok (u, s')) :
    s'.data = { s.data with settlementBatch := s.data.settlementBatch.modify id f } ∧
      s'.deferred = s.deferred :=
  rewriteDb_eq_ok h

theorem updateAttempt_eq_ok {f : RequestAttemptRow → RequestAttemptRow}
    (h : updateAttempt id f s = .ok (u, s')) :
    s'.data = { s.data with requestAttempt := s.data.requestAttempt.modify id f } ∧
      s'.deferred = s.deferred :=
  rewriteDb_eq_ok h

theorem failIdempotencyRecord_eq_ok {key code message : String}
    (h : failIdempotencyRecord key code message s = .ok (u, s')) :
    s'.data = { s.data with idempotencyRecord :=
      s.data.idempotencyRecord.modify key (recordFailed code message) } :=
  (rewriteDb_eq_ok h).1

theorem completeIdempotencyRecord_eq_ok {key : String}
    (h : completeIdempotencyRecord key id s = .ok (u, s')) :
    s'.data = { s.data with idempotencyRecord :=
      s.data.idempotencyRecord.modify key (recordCompleted id) } ∧ s'.deferred = s.deferred := by
  obtain ⟨_, db', hdb, rfl⟩ := executeDb_eq_ok.1 h
  obtain ⟨_, _, hdb⟩ := except_bind_eq_ok.1 hdb
  obtain rfl := Except.ok.inj hdb
  exact ⟨rfl, List.append_nil _⟩

theorem completeOperationIfPresent_eq_ok {key : String}
    (h : completeOperationIfPresent key id s = .ok (u, s')) :
    s'.data = operationCompleted key id s.data ∧ s'.deferred = s.deferred :=
  rewriteDb_eq_ok h

theorem onBusiness_eq_ok {α : Type} {x : OpTx α} {a : α}
    (h : onBusiness x s = .ok (a, s')) :
    ∃ t : OpSession, x ⟨s.data.business, s.deferred, s.faults⟩ = .ok (a, t) ∧
      s'.data = { s.data with business := t.data } ∧ s'.deferred = t.deferred := by
  obtain ⟨t, ht, rfl⟩ := Tx.zoom_eq_ok.1 h
  exact ⟨t, ht, rfl, rfl⟩

theorem executeStep_eq_ok {n i : ℕ} {c : SettlementCommand} {front back : List SettlementStepRow}
    {result : StepExecutionResult}
    (hrows : s.data.settlementStep.rows = front ++ stepRow ext env i c :: back)
    (h : executeStep ext env n c (stepRecord env i c) s = .ok (result, s')) :
    ∃ b checks o steps,
      Effect ext (stepContext env (stepRecord env i c)) c s.data.business b checks ∧
      steps.rows = front ++ stepCompleted o (stepRow ext env i c) :: back ∧
      s'.data = { s.data with business := b, settlementStep := steps } ∧
      s'.deferred = s.deferred ++ checks ∧
      result = ⟨i, (env.step i).settlementStepId, c.protoKind, o⟩ := by
  obtain ⟨_, s₁, h₁, h⟩ := Tx.bind_eq_ok.1 h
  obtain ⟨hdata₁, hdef₁⟩ := updateStep_eq_ok (Tx.mapError_eq_ok.1 h₁)
  have hrows₁ : s₁.data.settlementStep.rows =
      front ++ stepRunning (stepRow ext env i c) :: back := by
    rw [hdata₁]
    exact Table.modify_rows hrows stepRunning rfl
  obtain ⟨o, s₂, h₂, h⟩ := Tx.bind_eq_ok.1 h
  obtain ⟨t, ht, hdata₂, hdef₂⟩ := onBusiness_eq_ok (Tx.mapError_eq_ok.1 h₂)
  obtain ⟨checks, heffect, hdef⟩ := executeSettlementCommand_effect ht
  obtain ⟨_, s₃, h₃, h⟩ := Tx.bind_eq_ok.1 h
  obtain ⟨hdata₃, hdef₃⟩ := updateStep_eq_ok (Tx.mapError_eq_ok.1 h₃)
  obtain ⟨rfl, rfl⟩ := by simpa using h
  have hrows₂ : s₂.data.settlementStep.rows =
      front ++ stepRunning (stepRow ext env i c) :: back := by
    rw [hdata₂]
    exact hrows₁
  refine ⟨t.data, checks, o, _, ?_, Table.modify_rows hrows₂ (stepCompleted o) rfl, ?_, ?_, rfl⟩
  · rw [hdata₁] at heffect
    exact heffect
  · rw [hdata₃, hdata₂, hdata₁]
    rfl
  · rw [hdef₃, hdef₂, hdef]
    exact congrArg (· ++ checks) hdef₁

theorem executeSteps_eq_ok {n i : ℕ} {cs : List SettlementCommand}
    {front : List SettlementStepRow} {results : List StepExecutionResult}
    (hrows : s.data.settlementStep.rows = front ++ stepRows ext env i cs)
    (h : executeSteps ext env n (cs.zip (stepRecords env i cs)) s = .ok (results, s')) :
    ∃ b checks os steps,
      StepsRun ext env i cs s.data.business b checks os ∧
      steps.rows = front ++ completedStepRows ext env i cs os ∧
      s'.data = { s.data with business := b, settlementStep := steps } ∧
      s'.deferred = s.deferred ++ checks ∧ results = stepResults env i cs os := by
  induction cs generalizing n i s front results with
  | nil =>
    obtain ⟨rfl, rfl⟩ := by simpa [executeSteps] using h
    exact ⟨_, [], [], s'.data.settlementStep, .nil,
      by simpa [stepRows, completedStepRows] using hrows, rfl, by simp, rfl⟩
  | cons c cs ih =>
    obtain ⟨result, s₁, h₁, h⟩ := Tx.bind_eq_ok.1 h
    obtain ⟨b₁, checks₁, o, steps₁, heffect, hrows₁, hdata₁, hdef₁, rfl⟩ :=
      executeStep_eq_ok hrows h₁
    obtain ⟨rest, s₂, h₂, h⟩ := Tx.bind_eq_ok.1 h
    obtain ⟨rfl, rfl⟩ := by simpa using h
    have hfront : s₁.data.settlementStep.rows =
        (front ++ [stepCompleted o (stepRow ext env i c)]) ++ stepRows ext env (i + 1) cs := by
      rw [hdata₁, List.append_assoc]
      exact hrows₁
    obtain ⟨b₂, checks₂, os, steps₂, hrun, hrows₂, hdata₂, hdef₂, rfl⟩ := ih hfront h₂
    rw [hdata₁] at hrun
    refine ⟨b₂, checks₁ ++ checks₂, o :: os, steps₂, .cons heffect hrun, ?_, ?_, ?_, rfl⟩
    · rw [hrows₂, List.append_assoc]
      rfl
    · rw [hdata₂, hdata₁]
    · rw [hdef₂, hdef₁, List.append_assoc]

theorem failSteps_eq_ok {attempted i : ℕ} {code message : String} {cs : List SettlementCommand}
    {front : List SettlementStepRow}
    (hrows : s.data.settlementStep.rows = front ++ stepRows ext env i cs)
    (h : failSteps attempted code message i (stepRecords env i cs) s = .ok (u, s')) :
    s'.deferred = s.deferred ∧ ∃ steps, s'.data = { s.data with settlementStep := steps } ∧
      steps.rows = front ++ failedStepRows ext env attempted code message i cs := by
  induction cs generalizing i s front with
  | nil =>
    obtain rfl := by simpa [failSteps, stepRecords] using h
    exact ⟨rfl, s'.data.settlementStep, rfl, by simpa [stepRows, failedStepRows] using hrows⟩
  | cons c cs ih =>
    obtain ⟨_, s₁, h₁, h⟩ := Tx.bind_eq_ok.1 h
    have hstep : s₁.deferred = s.deferred ∧ ∃ steps,
        s₁.data = { s.data with settlementStep := steps } ∧
        steps.rows = (front ++ [failedStepRow ext env attempted code message i c]) ++
          stepRows ext env (i + 1) cs := by
      rcases Tx.when_eq_ok.1 h₁ with ⟨hi, hu⟩ | ⟨hi, hs⟩
      · obtain ⟨hdata, hdef⟩ := updateStep_eq_ok hu
        refine ⟨hdef, _, hdata, ?_⟩
        rw [failedStepRow, if_pos hi, List.append_assoc]
        exact Table.modify_rows hrows (stepFailed _ _) rfl
      · obtain ⟨-, rfl⟩ := by simpa using hs
        refine ⟨rfl, s.data.settlementStep, rfl, ?_⟩
        rw [failedStepRow, if_neg hi, List.append_assoc]
        exact hrows
    obtain ⟨hdef₁, steps₁, hdata₁, hrows₁⟩ := hstep
    have hfront : s₁.data.settlementStep.rows =
        (front ++ [failedStepRow ext env attempted code message i c]) ++
          stepRows ext env (i + 1) cs := by
      rw [hdata₁]
      exact hrows₁
    obtain ⟨hdef₂, steps₂, hdata₂, hrows₂⟩ := ih hfront h
    refine ⟨hdef₂.trans hdef₁, steps₂, by rw [hdata₂, hdata₁], ?_⟩
    rw [hrows₂, List.append_assoc]
    rfl

end Steps

section Closing

variable {ext : External} {env : ExecEnv} {command : ExecuteBatchCommand} {s s' : DbSession}
  {db : Db} {record : IdempotencyRecordRow} {attempt : RequestAttemptRow}
  {batch : SettlementBatchRow} {steps : List SettlementStepRow}
variable {u : Unit}

theorem commit_eq_ok (h : commit s = .ok (u, s')) :
    (∀ d ∈ s.deferred, d.run s.data.business = .ok ()) ∧ s'.data = s.data := by
  obtain ⟨_, hchecks, hs⟩ := Tx.commit_eq_ok.1 h
  change s' = _ at hs
  exact ⟨hchecks, by rw [hs]⟩

theorem recordFailure_eq_ok {attempted : ℕ} {e : SettlementError}
    (hkey : record.idempotencyKey = command.idempotencyKey)
    (hattempt : attempt.requestId = requestIdOf env command)
    (hbatch : batch.settlementBatchId = env.settlementBatchId)
    (haudit : AuditWritten db s.data record attempt batch (stepRows ext env 0 command.operations))
    (h : recordFailure env command (stepRecords env 0 command.operations) attempted e s =
      .ok (u, s')) :
    AuditWritten db s'.data (recordFailed e.code e.display record)
        (attemptFailed e.code e.display attempt) (batchFailed e.code e.display batch)
        (failedStepRows ext env attempted e.code e.display 0 command.operations) ∧
      s'.data.business = s.data.business ∧
      s'.data.settlementOperation = s.data.settlementOperation := by
  obtain ⟨_, s₁, h₁, h⟩ := Tx.bind_eq_ok.1 h
  obtain ⟨_, _, rfl⟩ := selectDb_eq_ok.1 h₁
  obtain ⟨_, s₅, h₅, h⟩ := Tx.bind_eq_ok.1 h
  obtain ⟨_, s₂, h₂, h₅⟩ := Tx.bind_eq_ok.1 h₅
  obtain ⟨_, table, hdata₂, hrows₂⟩ := failSteps_eq_ok (s := s.wrote s.data []) haudit.steps h₂
  obtain ⟨s₃, h₃, h₅⟩ := Tx.unit_bind_eq_ok.1 h₅
  obtain ⟨s₄, h₄, h₅⟩ := Tx.unit_bind_eq_ok.1 h₅
  obtain ⟨_, hdata⟩ := commit_eq_ok h
  rw [hdata, failIdempotencyRecord_eq_ok h₅, (updateAttempt_eq_ok h₄).1, (updateBatch_eq_ok h₃).1,
    hdata₂]
  refine ⟨⟨?_, ?_, ?_, hrows₂⟩, rfl, rfl⟩
  · rw [← hkey]
    exact Table.put_modify haudit.record (recordFailed e.code e.display) rfl
  · rw [← hattempt]
    exact Table.insert_modify haudit.attempt (attemptFailed e.code e.display) rfl
  · rw [← hbatch]
    exact Table.insert_modify haudit.batch (batchFailed e.code e.display) rfl

theorem completeExecution_eq_ok (hkey : record.idempotencyKey = command.idempotencyKey)
    (hattempt : attempt.requestId = requestIdOf env command)
    (hbatch : batch.settlementBatchId = env.settlementBatchId)
    (haudit : AuditWritten db s.data record attempt batch steps)
    (h : completeExecution env command s = .ok (u, s')) :
    AuditWritten db s'.data (recordCompleted env.settlementBatchId record)
        (attemptCompleted attempt) (batchCompleted batch) steps ∧
      s'.data.business = s.data.business ∧
      s'.data.settlementOperation = s.data.settlementOperation.modify command.idempotencyKey
        (succeedOperation env.settlementBatchId) ∧
      ∀ d ∈ s.deferred, d.run s.data.business = .ok () := by
  obtain ⟨_, s₁, h₁, h⟩ := Tx.bind_eq_ok.1 h
  obtain ⟨_, _, rfl⟩ := selectDb_eq_ok.1 h₁
  obtain ⟨s₂, h₂, h⟩ := Tx.unit_bind_eq_ok.1 h
  obtain ⟨hdata₂, hdef₂⟩ := updateBatch_eq_ok h₂
  obtain ⟨s₃, h₃, h⟩ := Tx.unit_bind_eq_ok.1 h
  obtain ⟨hdata₃, hdef₃⟩ := updateAttempt_eq_ok h₃
  obtain ⟨s₄, h₄, h⟩ := Tx.unit_bind_eq_ok.1 h
  obtain ⟨hdata₄, hdef₄⟩ := completeIdempotencyRecord_eq_ok h₄
  obtain ⟨s₅, h₅, h⟩ := Tx.unit_bind_eq_ok.1 h
  obtain ⟨hdata₅, hdef₅⟩ := completeOperationIfPresent_eq_ok h₅
  obtain ⟨hchecks, hdata⟩ := commit_eq_ok h
  rw [hdef₅, hdef₄, hdef₃, hdef₂, Session.wrote_deferred, List.append_nil] at hchecks
  rw [hdata₅, hdata₄, hdata₃, hdata₂] at hdata hchecks
  rw [hdata]
  refine ⟨⟨?_, ?_, ?_, haudit.steps⟩, rfl, rfl, hchecks⟩
  · rw [← hkey]
    exact Table.put_modify haudit.record (recordCompleted env.settlementBatchId) rfl
  · rw [← hattempt]
    exact Table.insert_modify haudit.attempt attemptCompleted rfl
  · rw [← hbatch]
    exact Table.insert_modify haudit.batch batchCompleted rfl

theorem replayOperation_eq_ok {batchId : Uuid}
    (h : replayOperation command batchId s = .ok (u, s')) :
    s'.data = operationCompleted command.idempotencyKey batchId s.data := by
  obtain ⟨s₁, h₁, h⟩ := Tx.unit_bind_eq_ok.1 h
  rw [(commit_eq_ok h).2, (completeOperationIfPresent_eq_ok h₁).1]

end Closing

section Settle

variable {ext : External} {env : ExecEnv} {command : ExecuteBatchCommand} {fingerprint : String}
  {existing : Option IdempotencyRecordRow} {s : DbSession}

theorem RecordOpening.key {records : Table IdempotencyRecordRow} {record : IdempotencyRecordRow}
    (h : RecordOpening command fingerprint records existing record) :
    record.idempotencyKey = command.idempotencyKey := by
  cases h with
  | inserted _ => rfl
  | reset r found _ _ => exact Table.find?_some_key found

theorem RecordOpening.requestFingerprint {records : Table IdempotencyRecordRow}
    {record : IdempotencyRecordRow}
    (h : RecordOpening command fingerprint records existing record) :
    record.requestFingerprint = fingerprint := by
  cases h with
  | inserted _ => rfl
  | reset r _ same _ => exact same

theorem opened_of_openBatch {s₁ s₂ : DbSession} {records : List StepRecord}
    (locked : ∀ r ∈ existing, s.data.idempotencyRecord.find? command.idempotencyKey = some r)
    (h₁ : resolveIdempotency command fingerprint existing s = .ok (none, s₁))
    (h₂ : openBatch ext env command s₁ = .ok (records, s₂)) :
    ∃ record attemptNumber,
      Opened env command fingerprint existing s.data record attemptNumber ∧
      AuditWritten s.data s₂.data record (openAttempt env command attemptNumber)
        (openBatchRow env command) (stepRows ext env 0 command.operations) ∧
      records = stepRecords env 0 command.operations ∧ s₂.deferred = s.deferred ∧
      s₂.data.business = s.data.business ∧
      s₂.data.settlementOperation = s.data.settlementOperation := by
  obtain ⟨record, table, hopening, hassert, hput, hdata₁, hdef₁⟩ :=
    resolveIdempotency_eq_none locked h₁
  obtain ⟨hrecords, hdef₂, hauth, hcaused, attempts, batches, steps, hattempt, hbatch, hsteps,
    hdata₂⟩ := openBatch_eq_ok h₂
  rw [hdata₁] at hauth hcaused hattempt hbatch hsteps hdata₂
  refine ⟨record, _, ⟨hopening, hassert, hauth, rfl, hcaused⟩, ?_, hrecords, hdef₂.trans hdef₁,
    by rw [hdata₂], by rw [hdata₂]⟩
  rw [hdata₂]
  exact ⟨hput, hattempt, hbatch, hsteps⟩

/-- The transaction ends in one of the listed ways. -/
theorem settle_settled (hdeferred : s.deferred = [])
    (locked : ∀ r ∈ existing, s.data.idempotencyRecord.find? command.idempotencyKey = some r) :
    Settled ext env command fingerprint existing s.data
      (settle ext env command fingerprint existing s).1
      (settle ext env command fingerprint existing s).2 := by
  unfold settle
  cases h₁ : resolveIdempotency command fingerprint existing s with
  | error e => exact .refused e
  | ok p =>
    obtain ⟨_ | batchId, s₁⟩ := p
    · dsimp only
      cases h₂ : openBatch ext env command s₁ with
      | error e => exact .refused e
      | ok q =>
        obtain ⟨records, s₂⟩ := q
        obtain ⟨record, number, hopened, haudit, rfl, hdef₂, hbusiness, hoperation⟩ :=
          opened_of_openBatch locked h₁ h₂
        have hkey := hopened.record.key
        dsimp only
        cases h₃ : executeSteps ext env 0
            (command.operations.zip (stepRecords env 0 command.operations)) s₂ with
        | error f =>
          cases f with
          | aborted e => exact .refused e
          | stepFailed attempted e =>
            dsimp only
            cases h₄ : recordFailure env command (stepRecords env 0 command.operations) attempted e
                ⟨s₂.data, s₂.deferred, env.auditFaults⟩ with
            | error e' => exact .refused e'
            | ok q =>
              obtain ⟨hfailed, hb, ho⟩ := recordFailure_eq_ok
                (s := ⟨s₂.data, s₂.deferred, env.auditFaults⟩) hkey rfl rfl haudit h₄
              exact .failed record number _ hopened attempted e hfailed (hb.trans hbusiness)
                (ho.trans hoperation)
        | ok q =>
          obtain ⟨results, s₃⟩ := q
          obtain ⟨b, checks, os, table, hrun, hrows, hdata₃, hdef₃, rfl⟩ :=
            executeSteps_eq_ok haudit.steps h₃
          have haudit₃ : AuditWritten s.data s₃.data record (openAttempt env command number)
              (openBatchRow env command) (completedStepRows ext env 0 command.operations os) := by
            rw [hdata₃]
            exact ⟨haudit.record, haudit.attempt, haudit.batch, hrows⟩
          dsimp only
          cases h₄ : completeExecution env command s₃ with
          | error e => exact .refused e
          | ok q =>
            obtain ⟨hdone, hb, ho, hchecks⟩ := completeExecution_eq_ok hkey rfl rfl haudit₃ h₄
            have hb₃ : s₃.data.business = b := by rw [hdata₃]
            have ho₃ : s₃.data.settlementOperation = s.data.settlementOperation := by
              rw [hdata₃]
              exact hoperation
            rw [← hb, hdef₃, hdef₂, hdeferred, List.nil_append] at hchecks
            rw [hbusiness, ← hb₃, ← hb] at hrun
            rw [ho₃] at ho
            exact .completed record number _ hopened checks os hrun hchecks hdone ho
    · obtain ⟨r, hr, hfp, hassert, hstate, hresult, rfl⟩ := resolveIdempotency_eq_some h₁
      dsimp only
      cases h₂ : replayOperation command batchId s₁ with
      | error e => exact .refused e
      | ok q =>
        have hdata : q.2.data = _ := replayOperation_eq_ok h₂
        dsimp only
        rw [hdata]
        exact .replaying r batchId hr hfp hassert hstate hresult

end Settle

section Calls

variable {ext : External} {env : ExecEnv} {command : ExecuteBatchCommand} {fingerprint : String}
  {existing : Option IdempotencyRecordRow} {db db' : Db} {settlement : Settlement}

/-- A call is refused before its transaction decides anything, or it ends as its transaction does. -/
theorem executeBatch_cases (ext : External) (env : ExecEnv) (command : ExecuteBatchCommand)
    (db : Db) :
    (∃ e, executeBatch ext env command db = (.error e, db)) ∨
      ∃ fingerprint settlement db', prepare ext command = .ok fingerprint ∧
        Settled ext env command fingerprint (db.idempotencyRecord.find? command.idempotencyKey) db
          settlement db' ∧
        executeBatch ext env command db = finishReplay env command (settlement, db') := by
  unfold executeBatch
  cases hp : prepare ext command with
  | error e => exact .inl ⟨e, rfl⟩
  | ok fingerprint =>
    dsimp only
    cases hl : lookup command ⟨db, [], env.faults⟩ with
    | error e => exact .inl ⟨e, rfl⟩
    | ok p =>
      obtain ⟨existing, s⟩ := p
      obtain ⟨hdata, hdeferred, hexisting⟩ := lookup_eq_ok hl
      have hlocked : ∀ r ∈ existing, s.data.idempotencyRecord.find? command.idempotencyKey = some r := by
        intro r hr
        rw [hdata, ← hexisting]
        exact hr
      have h := @settle_settled ext env command fingerprint existing s hdeferred hlocked
      rw [hdata, hexisting] at h
      exact .inr ⟨fingerprint, _, _, rfl, h, by rw [hexisting]; rfl⟩

theorem Settled.business_cases
    (h : Settled ext env command fingerprint existing db settlement db') :
    db'.business = db.business ∨
      ∃ outputs checks, StepsRun ext env 0 command.operations db.business db'.business checks outputs := by
  cases h with
  | refused e => exact .inl rfl
  | replaying r batchId _ _ _ _ _ => exact .inl rfl
  | failed record number _ _ attempted e _ hb _ => exact .inl hb
  | completed record number _ _ checks outputs run _ _ _ => exact .inr ⟨outputs, checks, run⟩

theorem finishReplay_db (p : Settlement × Db) : (finishReplay env command p).2 = p.2 := by
  obtain ⟨settlement, db⟩ := p
  cases settlement with
  | answered r => rfl
  | replaying id => rfl

end Calls

end EveTrade.SettlementOutcome
