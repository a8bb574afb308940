import EveTrade.LocalDevWorld
import EveTrade.SettlementDelivery

set_option autoImplicit false

/-!
# A failed command executed again

The attempt of a command is stored under its request id. A command that carries its request id
cannot record a second attempt, so executing it again after a failure never gets as far as its
steps.
-/
namespace EveTrade.SettlementRetry

open KeyedTable TransactionMonad UuidText SettlementTypes SettlementCommands SettlementSchema
  SettlementStatements SettlementOperationSpecs SettlementAuthorization SettlementExecutor
  SettlementOutcome SettlementRecords
open EveTrade.SettlementDelivery (isPermanentError)

/-- How a call ends: with its steps settled, with a failed attempt on record, or with nothing
recorded. -/
inductive Outcome where
  | completed (business : Business)
  | failedAttempt (error : SettlementError)
  | refused

def outcome (db : Db) : Except SettlementError BatchExecutionResult × Db → Outcome
  | (.ok _, db') => .completed db'.business
  | (.error e, db') =>
    if db'.requestAttempt.rows.length = db.requestAttempt.rows.length then .refused
    else .failedAttempt e

/-- The command has been executed before, with its failure on record. -/
structure RecordedFailed (ext : External) (command : ExecuteBatchCommand) (db : Db) : Prop where
  record : ∃ r, db.idempotencyRecord.find? command.idempotencyKey = some r ∧
    r.requestFingerprint = buildRequestFingerprint ext command ∧ r.idempotencyState = .failed
  attempt : ∃ id a, command.requestId = some id ∧ db.requestAttempt.find? id = some a ∧
    a.idempotencyKey = command.idempotencyKey ∧ a.attemptState = .failed

/-- The same plan under another key and request id. -/
def renamed (command : ExecuteBatchCommand) (idempotencyKey : String) (requestId : Uuid) :
    ExecuteBatchCommand :=
  { command with idempotencyKey := idempotencyKey, requestId := some requestId }

section Outcomes

variable {ext : External} {env : ExecEnv} {command : ExecuteBatchCommand} {db : Db}

theorem executeBatch_of_recordedFailed (env : ExecEnv) (h : RecordedFailed ext command db) :
    ∃ e, executeBatch ext env command db = (.error e, db) := by
  obtain ⟨r, hr, _, hfailed⟩ := h.record
  obtain ⟨id, a, hid, ha, _⟩ := h.attempt
  -- the new attempt would have the key of the old one
  have htaken : ∀ (attempt : RequestAttemptRow) (attempts : Table RequestAttemptRow),
      attempt.requestId = requestIdOf env command →
      db.requestAttempt.insert? attempt ≠ some attempts := by
    intro attempt attempts hkey hinsert
    have habsent := (Table.insert?_eq_some_iff.1 hinsert).1
    have hrequest : Keyed.key attempt = id := by
      rw [show Keyed.key attempt = attempt.requestId from rfl, hkey]
      unfold requestIdOf
      rw [hid]
      rfl
    rw [hrequest, ha] at habsent
    cases habsent
  rcases executeBatch_cases ext env command db with ⟨e, he⟩ | ⟨fp, st, db', hprep, hsettled, he⟩
  · exact ⟨e, he⟩
  · rw [he]
    cases hsettled with
    | refused e => exact ⟨e, rfl⟩
    | replaying q batchId seen _ _ completed _ =>
      obtain rfl := Option.some.inj (hr.symm.trans seen)
      rw [hfailed] at completed
      cases completed
    | failed record number _ opened attempted e audit _ _ =>
      exact absurd audit.attempt (htaken _ _ rfl)
    | completed record number _ opened checks outputs _ _ audit _ =>
      exact absurd audit.attempt (htaken _ _ rfl)

theorem recordedFailed_of_failedAttempt {e : SettlementError} {id : Uuid}
    (hid : command.requestId = some id)
    (h : outcome db (executeBatch ext env command db) = .failedAttempt e) :
    RecordedFailed ext command (executeBatch ext env command db).2 := by
  rcases executeBatch_cases ext env command db with ⟨f, hf⟩ | ⟨fp, st, db', hprep, hsettled, he⟩
  · simp [hf, outcome] at h
  · rw [he] at h ⊢
    obtain ⟨rfl, _⟩ := prepare_eq_ok hprep
    cases hsettled with
    | refused f => simp [finishReplay, outcome] at h
    | replaying q batchId seen _ _ completed _ =>
      dsimp only [finishReplay] at h
      generalize replayAnswer env command batchId
        (operationCompleted command.idempotencyKey batchId db) = answer at h
      cases answer with
      | error f => simp [outcome, operationCompleted] at h
      | ok result => simp [outcome] at h
    | failed record number _ opened attempted f audit _ _ =>
      refine ⟨⟨recordFailed f.code f.display record, ?_, opened.record.requestFingerprint, rfl⟩,
        id, attemptFailed f.code f.display (openAttempt env command number), hid, ?_, rfl, rfl⟩
      · change db'.idempotencyRecord.find? _ = _
        rw [Table.find?_put audit.record]
        exact if_pos opened.record.key
      · have hkey : requestIdOf env command = id := by
          unfold requestIdOf
          rw [hid]
          rfl
        rw [← hkey]
        exact Table.find?_insert_self audit.attempt
    | completed record number _ opened checks outputs _ _ audit _ =>
      simp [finishReplay, outcome] at h

theorem outcome_of_unchanged (e : SettlementError) : outcome db (.error e, db) = .refused := by
  simp [outcome]

theorem lockTradeInstances_quiet (ids : List Uuid) :
    lockTradeInstances ids ⟨db, [], []⟩ = .ok ((), ⟨db, [], []⟩) := by
  induction ids with
  | nil => rfl
  | cons id ids ih => exact ih

theorem lookup_quiet (command : ExecuteBatchCommand) :
    lookup command ⟨db, [], []⟩ =
      .ok (db.idempotencyRecord.find? command.idempotencyKey, ⟨db, [], []⟩) :=
  Tx.bind_eq_ok.2 ⟨(), ⟨db, [], []⟩, rfl,
    Tx.bind_eq_ok.2 ⟨(), ⟨db, [], []⟩, lockTradeInstances_quiet _, rfl⟩⟩

theorem resolveIdempotency_quiet
    (assertion : ∀ a ∈ command.requestFingerprint, a = buildRequestFingerprint ext command)
    (record : ∀ r, db.idempotencyRecord.find? command.idempotencyKey = some r →
      r.requestFingerprint = buildRequestFingerprint ext command ∧ r.idempotencyState = .failed) :
    ∃ records, resolveIdempotency command (buildRequestFingerprint ext command)
        (db.idempotencyRecord.find? command.idempotencyKey) ⟨db, [], []⟩ =
      .ok (none, ⟨{ db with idempotencyRecord := records }, [], []⟩) := by
  cases hfound : db.idempotencyRecord.find? command.idempotencyKey with
  | none =>
    obtain ⟨records, hrecords⟩ : ∃ records, db.idempotencyRecord.insert?
        (newIdempotencyRecord command.idempotencyKey (buildRequestFingerprint ext command)
          command.createdByService) = some records := by
      cases hinsert : db.idempotencyRecord.insert?
          (newIdempotencyRecord command.idempotencyKey (buildRequestFingerprint ext command)
            command.createdByService) with
      | none =>
        obtain ⟨q, hq⟩ := Table.insert?_eq_none_iff.1 hinsert
        exact absurd (hfound.symm.trans hq) (Option.some_ne_none q).symm
      | some records => exact ⟨records, rfl⟩
    refine ⟨records, ?_⟩
    rw [resolveIdempotency, validateRequestFingerprintAssertion_bind_eq_ok]
    refine ⟨assertion, executeDb_bind_eq_ok.2 ⟨rfl, _, ?_, rfl⟩⟩
    rw [insertRow_eq_ok.2 hrecords]
    rfl
  | some r =>
    obtain ⟨hfingerprint, hfailed⟩ := record r hfound
    refine ⟨db.idempotencyRecord.modify command.idempotencyKey recordReset, ?_⟩
    rw [resolveIdempotency, Tx.ensure_bind_eq_ok]
    refine ⟨hfingerprint, validateRequestFingerprintAssertion_bind_eq_ok.2 ⟨assertion, ?_⟩⟩
    rw [hfailed]
    rfl

/-- A call that no statement fails and whose command is in order. -/
structure Undisturbed (ext : External) (env : ExecEnv) (command : ExecuteBatchCommand) : Prop where
  faults : env.faults = []
  prepared : prepare ext command = .ok (buildRequestFingerprint ext command)
  assertion : ∀ a ∈ command.requestFingerprint, a = buildRequestFingerprint ext command

theorem executeBatch_of_unopened {e : SettlementError} (undisturbed : Undisturbed ext env command)
    (record : ∀ r, db.idempotencyRecord.find? command.idempotencyKey = some r →
      r.requestFingerprint = buildRequestFingerprint ext command ∧ r.idempotencyState = .failed)
    (unopened : ∀ records,
      openBatch ext env command ⟨{ db with idempotencyRecord := records }, [], []⟩ = .error e) :
    executeBatch ext env command db = (.error e, db) := by
  obtain ⟨records, hresolved⟩ := resolveIdempotency_quiet undisturbed.assertion record
  unfold executeBatch
  rw [undisturbed.prepared, undisturbed.faults, lookup_quiet]
  dsimp only [finishLookup, settle]
  rw [hresolved]
  dsimp only
  rw [unopened]
  rfl

theorem openBatch_of_unauthorized {e : SettlementError} {data : Db}
    (intent : command.intent ≠ .unspecified)
    (unauthorized : authorizePlan command ⟨data.business, [], []⟩ = .error e) :
    openBatch ext env command ⟨data, [], []⟩ = .error e := by
  refine Tx.bind_eq_error.2 (.inl ?_)
  rw [Tx.when, if_pos intent]
  unfold onBusiness Tx.zoom
  rw [unauthorized]

def duplicateAttempt : DbError := .uniqueViolation "request_attempt_pkey"

theorem insertRequestAttempt_taken {data : Db} {requestId : Uuid} {a : RequestAttemptRow}
    {idempotencyKey service : String} {number : Int}
    (taken : data.requestAttempt.find? requestId = some a) :
    insertRequestAttempt requestId idempotencyKey number service ⟨data, [], []⟩ =
      .error (.database duplicateAttempt) := by
  have hinsert : data.requestAttempt.insert?
      (newRequestAttempt requestId idempotencyKey number service) = none :=
    Table.insert?_eq_none_iff.2 ⟨a, taken⟩
  have hrow : insertRow data.requestAttempt
      (newRequestAttempt requestId idempotencyKey number service) "request_attempt_pkey" =
        .error duplicateAttempt := by
    unfold insertRow
    rw [hinsert]
    rfl
  unfold insertRequestAttempt executeDb Tx.statement
  dsimp only [Session.nextFault, List.head?_nil, Option.join]
  rw [hrow]
  rfl

theorem openBatch_of_taken {data : Db} {id : Uuid} {a : RequestAttemptRow}
    (requestId : command.requestId = some id) (taken : data.requestAttempt.find? id = some a)
    (number : InI32 (maxAttemptNumber data command.idempotencyKey + 1))
    (authorized : authorizePlan command ⟨data.business, [], []⟩ =
      .ok ((), ⟨data.business, [], []⟩)) :
    openBatch ext env command ⟨data, [], []⟩ = .error (.database duplicateAttempt) := by
  have hid : requestIdOf env command = id := by
    unfold requestIdOf
    rw [requestId]
    rfl
  refine Tx.bind_eq_error.2 (.inr ⟨(), ⟨data, [], []⟩, ?_, ?_⟩)
  · rw [Tx.when_eq_ok]
    by_cases hintent : command.intent ≠ .unspecified
    · refine .inl ⟨hintent, ?_⟩
      unfold onBusiness Tx.zoom
      rw [authorized]
    · exact .inr ⟨hintent, rfl⟩
  · refine Tx.bind_eq_error.2 (.inr ⟨_, ⟨data, [], []⟩,
      Tx.statement_eq_ok.2 ⟨rfl, _, [], if_pos number, rfl⟩, ?_⟩)
    rw [hid]
    exact Tx.bind_eq_error.2 (.inl (insertRequestAttempt_taken taken))

end Outcomes

section Claim

/-- A key under which nothing has been attempted, and an unused request id. -/
structure Unused (db : Db) (idempotencyKey : String) (requestId : Uuid) : Prop where
  record : db.idempotencyRecord.find? idempotencyKey = none
  attempt : db.requestAttempt.find? requestId = none

end Claim

section Seeded

open LocalDevWorld

def excessiveIssue : ExecuteBatchCommand :=
  issueTradeCommand "issue-1" (.ofNat 1) (.ofNat 2) 200 (some (.ofNat 3))

def excessive : SettlementError :=
  .insufficientQuantity "item_stack 11111111-1111-4111-8111-111111111111 has 100, requested 200"

def failedOnce : Db :=
  (executeBatch transparent (quietEnv 100) excessiveIssue (localDevWorld transparent)).2

def failure? : Outcome → Option SettlementError
  | .failedAttempt e => some e
  | _ => none

theorem eq_failedAttempt {o : Outcome} {e : SettlementError} (h : failure? o = some e) :
    o = .failedAttempt e := by
  cases o with
  | completed business => cases h
  | failedAttempt f =>
    obtain rfl := Option.some.inj h
    rfl
  | refused => cases h

theorem failedOnce_recorded : RecordedFailed transparent excessiveIssue failedOnce := by
  refine recordedFailed_of_failedAttempt (e := excessive) rfl (eq_failedAttempt ?_)
  decide +kernel

theorem failedOnce_unused : Unused failedOnce "issue-2" (.ofNat 4) := by
  constructor
  · exact Option.isNone_iff_eq_none.1 (by decide +kernel)
  · exact Option.isNone_iff_eq_none.1 (by decide +kernel)

end Seeded

end EveTrade.SettlementRetry
