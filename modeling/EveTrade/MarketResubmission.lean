import EveTrade.MarketPlanning

set_option autoImplicit false

/-!
# A settled request sent again

The executor stores its own fingerprint of a request, and the market compares it with the
fingerprint of another format. So the record of a settled request is never recognised as that of the
request.
-/
namespace EveTrade.MarketResubmission

open KeyedTable TransactionMonad JsonText FieldText SettlementTypes SettlementCommands
  SettlementSchema SettlementExecutor SettlementOutcome SettlementRecords SettlementWork
  SettlementService
open EveTrade.SettlementDelivery (SettlementPublication queueRequest)
open ValidationRules MarketRequests MarketRepository MarketReplay MarketHandler MarketPlanning

/-- Audit rows none of which was written by the market: no fingerprint is one of the market's, a
completed record has its batch, and the payload of a step is an object. -/
structure ExecutorRows (ext : External) (db : Db) : Prop where
  fingerprint : ∀ k r, db.idempotencyRecord.find? k = some r →
    ∀ kind body, r.requestFingerprint ≠ marketRequestFingerprint ext kind body
  result : ∀ k r, db.idempotencyRecord.find? k = some r → r.idempotencyState = .completed →
    ∃ id b, r.resultSettlementBatchId = some id ∧ db.settlementBatch.find? id = some b
  payload : ∀ t ∈ db.settlementStep.rows, ∃ fields, t.stepPayload = .obj fields

/-- A settlement has been recorded as completed under the key. -/
def CompletedUnder (db : Db) (key : String) : Prop :=
  ∃ r, db.idempotencyRecord.find? key = some r ∧ r.idempotencyState = .completed

section Fingerprints

variable {ext : External}

theorem marketRequestFingerprint_head (kind : RequestKind) (body : String) :
    (marketRequestFingerprint ext kind body).toList.head? = some 'm' := by
  simp only [marketRequestFingerprint, String.toList_append]
  rfl

theorem ne_marketRequestFingerprint {fingerprint : String}
    (h : fingerprint.toList.head? ≠ some 'm') (kind : RequestKind) (body : String) :
    fingerprint ≠ marketRequestFingerprint ext kind body := by
  rintro rfl
  exact h (marketRequestFingerprint_head kind body)

theorem buildRequestFingerprint_ne (command : ExecuteBatchCommand) (kind : RequestKind)
    (body : String) :
    buildRequestFingerprint ext command ≠ marketRequestFingerprint ext kind body := by
  refine ne_marketRequestFingerprint ?_ kind body
  simp only [buildRequestFingerprint, requestFingerprintPrefix, String.toList_append]
  change some 't' ≠ some 'm'
  decide

end Fingerprints

section Executor

variable {ext : External} {env : ExecEnv} {command : ExecuteBatchCommand} {db db' : Db}
  {fingerprint : String} {existing : Option IdempotencyRecordRow} {settlement : Settlement}

theorem completedStepRows_payload {i : ℕ} {cs : List SettlementCommand}
    {os : List OperationOutput} :
    ∀ t ∈ completedStepRows ext env i cs os, ∃ fields, t.stepPayload = .obj fields := by
  induction cs generalizing i os with
  | nil => intro t ht; cases ht
  | cons c cs ih =>
    intro t ht
    cases os with
    | nil => cases ht
    | cons o os =>
      rcases List.mem_cons.1 ht with rfl | ht
      · exact ⟨_, rfl⟩
      · exact ih t ht

theorem failedStepRows_payload {attempted i : ℕ} {code message : String}
    {cs : List SettlementCommand} :
    ∀ t ∈ failedStepRows ext env attempted code message i cs,
      ∃ fields, t.stepPayload = .obj fields := by
  induction cs generalizing i with
  | nil => intro t ht; cases ht
  | cons c cs ih =>
    intro t ht
    rcases List.mem_cons.1 ht with rfl | ht
    · unfold failedStepRow
      split_ifs <;> exact ⟨_, rfl⟩
    · exact ih t ht

/-- An attempt that writes its audit rows leaves all of them as the executor writes them. -/
theorem ExecutorRows.of_written {record : IdempotencyRecordRow} {attempt : RequestAttemptRow}
    {batch : SettlementBatchRow} {steps : List SettlementStepRow} (h : ExecutorRows ext db)
    (written : AuditWritten db db' record attempt batch steps)
    (fingerprint : record.requestFingerprint = buildRequestFingerprint ext command)
    (result : record.idempotencyState = .completed →
      record.resultSettlementBatchId = some batch.settlementBatchId)
    (payload : ∀ t ∈ steps, ∃ fields, t.stepPayload = .obj fields) : ExecutorRows ext db' := by
  have hbatch : ∀ id b, db.settlementBatch.find? id = some b →
      ∃ b', db'.settlementBatch.find? id = some b' := by
    intro id b hb
    rw [Table.find?_insert written.batch]
    split_ifs
    · exact ⟨batch, rfl⟩
    · exact ⟨b, hb⟩
  constructor
  · intro k r hr
    rw [Table.find?_put written.record] at hr
    split_ifs at hr
    · obtain rfl := Option.some.inj hr
      rw [fingerprint]
      exact buildRequestFingerprint_ne command
    · exact h.fingerprint k r hr
  · intro k r hr hcompleted
    rw [Table.find?_put written.record] at hr
    split_ifs at hr
    · obtain rfl := Option.some.inj hr
      refine ⟨_, batch, result hcompleted, ?_⟩
      rw [Table.find?_insert written.batch]
      exact if_pos rfl
    · obtain ⟨id, b, hid, hb⟩ := h.result k r hr hcompleted
      obtain ⟨b', hb'⟩ := hbatch id b hb
      exact ⟨id, b', hid, hb'⟩
  · intro t ht
    rw [written.steps, List.mem_append] at ht
    rcases ht with ht | ht
    · exact h.payload t ht
    · exact payload t ht

theorem Settled.executorRows (h : ExecutorRows ext db)
    (settled : Settled ext env command (buildRequestFingerprint ext command) existing db settlement
      db') : ExecutorRows ext db' := by
  cases settled with
  | refused e => exact h
  | replaying r batchId _ _ _ _ _ => exact ⟨h.fingerprint, h.result, h.payload⟩
  | failed record number _ opened attempted e audit _ _ =>
    refine h.of_written audit opened.record.requestFingerprint ?_ failedStepRows_payload
    intro hcompleted
    cases hcompleted
  | completed record number _ opened checks outputs _ _ audit _ =>
    exact h.of_written audit opened.record.requestFingerprint (fun _ => rfl)
      completedStepRows_payload

theorem executeBatch_executorRows (env : ExecEnv) (command : ExecuteBatchCommand)
    (h : ExecutorRows ext db) : ExecutorRows ext (executeBatch ext env command db).2 := by
  rcases executeBatch_cases ext env command db with ⟨e, he⟩ | ⟨fp, st, db', hprep, hsettled, he⟩
  · rw [he]
    exact h
  · rw [he, finishReplay_db]
    obtain ⟨rfl, _⟩ := prepare_eq_ok hprep
    exact Settled.executorRows h hsettled

theorem executeBatch_completedUnder (env : ExecEnv) (command : ExecuteBatchCommand) {key : String}
    (h : CompletedUnder db key) : CompletedUnder (executeBatch ext env command db).2 key := by
  rcases executeBatch_cases ext env command db with ⟨e, he⟩ | ⟨fp, st, db', hprep, hsettled, he⟩
  · rw [he]
    exact h
  · rw [he, finishReplay_db]
    obtain ⟨r, hr, hcompleted⟩ := h
    rcases Settled.audit_cases hsettled with ⟨hrecords, _⟩ | ⟨row, hchange, _⟩
    · refine ⟨r, ?_, hcompleted⟩
      rw [hrecords]
      exact hr
    · refine ⟨r, ?_, hcompleted⟩
      rw [hchange.find_record, if_neg]
      · exact hr
      · rintro rfl
        rw [(hchange.record_before hr).1] at hcompleted
        cases hcompleted

theorem completedUnder_of_executed {result : BatchExecutionResult}
    (h : (executeBatch ext env command db).1 = .ok result) :
    CompletedUnder (executeBatch ext env command db).2 command.idempotencyKey := by
  rcases executeBatch_cases ext env command db with ⟨e, he⟩ | ⟨fp, st, db', hprep, hsettled, he⟩
  · rw [he] at h
    cases h
  · rw [he] at h ⊢
    rw [finishReplay_db]
    cases hsettled with
    | refused e => cases h
    | replaying r batchId seen same assertion completed result => exact ⟨r, seen, completed⟩
    | failed record number _ opened attempted e audit _ _ => cases h
    | completed record number _ opened checks outputs _ _ audit _ =>
      refine ⟨recordCompleted env.settlementBatchId record, ?_, rfl⟩
      rw [Table.find?_put audit.record]
      exact if_pos opened.record.key

end Executor

section Runs

variable {ext : External} {w : World ext}

theorem executeMessage_executes (env : ExecEnv) (now : DateTime) (m : Message ext) (db : Db) :
    executeMessage env now m db = (none, db) ∨
      ∃ command, command.idempotencyKey = trim m.plan.request.idempotencyKey ∧
        executeMessage env now m db = ((answer (executeBatch ext env command db)).1.toOption,
          (executeBatch ext env command db).2) := by
  unfold executeMessage
  cases hproto : toProtoRequest ext now m.work with
  | error e => exact .inl rfl
  | ok request =>
    obtain rfl := toProtoRequest_eq_ok hproto
    dsimp only
    unfold executeSettlementBatch
    cases hfrom : tryFrom ext now (requestOf m.work) with
    | error e => exact .inl rfl
    | ok command =>
      refine .inr ⟨command, ?_, by dsimp only; rw [answer_db]⟩
      rw [(tryFrom_eq_ok hfrom).idempotencyKey, ← (work?_carries m.plan.planned).idempotencyKey]
      rfl

structure AuditKept (db db' : Db) : Prop where
  idempotencyRecord : db'.idempotencyRecord = db.idempotencyRecord
  settlementBatch : db'.settlementBatch = db.settlementBatch
  settlementStep : db'.settlementStep = db.settlementStep

theorem perform_audit (a : Action) (w : World ext) :
    AuditKept w.db (perform a w).db ∨
    ∃ env command, (perform a w).db = (executeBatch ext env command w.db).2 := by
  cases a with
  | plan request snapshot now =>
    cases hs : w.committed[snapshot]? with
    | none =>
      simp only [perform, hs]
      exact .inl ⟨rfl, rfl, rfl⟩
    | some db =>
      simp only [perform, hs, (planFrom_frame request now db w).1]
      exact .inl ⟨rfl, rfl, rfl⟩
  | queue plan operationId now =>
    cases hp : w.plans[plan]? with
    | none =>
      simp only [perform, hp]
      exact .inl ⟨rfl, rfl, rfl⟩
    | some p =>
      simp only [perform, hp]
      rcases queueSettlementOperation_cases now operationId (queueRequest p.work) w.db with
        ⟨_, h⟩ | ⟨_, _, _, h⟩ | ⟨_, _, _, h⟩ <;>
      · rw [h]
        exact .inl ⟨rfl, rfl, rfl⟩
  | update request =>
    simp only [perform]
    rcases updateSettlementOperation_cases request w.db with ⟨_, h⟩ | ⟨_, _, _, h⟩ <;>
    · rw [h]
      exact .inl ⟨rfl, rfl, rfl⟩
  | execute message env now =>
    cases hm : w.topic[message]? with
    | none =>
      simp only [perform, hm]
      exact .inl ⟨rfl, rfl, rfl⟩
    | some m =>
      simp only [perform, hm]
      rcases executeMessage_executes env now m w.db with h | ⟨command, _, h⟩
      · rw [h]
        exact .inl ⟨rfl, rfl, rfl⟩
      · rw [h]
        exact .inr ⟨env, command, rfl⟩

theorem perform_executorRows (a : Action) (h : ExecutorRows ext w.db) :
    ExecutorRows ext (perform a w).db := by
  rcases perform_audit a w with hkept | ⟨env, command, hdb⟩
  · constructor
    · rw [hkept.idempotencyRecord]
      exact h.fingerprint
    · rw [hkept.idempotencyRecord, hkept.settlementBatch]
      exact h.result
    · rw [hkept.settlementStep]
      exact h.payload
  · rw [hdb]
    exact executeBatch_executorRows env command h

theorem perform_completedUnder (a : Action) {key : String} (h : CompletedUnder w.db key) :
    CompletedUnder (perform a w).db key := by
  rcases perform_audit a w with hkept | ⟨env, command, hdb⟩
  · unfold CompletedUnder
    rw [hkept.idempotencyRecord]
    exact h
  · rw [hdb]
    exact executeBatch_completedUnder env command h

theorem run_executorRows (actions : List Action) (h : ExecutorRows ext w.db) :
    ExecutorRows ext (run actions w).db := by
  induction actions generalizing w with
  | nil => exact h
  | cons a actions ih => exact ih (perform_executorRows a h)

theorem run_completedUnder (actions : List Action) {key : String} (h : CompletedUnder w.db key) :
    CompletedUnder (run actions w).db key := by
  induction actions generalizing w with
  | nil => exact h
  | cons a actions ih => exact ih (perform_completedUnder a h)

theorem run_concat (before after : List Action) (w : World ext) :
    run (before ++ after) w = run after (run before w) := by
  induction before generalizing w with
  | nil => rfl
  | cons a before ih => exact ih (perform a w)

end Runs

section Answers

variable {ext : External} {now : DateTime} {db : Db} {ρ : Type}

def replays : Except ApiError (Submission ρ) → Bool
  | .ok (.replayed _) => true
  | _ => false

def refusal : Except ApiError (Submission ρ) → Option ApiError
  | .error e => some e
  | .ok _ => none

def requestReplays (ext : External) (now : DateTime) (db : Db) : Request → Bool
  | .issue m => replays (issueTradeInstance ext now db m)
  | .accept m => replays (acceptTradeInstance ext now db m)
  | .cancel m => replays (cancelTradeInstance ext db m)

def requestRefusal (ext : External) (now : DateTime) (db : Db) : Request → Option ApiError
  | .issue m => refusal (issueTradeInstance ext now db m)
  | .accept m => refusal (acceptTradeInstance ext now db m)
  | .cancel m => refusal (cancelTradeInstance ext db m)

def requestViolations (now : DateTime) : Request → List Violation
  | .issue m => m.violations now
  | .accept m => m.violations
  | .cancel m => m.violations

variable {kind : RequestKind} {key body : String} {answer : IdempotencyReplay → Option ρ}

theorem loadReplay_fingerprint (h : ExecutorRows ext db) {replay : IdempotencyReplay}
    (hload : loadReplay db key = .ok (some replay)) :
    replay.requestFingerprint ≠ marketRequestFingerprint ext kind body := by
  unfold loadReplay loadCompletedIdempotencyReplay at hload
  split_ifs at hload
  · cases hload
  cases hbatch : completedBatch db key with
  | none =>
    rw [hbatch] at hload
    cases hload
  | some found =>
    obtain ⟨record, batch⟩ := found
    rw [hbatch] at hload
    have hrecord : db.idempotencyRecord.find? key = some record := by
      obtain ⟨r, hr, hbatch⟩ := Option.bind_eq_some_iff.1 hbatch
      split_ifs at hbatch
      obtain ⟨id, _, hbatch⟩ := Option.bind_eq_some_iff.1 hbatch
      obtain ⟨b, _, hbatch⟩ := Option.bind_eq_some_iff.1 hbatch
      obtain rfl := (Prod.mk.inj (Option.some.inj hbatch)).1
      exact hr
    dsimp only at hload
    cases hsteps : replayStepsOf key (batchSteps db batch.settlementBatchId) with
    | error e =>
      rw [hsteps] at hload
      cases hload
    | ok steps =>
      rw [hsteps] at hload
      obtain rfl := Option.some.inj (Except.ok.inj hload)
      exact h.fingerprint key record hrecord kind body

theorem replayRequest_ne_some (h : ExecutorRows ext db) (result : ρ) :
    replayRequest ext db kind key body answer ≠ .ok (some result) := by
  intro heq
  unfold replayRequest at heq
  cases hload : loadReplay db key with
  | error e =>
    rw [hload] at heq
    cases heq
  | ok found =>
    rw [hload] at heq
    cases found with
    | none => cases heq
    | some replay =>
      dsimp only at heq
      rw [if_neg (loadReplay_fingerprint h hload)] at heq
      cases heq

theorem replayStepsOf_ok (key : String) {rows : List SettlementStepRow}
    (h : ∀ t ∈ rows, ∃ fields, t.stepPayload = .obj fields) :
    ∃ steps, replayStepsOf key rows = .ok steps := by
  induction rows with
  | nil => exact ⟨[], rfl⟩
  | cons t rows ih =>
    obtain ⟨⟨fields, hfields⟩, hrows⟩ := List.forall_mem_cons.1 h
    obtain ⟨steps, hsteps⟩ := ih hrows
    refine ⟨⟨t.stepKind, fields⟩ :: steps, ?_⟩
    rw [replayStepsOf, hfields]
    dsimp only [decodeReplayStepPayload]
    rw [hsteps]
    rfl

theorem batchSteps_payload (h : ExecutorRows ext db) (id : UuidText.Uuid) :
    ∀ t ∈ batchSteps db id, ∃ fields, t.stepPayload = .obj fields := by
  intro t ht
  unfold batchSteps at ht
  rw [List.mem_insertionSort] at ht
  exact h.payload t (List.mem_filter.1 ht).1

theorem replayRequest_conflicts (h : ExecutorRows ext db) (hkey : key ≠ "")
    (completed : CompletedUnder db key) :
    replayRequest ext db kind key body answer = .error (idempotencyConflict key) := by
  obtain ⟨r, hr, hstate⟩ := completed
  obtain ⟨id, b, hid, hb⟩ := h.result key r hr hstate
  have hfound : completedBatch db key = some (r, b) := by
    simp only [completedBatch, hr, hstate, hid, hb, Option.bind_eq_bind, Option.bind_some, if_true,
      Option.pure_def]
  obtain ⟨steps, hsteps⟩ := replayStepsOf_ok key (batchSteps_payload h b.settlementBatchId)
  have hload : loadReplay db key = .ok (some (replayOf db r b steps)) := by
    unfold loadReplay loadCompletedIdempotencyReplay
    rw [if_neg hkey, hfound]
    dsimp only
    rw [hsteps]
    rfl
  unfold replayRequest
  rw [hload]
  dsimp only
  rw [if_neg (loadReplay_fingerprint h hload)]

variable {violations : List Violation} {plan : Except ApiError GameTrade.SettlementPlan}
  {respond : GameTrade.SettlementPlan → SettlementPublication → ρ}

theorem submit_never_replays (h : ExecutorRows ext db) :
    replays (submit ext violations (replayRequest ext db kind key body answer) plan respond) =
      false := by
  have hne : ∀ result, replayRequest ext db kind key body answer ≠ .ok (some result) :=
    replayRequest_ne_some h
  generalize replayRequest ext db kind key body answer = replay at hne
  unfold submit
  cases validateMarketProto ext violations with
  | error e => rfl
  | ok _ =>
    cases replay with
    | error e => rfl
    | ok found =>
      cases found with
      | some result => exact absurd rfl (hne result)
      | none =>
        cases plan with
        | error e => rfl
        | ok p =>
          change replays (apiError .invalidArgument (GameTrade.settleTradeInstance p) >>= _) = false
          cases apiError .invalidArgument (GameTrade.settleTradeInstance p) with
          | error e => rfl
          | ok work => rfl

theorem submit_conflicts (h : ExecutorRows ext db) (valid : violations = []) (hkey : key ≠ "")
    (completed : CompletedUnder db key) :
    refusal (submit ext violations (replayRequest ext db kind key body answer) plan respond) =
      some (idempotencyConflict key) := by
  rw [replayRequest_conflicts h hkey completed, valid]
  rfl

theorem ne_empty_of_nonBlank {fieldPath : String} {value : String}
    (h : nonBlankString.check fieldPath value = []) : value ≠ "" := by
  rintro rfl
  have := Rule.check_eq_nil.1 h
  revert this
  decide

theorem key_ne_empty {request : Request} (h : requestViolations now request = []) :
    request.idempotencyKey ≠ "" := by
  cases request with
  | issue m =>
    simp only [requestViolations, IssueTradeInstanceRequest.violations,
      List.append_eq_nil_iff] at h
    exact ne_empty_of_nonBlank h.1.1.1.1.1.2
  | accept m =>
    simp only [requestViolations, AcceptTradeInstanceRequest.violations,
      List.append_eq_nil_iff] at h
    exact ne_empty_of_nonBlank h.1.1.1.1.1
  | cancel m =>
    simp only [requestViolations, CancelTradeInstanceRequest.violations,
      List.append_eq_nil_iff] at h
    exact ne_empty_of_nonBlank h.1.1

theorem request_never_replays (h : ExecutorRows ext db) (request : Request) :
    requestReplays ext now db request = false := by
  cases request with
  | issue m => exact submit_never_replays h
  | accept m => exact submit_never_replays h
  | cancel m => exact submit_never_replays h

theorem request_conflicts (h : ExecutorRows ext db) {request : Request}
    (valid : requestViolations now request = [])
    (completed : CompletedUnder db request.idempotencyKey) :
    requestRefusal ext now db request = some (idempotencyConflict request.idempotencyKey) := by
  have hkey := key_ne_empty valid
  cases request with
  | issue m => exact submit_conflicts h valid hkey completed
  | accept m => exact submit_conflicts h valid hkey completed
  | cancel m => exact submit_conflicts h valid hkey completed

end Answers

section Claim

/-- Once the execution of a request's work has succeeded, the request sent again is at no later
moment answered from its settlement: under a key that is stored as it was sent, it is refused as
another request. -/
theorem settled_request_never_replayed (ext : External) (db : Db) (rows : ExecutorRows ext db)
    (before after : List Action) (message : ℕ) (env : ExecEnv) (now : DateTime) (m : Message ext)
    (sent : (run before (start ext db)).topic[message]? = some m)
    (settled : (executeMessage env now m (run before (start ext db)).db).1.isSome = true)
    (later : DateTime) :
    requestReplays ext later
        (run (before ++ .execute message env now :: after) (start ext db)).db m.plan.request =
      false ∧
    (requestViolations later m.plan.request = [] →
      trim m.plan.request.idempotencyKey = m.plan.request.idempotencyKey →
      requestRefusal ext later
          (run (before ++ .execute message env now :: after) (start ext db)).db m.plan.request =
        some (idempotencyConflict m.plan.request.idempotencyKey)) := by
  have hrows := run_executorRows (w := start ext db)
    (before ++ .execute message env now :: after) rows
  refine ⟨request_never_replays hrows _, fun valid trimmed => request_conflicts hrows valid ?_⟩
  rw [run_concat]
  refine run_completedUnder (w := perform (.execute message env now) (run before (start ext db)))
    after ?_
  simp only [perform, sent]
  change CompletedUnder (executeMessage env now m (run before (start ext db)).db).2 _
  rcases executeMessage_executes env now m (run before (start ext db)).db with h | ⟨command, hkey, h⟩
  · rw [h] at settled
    cases settled
  · rw [h] at settled ⊢
    rw [← trimmed, ← hkey]
    cases hresult : (executeBatch ext env command (run before (start ext db)).db).1 with
    | error e =>
      unfold answer at settled
      generalize executeBatch ext env command (run before (start ext db)).db = r
        at hresult settled
      obtain ⟨r, d⟩ := r
      obtain rfl : r = .error e := hresult
      cases settled
    | ok result => exact completedUnder_of_executed hresult

end Claim

section Seeded

open LocalDevWorld

/-- The seller's offer is settled, and the seller sends it again. -/
theorem settledOffer_refused :
    (∃ r ∈ (run offering (start hexadecimal (localDevWorld hexadecimal))).db.idempotencyRecord.rows,
      r.idempotencyKey = offer.idempotencyKey ∧ r.idempotencyState = .completed) ∧
    requestViolations 1 offer = [] ∧
    requestRefusal hexadecimal 1
        (run offering (start hexadecimal (localDevWorld hexadecimal))).db offer =
      some ⟨.aborted,
        "idempotency_key issue was already used with a different request fingerprint"⟩ := by
  decide +kernel

def queuedOffer : World hexadecimal :=
  run [.plan offer 0 0, .queue 0 (.ofNat 0x51) 0] (start hexadecimal (localDevWorld hexadecimal))

theorem localDevWorld_executorRows : ExecutorRows hexadecimal (localDevWorld hexadecimal) where
  fingerprint := by
    intro k r hr
    obtain rfl := List.mem_singleton.1 (Table.find?_some_mem hr)
    exact ne_marketRequestFingerprint (by decide +kernel)
  result := by
    intro k r hr _
    obtain rfl := List.mem_singleton.1 (Table.find?_some_mem hr)
    exact ⟨seedBatchId, seedBatch, rfl, rfl⟩
  payload := by
    intro t ht
    obtain rfl := List.mem_singleton.1 ht
    exact ⟨_, rfl⟩

theorem settled_request_never_replayed_offer : ∃ m, queuedOffer.topic[0]? = some m ∧
    requestReplays hexadecimal 1
      (run offering (start hexadecimal (localDevWorld hexadecimal))).db m.plan.request = false := by
  have hsent : queuedOffer.topic[0]?.isSome = true := by decide +kernel
  have hsettled : ∀ m ∈ queuedOffer.topic,
      (executeMessage (quietEnv 100) 0 m queuedOffer.db).1.isSome = true := by decide +kernel
  obtain ⟨m, hm⟩ := Option.isSome_iff_exists.1 hsent
  have hnever := settled_request_never_replayed hexadecimal (localDevWorld hexadecimal)
    localDevWorld_executorRows [.plan offer 0 0, .queue 0 (.ofNat 0x51) 0] [] 0 (quietEnv 100) 0 m hm
    (hsettled m (List.mem_of_getElem? hm)) 1
  exact ⟨m, hm, hnever.1⟩

end Seeded

end EveTrade.MarketResubmission
