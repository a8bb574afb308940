import EveTrade.LocalDevWorld

set_option autoImplicit false

/-!
# What a failed call leaves behind
-/
namespace EveTrade.SettlementFailureAudit

open KeyedTable TransactionMonad UuidText SettlementTypes SettlementCommands SettlementSchema
  SettlementOperations SettlementExecutor SettlementOutcome LocalDevWorld

section Positions

variable (ext : External) (env : ExecEnv)

/-- The error of a call that ends before its first step runs. -/
def errorBeforeSteps (command : ExecuteBatchCommand) (db : Db) : Option SettlementError :=
  match prepare ext command with
  | .error e => some e
  | .ok fingerprint =>
    match lookup command ⟨db, [], env.faults⟩ with
    | .error e => some e
    | .ok (existing, s) =>
      match resolveIdempotency command fingerprint existing s with
      | .error e => some e
      | .ok (some _, _) => none
      | .ok (none, s₁) =>
        match openBatch ext env command s₁ with
        | .error e => some e
        | .ok _ => none

def firstFailure : ℕ → List (SettlementCommand × StepRecord) → DbSession →
    Option (ℕ × SettlementError)
  | _, [], _ => none
  | k, (operation, step) :: rest, s =>
    match markStepRunning step.settlementStepId s with
    | .error _ => none
    | .ok (_, s₁) =>
      match onBusiness (executeSettlementCommand ext (stepContext env step) operation) s₁ with
      | .error e => some (k, e)
      | .ok (output, s₂) =>
        match markStepCompleted step.settlementStepId output s₂ with
        | .error _ => none
        | .ok (_, s₃) => firstFailure (k + 1) rest s₃

def failingStep (command : ExecuteBatchCommand) (db : Db) : Option (ℕ × SettlementError) :=
  match prepare ext command with
  | .error _ => none
  | .ok fingerprint =>
    match lookup command ⟨db, [], env.faults⟩ with
    | .error _ => none
    | .ok (existing, s) =>
      match resolveIdempotency command fingerprint existing s with
      | .error _ => none
      | .ok (some _, _) => none
      | .ok (none, s₁) =>
        match openBatch ext env command s₁ with
        | .error _ => none
        | .ok (records, s₂) => firstFailure ext env 0 (command.operations.zip records) s₂

/-- The rows a failure of step `k` commits. -/
structure FailureAudit (command : ExecuteBatchCommand) (k : ℕ) (e : SettlementError) (db db' : Db) :
    Prop where
  business : db'.business = db.business
  steps : ∀ (i : ℕ) (c : SettlementCommand), command.operations[i]? = some c →
    ∃ t, db'.settlementStep.find? (env.step i).settlementStepId = some t ∧
      t.settlementBatchId = env.settlementBatchId ∧ t.stepIndex = i ∧ t.stepKind = c.kindName ∧
      t.stepState = (if i ≤ k then .failed else .pending) ∧
      t.failureCode = (if i ≤ k then some e.code else none)
  batch : ∃ b, db'.settlementBatch.find? env.settlementBatchId = some b ∧
    b.idempotencyKey = command.idempotencyKey ∧ b.batchState = .failed ∧
    b.failureCode = some e.code ∧ b.failureMessage = some e.display
  attempt : ∃ a, db'.requestAttempt.find? (requestIdOf env command) = some a ∧
    a.idempotencyKey = command.idempotencyKey ∧ a.attemptState = .failed ∧
    a.failureCode = some e.code ∧ a.failureMessage = some e.display
  record : ∃ r, db'.idempotencyRecord.find? command.idempotencyKey = some r ∧
    r.idempotencyState = .failed ∧ r.failureCode = some e.code ∧
    r.failureMessage = some e.display ∧ r.resultSettlementBatchId = none

end Positions

section Steps

variable {ext : External} {env : ExecEnv}

theorem executeSteps_of_firstFailure {n j : ℕ} {xs : List (SettlementCommand × StepRecord)}
    {s : DbSession} {e : SettlementError} (h : firstFailure ext env n xs s = some (j, e)) :
    executeSteps ext env n xs s = .error (.stepFailed (j + 1) e) := by
  induction xs generalizing n s with
  | nil => cases h
  | cons x rest ih =>
    obtain ⟨operation, step⟩ := x
    change Tx.bind _ _ s = _
    cases h₁ : markStepRunning step.settlementStepId s with
    | error f => simp [firstFailure, h₁] at h
    | ok p =>
      obtain ⟨u, s₁⟩ := p
      have hrunning : Tx.mapError StepsError.aborted (markStepRunning step.settlementStepId) s =
          .ok ((), s₁) := Tx.mapError_eq_ok.2 h₁
      cases h₂ : onBusiness (executeSettlementCommand ext (stepContext env step) operation) s₁ with
      | error f =>
        have hfail : (n, f) = (j, e) := by simpa [firstFailure, h₁, h₂] using h
        obtain ⟨rfl, rfl⟩ := Prod.mk.inj hfail
        have hstep : executeStep ext env (n + 1) operation step s =
            .error (.stepFailed (n + 1) f) :=
          Tx.bind_eq_error.2 (.inr ⟨(), s₁, hrunning, Tx.bind_eq_error.2
            (.inl (Tx.mapError_eq_error h₂))⟩)
        exact Tx.bind_eq_error.2 (.inl hstep)
      | ok q =>
        obtain ⟨output, s₂⟩ := q
        cases h₃ : markStepCompleted step.settlementStepId output s₂ with
        | error f => simp [firstFailure, h₁, h₂, h₃] at h
        | ok r =>
          obtain ⟨u', s₃⟩ := r
          have hrest : firstFailure ext env (n + 1) rest s₃ = some (j, e) := by
            simpa [firstFailure, h₁, h₂, h₃] using h
          have hstep : executeStep ext env (n + 1) operation step s =
              .ok (⟨step.stepIndex, step.settlementStepId, step.stepKind, output⟩, s₃) :=
            Tx.bind_eq_ok.2 ⟨(), s₁, hrunning, Tx.bind_eq_ok.2 ⟨output, s₂,
              Tx.mapError_eq_ok.2 h₂, Tx.bind_eq_ok.2 ⟨(), s₃, Tx.mapError_eq_ok.2 h₃, rfl⟩⟩⟩
          exact Tx.bind_eq_error.2 (.inr ⟨_, s₃, hstep, Tx.bind_eq_error.2 (.inl (ih hrest))⟩)

theorem failSteps_succeeds (attempted : ℕ) (code message : String) (i : ℕ)
    (records : List StepRecord) : (failSteps attempted code message i records).Succeeds := by
  induction records generalizing i with
  | nil => exact Tx.Succeeds.pure ()
  | cons step rest ih =>
    exact (Tx.Succeeds.when _ (updateStep_succeeds _ _)).bind fun _ => ih (i + 1)

theorem recordFailure_of_clean (command : ExecuteBatchCommand) (records : List StepRecord)
    (attempted : ℕ) (e : SettlementError) {s : DbSession} (hs : s.Clean) (hd : s.deferred = []) :
    ∃ s', recordFailure env command records attempted e s = .ok ((), s') := by
  have hwrites : (failExecution env command records attempted e.code e.display).Succeeds :=
    (failSteps_succeeds _ _ _ _ _).bind fun _ => (updateBatch_succeeds _ _).bind fun _ =>
      (updateAttempt_succeeds _ _).bind fun _ => failIdempotencyRecord_succeeds _ _ _
  obtain ⟨_, s₁, h₁, hc₁, hd₁⟩ := selectDb_succeeds (fun _ => ()) s hs
  obtain ⟨_, s₂, h₂, hc₂, hd₂⟩ := hwrites s₁ hc₁
  have hcommit : commit s₂ = _ := Tx.commit_of_clean hc₂ (hd₂.trans (hd₁.trans hd))
  exact ⟨_, Tx.bind_eq_ok.2 ⟨_, s₁, h₁, Tx.bind_eq_ok.2 ⟨_, s₂, h₂, hcommit⟩⟩⟩

end Steps

section Calls

variable {ext : External} {env : ExecEnv} {command : ExecuteBatchCommand} {db db' : Db}
  {e : SettlementError}

theorem executeBatch_of_errorBeforeSteps (h : errorBeforeSteps ext env command db = some e) :
    executeBatch ext env command db = (.error e, db) := by
  unfold errorBeforeSteps at h
  unfold executeBatch
  cases hp : prepare ext command with
  | error f =>
    simp only [hp, Option.some.injEq] at h
    rw [h]
  | ok fingerprint =>
    simp only [hp] at h ⊢
    cases hl : lookup command ⟨db, [], env.faults⟩ with
    | error f =>
      simp only [hl, Option.some.injEq] at h
      rw [h]
      rfl
    | ok p =>
      obtain ⟨existing, s⟩ := p
      have hdata : s.data = db := (lookup_eq_ok hl).1
      simp only [hl] at h
      simp only [finishLookup, settle]
      cases hr : resolveIdempotency command fingerprint existing s with
      | error f =>
        simp only [hr, Option.some.injEq] at h
        simp only [finishReplay, hdata, h]
      | ok q =>
        obtain ⟨_ | id, s₁⟩ := q
        · simp only [hr] at h
          cases ho : openBatch ext env command s₁ with
          | error f =>
            simp only [ho, Option.some.injEq] at h
            simp only [ho, finishReplay, hdata, h]
          | ok r => simp [ho] at h
        · simp [hr] at h

/-- A call that returns an error has changed no business row. -/
theorem business_of_error (h : executeBatch ext env command db = (.error e, db')) :
    db'.business = db.business := by
  rcases executeBatch_cases ext env command db with ⟨f, hf⟩ | ⟨fp, settlement, db₁, _, hsettled, he⟩
  · rw [hf] at h
    rw [(Prod.mk.inj h).2]
  · rw [he] at h
    cases hsettled with
    | refused f =>
      rw [← (Prod.mk.inj h).2]
    | replaying r batchId _ _ _ _ _ =>
      rw [← (Prod.mk.inj h).2]
      rfl
    | failed record number _ _ attempted f _ hb _ =>
      rw [← (Prod.mk.inj h).2]
      exact hb
    | completed record number _ _ checks outputs _ _ _ _ => cases (Prod.mk.inj h).1

theorem failedStepRow_mem (attempted n : ℕ) (code message : String) {i : ℕ}
    {cs : List SettlementCommand} {c : SettlementCommand} (h : cs[i]? = some c) :
    failedStepRow ext env attempted code message (n + i) c ∈
      failedStepRows ext env attempted code message n cs := by
  induction cs generalizing n i with
  | nil => simp at h
  | cons d cs ih =>
    cases i with
    | zero =>
      obtain rfl : d = c := by simpa using h
      exact List.mem_cons_self
    | succ i =>
      have htail : cs[i]? = some c := by simpa using h
      have hmem := ih (n + 1) htail
      rw [show n + (i + 1) = n + 1 + i by omega]
      exact List.mem_cons_of_mem _ hmem

theorem failureAudit_of_written {fingerprint : String} {existing : Option IdempotencyRecordRow}
    {record : IdempotencyRecordRow} {number : Int} {k : ℕ}
    (opened : Opened env command fingerprint existing db record number)
    (audit : AuditWritten db db' (recordFailed e.code e.display record)
      (attemptFailed e.code e.display (openAttempt env command number))
      (batchFailed e.code e.display (openBatchRow env command))
      (failedStepRows ext env (k + 1) e.code e.display 0 command.operations))
    (business : db'.business = db.business) : FailureAudit env command k e db db' where
  business := business
  steps := by
    intro i c hc
    have hmem : failedStepRow ext env (k + 1) e.code e.display (0 + i) c ∈ _ :=
      failedStepRow_mem (k + 1) 0 e.code e.display hc
    rw [Nat.zero_add] at hmem
    refine ⟨failedStepRow ext env (k + 1) e.code e.display i c, ?_, ?_⟩
    · rw [Table.find?_eq_some_iff, audit.steps]
      refine ⟨List.mem_append_right _ hmem, ?_⟩
      unfold failedStepRow
      split_ifs <;> rfl
    · unfold failedStepRow
      by_cases hi : i ≤ k
      · rw [if_pos (by omega : i < k + 1), if_pos hi, if_pos hi]
        exact ⟨rfl, rfl, rfl, rfl, rfl⟩
      · rw [if_neg (by omega : ¬ i < k + 1), if_neg hi, if_neg hi]
        exact ⟨rfl, rfl, rfl, rfl, rfl⟩
  batch := ⟨_, Table.find?_insert_self audit.batch, rfl, rfl, rfl, rfl⟩
  attempt := ⟨_, Table.find?_insert_self audit.attempt, rfl, rfl, rfl, rfl⟩
  record := by
    refine ⟨recordFailed e.code e.display record, ?_, rfl, rfl, rfl, rfl⟩
    rw [Table.find?_put audit.record, if_pos]
    exact opened.record.key

/-- A step that fails is answered with its own error, after the rows of the failure are committed. -/
theorem written_of_failingStep {k : ℕ} (h : failingStep ext env command db = some (k, e))
    (hclean : ∀ f ∈ env.auditFaults, f = none) :
    ∃ db' fingerprint existing record number, executeBatch ext env command db = (.error e, db') ∧
      Opened env command fingerprint existing db record number ∧
      AuditWritten db db' (recordFailed e.code e.display record)
        (attemptFailed e.code e.display (openAttempt env command number))
        (batchFailed e.code e.display (openBatchRow env command))
        (failedStepRows ext env (k + 1) e.code e.display 0 command.operations) ∧
      db'.business = db.business := by
  unfold failingStep at h
  cases hp : prepare ext command with
  | error f => simp [hp] at h
  | ok fingerprint =>
    simp only [hp] at h
    cases hl : lookup command ⟨db, [], env.faults⟩ with
    | error f => simp [hl] at h
    | ok p =>
      obtain ⟨existing, s⟩ := p
      obtain ⟨hdata, hdeferred, hexisting⟩ := lookup_eq_ok hl
      simp only [hl] at h
      cases hr : resolveIdempotency command fingerprint existing s with
      | error f => simp [hr] at h
      | ok q =>
        obtain ⟨_ | id, s₁⟩ := q
        · simp only [hr] at h
          cases ho : openBatch ext env command s₁ with
          | error f => simp [ho] at h
          | ok r =>
            obtain ⟨records, s₂⟩ := r
            simp only [ho] at h
            have hlocked : ∀ r ∈ existing,
                s.data.idempotencyRecord.find? command.idempotencyKey = some r := by
              intro r hr'
              rw [hdata, ← hexisting]
              exact hr'
            obtain ⟨record, number, hopened, haudit, rfl, hdef₂, hbusiness, _⟩ :=
              opened_of_openBatch hlocked hr ho
            have hsteps := executeSteps_of_firstFailure h
            have hcleanSession : (⟨s₂.data, s₂.deferred, env.auditFaults⟩ : DbSession).Clean := hclean
            obtain ⟨s₃, h₃⟩ := recordFailure_of_clean command
              (stepRecords env 0 command.operations) (k + 1) e hcleanSession
              (hdef₂.trans hdeferred)
            obtain ⟨hfailed, hb, _⟩ := recordFailure_eq_ok
              (s := ⟨s₂.data, s₂.deferred, env.auditFaults⟩) hopened.record.key rfl rfl haudit h₃
            rw [hdata] at hopened hfailed hbusiness
            refine ⟨s₃.data, fingerprint, existing, record, number, ?_, hopened, hfailed,
              hb.trans hbusiness⟩
            unfold executeBatch
            simp only [hp, hl, finishLookup, settle, hr, ho, hsteps, h₃, finishReplay]
        · simp [hr] at h

theorem executeBatch_of_failingStep {k : ℕ} (h : failingStep ext env command db = some (k, e))
    (hclean : ∀ f ∈ env.auditFaults, f = none) :
    ∃ db', executeBatch ext env command db = (.error e, db') ∧ FailureAudit env command k e db db' := by
  obtain ⟨db', fingerprint, existing, record, number, hcall, hopened, hwritten, hbusiness⟩ :=
    written_of_failingStep h hclean
  exact ⟨db', hcall, failureAudit_of_written hopened hwritten hbusiness⟩

/-- A call that returns an error leaves the business rows; an error of step `k` commits the failure
audit, and an error before the first step leaves the whole database. -/
theorem error_leaves_business (ext : External) (env : ExecEnv) (command : ExecuteBatchCommand)
    (db : Db) :
    (∀ e db', executeBatch ext env command db = (.error e, db') → db'.business = db.business) ∧
      (∀ k e, failingStep ext env command db = some (k, e) →
        (∀ f ∈ env.auditFaults, f = none) →
        ∃ db', executeBatch ext env command db = (.error e, db') ∧
          FailureAudit env command k e db db') ∧
      ∀ e, errorBeforeSteps ext env command db = some e →
        executeBatch ext env command db = (.error e, db) :=
  ⟨fun _ _ h => business_of_error h, fun _ _ h hclean => executeBatch_of_failingStep h hclean,
    fun _ h => executeBatch_of_errorBeforeSteps h⟩

/-- An issue of more than the source stack holds fails at its second step. -/
theorem error_leaves_business_issue :
    failingStep transparent (quietEnv 100)
        (issueTradeCommand "issue-1" (.ofNat 1) (.ofNat 2) 200 none) (localDevWorld transparent) =
      some (1, .insufficientQuantity
        "item_stack 11111111-1111-4111-8111-111111111111 has 100, requested 200") ∧
    ∃ db', FailureAudit (quietEnv 100)
      (issueTradeCommand "issue-1" (.ofNat 1) (.ofNat 2) 200 none) 1
      (.insufficientQuantity
        "item_stack 11111111-1111-4111-8111-111111111111 has 100, requested 200")
      (localDevWorld transparent) db' := by
  have hfails : failingStep transparent (quietEnv 100)
      (issueTradeCommand "issue-1" (.ofNat 1) (.ofNat 2) 200 none) (localDevWorld transparent) =
        some (1, .insufficientQuantity
          "item_stack 11111111-1111-4111-8111-111111111111 has 100, requested 200") := by
    decide +kernel
  obtain ⟨db', _, haudit⟩ := (error_leaves_business transparent (quietEnv 100)
    (issueTradeCommand "issue-1" (.ofNat 1) (.ofNat 2) 200 none)
    (localDevWorld transparent)).2.1 _ _ hfails (fun f hf => by cases hf)
  exact ⟨hfails, db', haudit⟩

end Calls

end EveTrade.SettlementFailureAudit
