import EveTrade.SettlementFailureAudit
import EveTrade.SettlementFaults
import EveTrade.SettlementLedgerIntegrity
import EveTrade.TradeCalls

set_option autoImplicit false

/-!
# What a call that reaches its steps commits

The checks that the triggers leave to the commit pass whenever the book of trades is in order. A
cancellation that returns only part of what its trade holds is the one plan whose steps all succeed
and leave it otherwise.
-/
namespace EveTrade.SettlementCommit

open KeyedTable TransactionMonad TransactionLogic UuidText SettlementTypes SettlementCommands
  SettlementSchema SettlementOperations SettlementPlan SettlementExecutor SettlementOutcome
  SettlementFailureAudit SettlementLedgers SettlementLedgerIntegrity SettlementRecords
  SettlementAuthorizationSpecs SettlementFaults TradeBook TradeFrames TradeCalls

section Checks

def Totals (b : Business) : Prop := ∀ t ∈ b.tradeInstance.rows, InI64 t.totalQuantity

def OffersI64 (command : ExecuteBatchCommand) : Prop :=
  ∀ p, .transferQuantityFromItemStackToItemStackEscrow p ∈ command.operations → InI64 p.quantity

variable {ext : External} {b b' : Business} {command : ExecuteBatchCommand} {actor : Int}

/-- On a book in order no deferred check fails, whichever rows queued it. -/
theorem checks_pass (hb : Book b) (htotals : Totals b) (hledgers : StackLedgers ext b)
    (d : DeferredCheck) : d.run b = .ok () := by
  cases d with
  | tradeRemainingQuantity id =>
    change checkTradeRemainingQuantityInvariant id b = _
    unfold checkTradeRemainingQuantityInvariant
    cases ht : b.tradeInstance.find? id with
    | none => rfl
    | some t =>
      have hmem := Table.find?_some_mem ht
      have hrange : InI64 t.remainingQuantity := by
        have htotal := htotals t hmem
        have hremaining := t.remainingQuantity_range
        unfold InI64 at *
        omega
      have hclosed : ¬ (t.tradeState ≠ .open ∧ t.remainingQuantity ≠ 0) := fun h =>
        h.2 (hb.tradeClosed t hmem h.1)
      simp only [hb.active ht]
      rw [if_neg (not_not.2 hrange), if_neg (not_not.2 rfl), if_neg hclosed]
  | tradeWalletEscrowClosedState id =>
    change checkTradeWalletEscrowClosedStateInvariant id b = _
    unfold checkTradeWalletEscrowClosedStateInvariant
    cases ht : b.tradeInstance.find? id with
    | none => rfl
    | some t =>
      have hzero : InI64 0 := by decide
      simp only [hb.activeWallet id]
      rw [if_neg (not_not.2 hzero), if_neg fun h => h.2 rfl]
  | itemStackLedgerProjection id => exact projection_passes hledgers id

theorem Totals.set (h : Totals b) {t t' : TradeInstanceRow} {id : Uuid}
    (found : b.tradeInstance.find? id = some t) (same : t'.totalQuantity = t.totalQuantity) :
    ∀ u ∈ (b.tradeInstance.set t').rows, InI64 u.totalQuantity := by
  intro u hu
  rcases Table.mem_set.1 hu with ⟨rfl, _⟩ | ⟨hu, _⟩
  · rw [same]
    exact h t (Table.find?_some_mem found)
  · exact h u hu

theorem Totals.moved (h : Totals b) (offers : OffersI64 command)
    (hmoved : Moved command actor b b') : Totals b' := by
  cases hmoved with
  | issue p intent operations issued others =>
    obtain ⟨s, s', t, e, trades, escrows, entries, _, _, _, newTrade, _, _, _, total, _⟩ := issued
    intro u hu
    rcases (Table.mem_insert newTrade).1 hu with hu | rfl
    · exact h u hu
    · rw [total]
      refine offers p.escrow ?_
      rw [operations]
      simp [IssuePlan.operations]
  | accept p t intent operations accepted left others =>
    obtain ⟨state, e, e', w, w', v, v', s, s', stackRows, x, walletEscrows, _, _, _, trade, _⟩ :=
      accepted
    exact h.set trade rfl
  | cancel p t intent operations cancelled others =>
    cases cancelled with
    | sold changes trade _ _ _ _ => exact h.set trade rfl
    | returned e e' s s' entries changes trade => exact h.set trade rfl

end Checks

section Plans

variable {ext : External} {env : ExecEnv} {i : ℕ} {b b' : Business} {actor : Int}
  {command : ExecuteBatchCommand} {checks : List DeferredCheck} {os : List OperationOutput}

/-- What a plan whose steps all succeed leaves passes the deferred checks, unless it returns only
part of an escrow. -/
theorem checks_pass_iff (hb : Book b) (htotals : Totals b) (offers : OffersI64 command)
    (hledgers : StackLedgers ext b) (h : Licensed actor b command)
    (hrun : StepsRun ext env i command.operations b b' checks os) :
    (∀ d ∈ checks, d.run b' = .ok ()) ↔ returnsPart command b = false := by
  constructor
  · exact whole_of_constraints hb h hrun
  · intro hwhole d _
    have hmoved := moved_of_whole hb h hrun hwhole
    exact checks_pass (hmoved.book hb) (htotals.moved offers hmoved)
      (hledgers.steps (StepsRun.ledgerSteps hrun)) d

end Plans

section Phases

variable (ext : External) (env : ExecEnv)

/-- Where a call stands when it turns to its first step: the records of its steps and the session
that goes on. -/
def atFirstStep (command : ExecuteBatchCommand) (db : Db) : Option (List StepRecord × DbSession) :=
  match prepare ext command with
  | .error _ => none
  | .ok fingerprint =>
    match lookup command ⟨db, [], env.faults⟩ with
    | .error _ => none
    | .ok (existing, s) =>
      match resolveIdempotency command fingerprint existing s with
      | .error _ => none
      | .ok (some _, _) => none
      | .ok (none, s₁) =>
        match openBatch ext env command s₁ with
        | .error _ => none
        | .ok p => some p

def reachesSteps (command : ExecuteBatchCommand) (db : Db) : Bool :=
  (atFirstStep ext env command db).isSome

/-- No statement of the call fails for a reason outside the rows. -/
structure Quiet : Prop where
  faults : ∀ f ∈ env.faults, f = none
  auditFaults : ∀ f ∈ env.auditFaults, f = none

/-- The call has committed one audit: everything completed, or record, attempt and batch failed
under the code of the step that failed, which is also the answer. -/
inductive Audited (command : ExecuteBatchCommand) (db : Db) :
    Except SettlementError BatchExecutionResult × Db → Prop
  | completed (fingerprint : String) (existing : Option IdempotencyRecordRow)
      (record : IdempotencyRecordRow) (number : Int) (outputs : List OperationOutput) (db' : Db)
      (opened : Opened env command fingerprint existing db record number)
      (every : outputs.length = command.operations.length)
      (audit : AuditWritten db db' (recordCompleted env.settlementBatchId record)
        (attemptCompleted (openAttempt env command number))
        (batchCompleted (openBatchRow env command))
        (completedStepRows ext env 0 command.operations outputs)) :
      Audited command db (.ok ⟨env.settlementBatchId, command.idempotencyKey, .completed, false,
        stepResults env 0 command.operations outputs⟩, db')
  | failed (fingerprint : String) (existing : Option IdempotencyRecordRow)
      (record : IdempotencyRecordRow) (number : Int) (k : ℕ) (e : SettlementError) (db' : Db)
      (opened : Opened env command fingerprint existing db record number)
      (step : failingStep ext env command db = some (k, e))
      (audit : AuditWritten db db' (recordFailed e.code e.display record)
        (attemptFailed e.code e.display (openAttempt env command number))
        (batchFailed e.code e.display (openBatchRow env command))
        (failedStepRows ext env (k + 1) e.code e.display 0 command.operations)) :
      Audited command db (.error e, db')

end Phases

section Calls

variable {ext : External} {env : ExecEnv} {command : ExecuteBatchCommand} {db : Db}
  {s s' : DbSession}

theorem executeSteps_of_clean {n : ℕ} {xs : List (SettlementCommand × StepRecord)} (hs : s.Clean)
    (h : firstFailure ext env n xs s = none) :
    ∃ results s', executeSteps ext env n xs s = .ok (results, s') ∧ s'.Clean := by
  induction xs generalizing n s with
  | nil => exact ⟨[], s, rfl, hs⟩
  | cons x rest ih =>
    obtain ⟨operation, step⟩ := x
    obtain ⟨_, s₁, h₁, hc₁, _⟩ := updateStep_succeeds step.settlementStepId stepRunning s hs
    have hrunning : markStepRunning step.settlementStepId s = .ok ((), s₁) := h₁
    simp only [firstFailure, hrunning] at h
    cases h₂ : onBusiness (executeSettlementCommand ext (stepContext env step) operation) s₁ with
    | error e => simp [h₂] at h
    | ok p =>
      obtain ⟨output, s₂⟩ := p
      have hc₂ : s₂.Clean :=
        (executeSettlementCommand_consumes ext (stepContext env step) operation).zoom.clean hc₁ h₂
      obtain ⟨_, s₃, h₃, hc₃, _⟩ :=
        updateStep_succeeds step.settlementStepId (stepCompleted output) s₂ hc₂
      have hcompleted : markStepCompleted step.settlementStepId output s₂ = .ok ((), s₃) := h₃
      simp only [h₂, hcompleted] at h
      obtain ⟨results, s₄, h₄, hc₄⟩ := ih hc₃ h
      have hstep : executeStep ext env (n + 1) operation step s =
          .ok (⟨step.stepIndex, step.settlementStepId, step.stepKind, output⟩, s₃) :=
        Tx.bind_eq_ok.2 ⟨(), s₁, Tx.mapError_eq_ok.2 hrunning, Tx.bind_eq_ok.2 ⟨output, s₂,
          Tx.mapError_eq_ok.2 h₂, Tx.bind_eq_ok.2 ⟨(), s₃, Tx.mapError_eq_ok.2 hcompleted, rfl⟩⟩⟩
      exact ⟨_, s₄, Tx.bind_eq_ok.2 ⟨_, s₃, hstep, Tx.bind_eq_ok.2 ⟨_, s₄, h₄, rfl⟩⟩, hc₄⟩

theorem completeOperationIfPresent_succeeds (key : String) (id : Uuid) :
    (completeOperationIfPresent key id).Succeeds :=
  executeDb_succeeds fun _ => ⟨_, rfl⟩

theorem completeIdempotencyRecord_of_clean (key : String) {id : Uuid} (hs : s.Clean)
    (hbatch : (s.data.settlementBatch.find? id).isSome) :
    ∃ s', completeIdempotencyRecord key id s = .ok ((), s') ∧ s'.Clean := by
  refine ⟨_, executeDb_eq_ok.2 ⟨hs.nextFault, _, except_bind_eq_ok.2 ⟨(), ?_, rfl⟩, rfl⟩,
    hs.wrote _ _⟩
  exact check_eq_ok.2 hbatch

theorem completeExecution_of_clean (command : ExecuteBatchCommand) (hs : s.Clean)
    (hbatch : (s.data.settlementBatch.find? env.settlementBatchId).isSome)
    (hchecks : ∀ d ∈ s.deferred, d.run s.data.business = .ok ()) :
    ∃ s', completeExecution env command s = .ok ((), s') := by
  obtain ⟨_, s₁, h₁, hc₁, hd₁⟩ := selectDb_succeeds (fun _ => ()) s hs
  obtain ⟨_, _, hs₁⟩ := selectDb_eq_ok.1 h₁
  obtain ⟨_, s₂, h₂, hc₂, hd₂⟩ := updateBatch_succeeds env.settlementBatchId batchCompleted s₁ hc₁
  obtain ⟨hdata₂, _⟩ := updateBatch_eq_ok h₂
  obtain ⟨_, s₃, h₃, hc₃, hd₃⟩ :=
    updateAttempt_succeeds (requestIdOf env command) attemptCompleted s₂ hc₂
  obtain ⟨hdata₃, _⟩ := updateAttempt_eq_ok h₃
  have hbatch₃ : (s₃.data.settlementBatch.find? env.settlementBatchId).isSome := by
    rw [hdata₃, hdata₂, hs₁]
    change ((s.data.settlementBatch.modify _ batchCompleted).find? _).isSome = true
    rw [Table.find?_modify _ _ batchCompleted fun _ => rfl, if_pos rfl, Option.isSome_map]
    exact hbatch
  obtain ⟨s₄, h₄, hc₄⟩ :=
    completeIdempotencyRecord_of_clean command.idempotencyKey hc₃ hbatch₃
  obtain ⟨hdata₄, hd₄⟩ := completeIdempotencyRecord_eq_ok h₄
  obtain ⟨_, s₅, h₅, hc₅, _⟩ := completeOperationIfPresent_succeeds command.idempotencyKey
    env.settlementBatchId s₄ hc₄
  obtain ⟨hdata₅, hd₅⟩ := completeOperationIfPresent_eq_ok h₅
  have hdeferred : s₅.deferred = s.deferred := by
    rw [hd₅, hd₄, hd₃, hd₂, hd₁]
  have hbusiness : s₅.data.business = s.data.business := by
    rw [hdata₅, hdata₄, hdata₃, hdata₂, hs₁]
    rfl
  have hcommit : ∃ s₆, commit s₅ = .ok ((), s₆) := by
    refine ⟨_, Tx.commit_eq_ok.2 ⟨hc₅.nextFault, fun d hd => ?_, rfl⟩⟩
    rw [hbusiness]
    exact hchecks d (hdeferred ▸ hd)
  obtain ⟨s₆, h₆⟩ := hcommit
  exact ⟨s₆, Tx.bind_eq_ok.2 ⟨_, s₁, h₁, Tx.bind_eq_ok.2 ⟨_, s₂, h₂, Tx.bind_eq_ok.2 ⟨_, s₃, h₃,
    Tx.bind_eq_ok.2 ⟨_, s₄, h₄, Tx.bind_eq_ok.2 ⟨_, s₅, h₅, h₆⟩⟩⟩⟩⟩⟩

/-- A call at its first step has written its audit rows and changed nothing else. -/
theorem atFirstStep_eq_some {records : List StepRecord}
    (h : atFirstStep ext env command db = some (records, s)) :
    records = stepRecords env 0 command.operations ∧ validatePlan command = .ok () ∧
      s.deferred = [] ∧ s.data.business = db.business ∧
      ((∀ f ∈ env.faults, f = none) → s.Clean) ∧
      failingStep ext env command db = firstFailure ext env 0 (command.operations.zip records) s ∧
      (∃ fingerprint existing record number,
        Opened env command fingerprint existing db record number ∧
        AuditWritten db s.data record (openAttempt env command number) (openBatchRow env command)
          (stepRows ext env 0 command.operations)) ∧
      ∀ results s', executeSteps ext env 0 (command.operations.zip records) s = .ok (results, s') →
        executeBatch ext env command db =
          match completeExecution env command s' with
          | .error e => (.error e, db)
          | .ok (_, s'') =>
            (.ok ⟨env.settlementBatchId, command.idempotencyKey, .completed, false, results⟩,
              s''.data) := by
  unfold atFirstStep at h
  unfold failingStep executeBatch
  cases hp : prepare ext command with
  | error f => simp [hp] at h
  | ok fingerprint =>
    simp only [hp] at h ⊢
    cases hl : lookup command ⟨db, [], env.faults⟩ with
    | error f => simp [hl] at h
    | ok p =>
      obtain ⟨existing, s₀⟩ := p
      obtain ⟨hdata, hdeferred, hexisting⟩ := lookup_eq_ok hl
      simp only [hl] at h ⊢
      cases hr : resolveIdempotency command fingerprint existing s₀ with
      | error f => simp [hr] at h
      | ok q =>
        obtain ⟨_ | id, s₁⟩ := q
        · simp only [hr] at h ⊢
          cases ho : openBatch ext env command s₁ with
          | error f => simp [ho] at h
          | ok r =>
            simp only [ho, Option.some.injEq] at h ⊢
            subst h
            have hlocked : ∀ r ∈ existing,
                s₀.data.idempotencyRecord.find? command.idempotencyKey = some r := by
              intro r hr'
              rw [hdata, ← hexisting]
              exact hr'
            obtain ⟨record, number, hopened, haudit, hrecords, hdef, hbusiness, _⟩ :=
              opened_of_openBatch hlocked hr ho
            rw [hdata] at hopened haudit hbusiness
            refine ⟨hrecords, (prepare_eq_ok hp).2.1, hdef.trans hdeferred, hbusiness,
              fun hquiet => ?_, rfl, ⟨fingerprint, existing, record, number, hopened, haudit⟩,
              fun results s' hsteps => ?_⟩
            · have hclean : (⟨db, [], env.faults⟩ : DbSession).Clean := hquiet
              have hclean₀ := (lookup_consumes command).clean hclean hl
              have hclean₁ := (resolveIdempotency_consumes fingerprint existing).clean hclean₀ hr
              exact openBatch_consumes.clean hclean₁ ho
            · simp only [finishLookup, settle, hr, ho, hsteps]
              cases completeExecution env command s' with
              | error e => simp only [finishReplay, hdata]
              | ok q => rfl
        · simp [hr] at h

theorem StepsRun.length_outputs {i : ℕ} {cs : List SettlementCommand} {b b' : Business}
    {checks : List DeferredCheck} {os : List OperationOutput}
    (h : StepsRun ext env i cs b b' checks os) : os.length = cs.length := by
  induction h with
  | nil => rfl
  | cons _ _ ih => simp [ih]

theorem audited_of_failingStep {k : ℕ} {e : SettlementError} (quiet : Quiet env)
    (h : failingStep ext env command db = some (k, e)) :
    Audited ext env command db (executeBatch ext env command db) := by
  obtain ⟨db', fingerprint, existing, record, number, hcall, opened, written, _⟩ :=
    written_of_failingStep h quiet.auditFaults
  rw [hcall]
  exact .failed fingerprint existing record number k e db' opened h written

/-- With its steps all done, a call is audited exactly if the deferred checks pass. -/
theorem audited_iff_checks (quiet : Quiet env) {records : List StepRecord}
    (hat : atFirstStep ext env command db = some (records, s))
    (hnone : failingStep ext env command db = none) :
    ∃ b checks outputs, StepsRun ext env 0 command.operations db.business b checks outputs ∧
      (Audited ext env command db (executeBatch ext env command db) ↔
        ∀ d ∈ checks, d.run b = .ok ()) := by
  obtain ⟨rfl, _, hdeferred, hbusiness, hclean, hfailing, ⟨fingerprint, existing, record, number,
    opened, written⟩, hcall⟩ := atFirstStep_eq_some hat
  rw [hnone] at hfailing
  obtain ⟨results, s₃, hsteps, hclean₃⟩ := executeSteps_of_clean (hclean quiet.faults) hfailing.symm
  obtain ⟨b, checks, outputs, table, hrun, hrows, hdata, hdef, rfl⟩ :=
    executeSteps_eq_ok written.steps hsteps
  have hcall := hcall _ _ hsteps
  have hchecks : s₃.deferred = checks := by
    rw [hdef, hdeferred, List.nil_append]
  have hb : s₃.data.business = b := by rw [hdata]
  rw [hbusiness] at hrun
  refine ⟨b, checks, outputs, hrun, ?_⟩
  have written₃ : AuditWritten db s₃.data record (openAttempt env command number)
      (openBatchRow env command) (completedStepRows ext env 0 command.operations outputs) := by
    rw [hdata]
    exact ⟨written.record, written.attempt, written.batch, hrows⟩
  constructor
  · intro haudited
    cases hdone : completeExecution env command s₃ with
    | error e =>
      -- A call whose commit is refused answers with an error, and no step of it has failed.
      rw [hdone] at hcall
      rw [hcall] at haudited
      cases haudited with
      | failed _ _ _ _ k _ _ _ step _ =>
        rw [hnone] at step
        cases step
    | ok q =>
      obtain ⟨_, s₄⟩ := q
      obtain ⟨_, _, _, hpass⟩ :=
        completeExecution_eq_ok opened.record.key rfl rfl written₃ hdone
      rw [hb, hchecks] at hpass
      exact hpass
  · intro hpass
    have hfound := Table.find?_insert_self written₃.batch
    have hbatch : (s₃.data.settlementBatch.find? env.settlementBatchId).isSome :=
      Option.isSome_iff_exists.2 ⟨_, hfound⟩
    rw [← hb, ← hchecks] at hpass
    obtain ⟨s₄, hdone⟩ := completeExecution_of_clean command hclean₃ hbatch hpass
    obtain ⟨hcompleted, _⟩ := completeExecution_eq_ok opened.record.key rfl rfl written₃ hdone
    rw [hdone] at hcall
    rw [hcall]
    exact .completed fingerprint existing record number outputs _ opened
      (StepsRun.length_outputs hrun) hcompleted

end Calls

section Runs

variable {ext : External} {db : Db}

theorem executeBatch_totals (ext : External) (env : ExecEnv) {command : ExecuteBatchCommand}
    (hb : Book db.business) (htotals : Totals db.business)
    (hintent : command.intent ≠ .unspecified) (offers : OffersI64 command) :
    Totals (executeBatch ext env command db).2.business := by
  rcases executeBatch_moves ext env hb hintent with ⟨_, hsame⟩ | ⟨_, actor, _, hmoved⟩
  · rw [hsame]
    exact htotals
  · exact htotals.moved offers hmoved

theorem runCalls_totals (ext : External) {calls : List (ExecEnv × ExecuteBatchCommand)}
    (hb : Book db.business) (htotals : Totals db.business)
    (hintents : ∀ call ∈ calls, call.2.intent ≠ .unspecified)
    (offers : ∀ call ∈ calls, OffersI64 call.2) : Totals (runCalls ext calls db).business := by
  induction calls generalizing db with
  | nil => exact htotals
  | cons call calls ih =>
    obtain ⟨hintent, hintents⟩ := List.forall_mem_cons.1 hintents
    obtain ⟨hoffer, offers⟩ := List.forall_mem_cons.1 offers
    exact ih (executeBatch_book ext call.1 hb hintent)
      (executeBatch_totals ext call.1 hb htotals hintent hoffer) hintents offers

/-- In every state that calls with an intent can reach, a quiet call that reaches its steps commits
one audit, unless its steps all succeed and return only part of an escrow. -/
theorem call_audited_iff (ext : External) (calls : List (ExecEnv × ExecuteBatchCommand)) (db : Db)
    (empty : NoTrades db.business) (ledgers : StackLedgers ext db.business)
    (intents : ∀ call ∈ calls, call.2.intent ≠ .unspecified)
    (offers : ∀ call ∈ calls, OffersI64 call.2) (env : ExecEnv) (quiet : Quiet env)
    (command : ExecuteBatchCommand) (intent : command.intent ≠ .unspecified)
    (offer : OffersI64 command)
    (reaches : reachesSteps ext env command (runCalls ext calls db) = true) :
    Audited ext env command (runCalls ext calls db)
        (executeBatch ext env command (runCalls ext calls db)) ↔
      ¬ (failingStep ext env command (runCalls ext calls db) = none ∧
        returnsPart command (runCalls ext calls db).business = true) := by
  have hbook := runCalls_book ext empty.book intents
  have htotals : Totals (runCalls ext calls db).business := by
    refine runCalls_totals ext empty.book (fun t ht => ?_) intents offers
    rw [empty.tradeInstance] at ht
    cases ht
  have hledgers := ledgers.steps (runCalls_ledgerSteps ext calls db)
  obtain ⟨⟨records, s⟩, hat⟩ := Option.isSome_iff_exists.1 reaches
  cases hfailing : failingStep ext env command (runCalls ext calls db) with
  | some p =>
    have haudited := audited_of_failingStep quiet hfailing
    exact iff_of_true haudited (by simp)
  | none =>
    obtain ⟨_, hplan, _, _, _, _, ⟨_, _, _, _, opened, _⟩, _⟩ := atFirstStep_eq_some hat
    obtain ⟨actor, _, licensed⟩ := licensed_of_authorized intent hplan (opened.authorized intent)
    obtain ⟨b, checks, outputs, hrun, haudited⟩ := audited_iff_checks quiet hat hfailing
    rw [haudited, checks_pass_iff hbook htotals offer hledgers licensed hrun]
    simp

end Runs

section Seeded

open LocalDevWorld

def cancelWhole : ExecuteBatchCommand := cancelTradeCommand "cancel" tradeId escrowId 10 none

def cancelPart : ExecuteBatchCommand := cancelTradeCommand "cancel" tradeId escrowId 4 none

theorem offersI64_cancel (key : String) (trade escrow : Uuid) (quantity : Int) :
    OffersI64 (cancelTradeCommand key trade escrow quantity none) := by
  intro p hp
  simp [cancelTradeCommand] at hp

theorem call_audited_iff_cancelWhole :
    reachesSteps transparent (quietEnv 200) cancelWhole
      (runCalls transparent offerOfTen (localDevWorld transparent)) = true ∧
    Audited transparent (quietEnv 200) cancelWhole
      (runCalls transparent offerOfTen (localDevWorld transparent))
      (executeBatch transparent (quietEnv 200) cancelWhole
        (runCalls transparent offerOfTen (localDevWorld transparent))) := by
  have reaches : reachesSteps transparent (quietEnv 200) cancelWhole
      (runCalls transparent offerOfTen (localDevWorld transparent)) = true := by decide +kernel
  have whole : returnsPart cancelWhole
      (runCalls transparent offerOfTen (localDevWorld transparent)).business = false := by
    decide +kernel
  have offers : ∀ call ∈ offerOfTen, OffersI64 call.2 := by
    intro call hcall p hp
    obtain rfl := List.mem_singleton.1 hcall
    simp [issueTradeCommand] at hp
    rw [hp]
    decide
  refine ⟨reaches, (call_audited_iff transparent offerOfTen (localDevWorld transparent)
    ⟨rfl, rfl, rfl⟩ (seedBusiness_ledgers transparent) (by decide) offers (quietEnv 200)
    ⟨by decide, by decide⟩ cancelWhole (by decide) (offersI64_cancel _ _ _ _) reaches).2 ?_⟩
  rw [whole]
  simp

def isDatabaseError : Except SettlementError BatchExecutionResult → Bool
  | .error (.database _) => true
  | _ => false

/-- Every step of the cancellation succeeds, and the commit answers with a database error and leaves
no batch behind. -/
theorem cancelPart_unaudited :
    reachesSteps transparent (quietEnv 200) cancelPart
      (runCalls transparent offerOfTen (localDevWorld transparent)) = true ∧
    (failingStep transparent (quietEnv 200) cancelPart
      (runCalls transparent offerOfTen (localDevWorld transparent))).isNone = true ∧
    isDatabaseError (executeBatch transparent (quietEnv 200) cancelPart
      (runCalls transparent offerOfTen (localDevWorld transparent))).1 = true ∧
    ((executeBatch transparent (quietEnv 200) cancelPart (runCalls transparent offerOfTen
      (localDevWorld transparent))).2.settlementBatch.find? (.ofNat 201)).isNone = true := by
  decide +kernel

end Seeded

end EveTrade.SettlementCommit
