import EveTrade.LocalDevWorld
import EveTrade.SettlementTriggers

set_option autoImplicit false

/-!
# The integrity of the ledgers along sequences of calls

Neither the trigger on ledger rows nor the deferred trigger on stacks refuses what a call writes,
also where one batch writes to a stack several times.
-/
namespace EveTrade.SettlementLedgerIntegrity

open KeyedTable TransactionMonad TransactionLogic UuidText SettlementTypes SettlementCommands
  SettlementSchema SettlementStatements SettlementOperations SettlementPlan SettlementAuthorization
  SettlementEffects SettlementExecutor SettlementLedgers SettlementTriggers

section Batches

variable {ext : External} {env : ExecEnv} {command : ExecuteBatchCommand} {db : Db}
variable {e : SettlementError} {operations : List SettlementCommand}

theorem projection_passes {b : Business} (h : StackLedgers ext b) (id : Uuid) :
    checkItemStackLedgerProjectionInvariant id b = .ok () := by
  unfold checkItemStackLedgerProjectionInvariant
  cases hs : b.itemStack.find? id with
  | none => rfl
  | some s =>
    have hid : s.itemStackId = id := Table.find?_some_key hs
    obtain ⟨l, hl, hlatest, hnumber, hafter, _⟩ := (h.found hs).latest
    obtain ⟨howner, htype, hstation⟩ := (h.found hs).lastRow l hl hnumber
    simp only [stackAfter, stackView, StackView.mk.injEq, Option.some.injEq] at hafter
    obtain ⟨hquantity, hstate, hversion, hchecksum, _⟩ := hafter
    have hlatest' : b.latestLedger id = some l := by
      rw [← hid]
      exact hlatest
    simp [hlatest', howner, htype, hstation, hquantity, hstate, hversion, hchecksum]

theorem deferred_unrefused {b : Business} (h : StackLedgers ext b) (d : DeferredCheck) (e : DbError)
    (he : d.run b = .error e) : ¬ LedgerRefusal e := by
  cases d with
  | tradeRemainingQuantity id =>
    change checkTradeRemainingQuantityInvariant id b = _ at he
    unfold checkTradeRemainingQuantityInvariant at he
    cases ht : b.tradeInstance.find? id with
    | none => simp [ht] at he
    | some t =>
      simp only [ht] at he
      split_ifs at he
      · obtain rfl := Except.error.inj he
        exact not_refusal_of_initial (by simp [String.toList_append, toString])
      · obtain rfl := Except.error.inj he
        exact not_refusal_of_initial (by simp [String.toList_append, toString])
      · obtain rfl := Except.error.inj he
        exact not_refusal_of_constraint rfl
  | tradeWalletEscrowClosedState id =>
    change checkTradeWalletEscrowClosedStateInvariant id b = _ at he
    unfold checkTradeWalletEscrowClosedStateInvariant at he
    cases ht : b.tradeInstance.find? id with
    | none => simp [ht] at he
    | some t =>
      simp only [ht] at he
      split_ifs at he
      · obtain rfl := Except.error.inj he
        exact not_refusal_of_initial (by simp [String.toList_append, toString])
      · obtain rfl := Except.error.inj he
        exact not_refusal_of_constraint rfl
  | itemStackLedgerProjection id =>
    change checkItemStackLedgerProjectionInvariant id b = _ at he
    rw [projection_passes h id] at he
    cases he

/-- The rows that stand behind a call have their ledgers in order. -/
def DbLedgers (ext : External) (db : Db) : Prop := StackLedgers ext db.business

theorem executeDb_spares {f : Db → Except DbError Db} (hf : ∀ db, Constrained (f db))
    (hb : ∀ db db', f db = .ok db' → db'.business = db.business) :
    Spares (DbLedgers ext) (executeDb f) fun _ => DbLedgers ext := by
  refine Triple.statement (fun _ h => unrefused_database h) (fun db _ e h => ?_)
    fun db hdb u db' checks h => ?_
  · cases hrun : f db with
    | error e' =>
      simp only [hrun, Except.error.injEq] at h
      exact h ▸ unrefused_database ((hf db).not_refusal hrun)
    | ok r => simp [hrun] at h
  · cases hrun : f db with
    | error e' => simp [hrun] at h
    | ok r =>
      simp only [hrun, Except.ok.injEq, Prod.mk.injEq, true_and] at h
      obtain ⟨rfl, _⟩ := h
      unfold DbLedgers
      rw [hb db r hrun]
      exact hdb

theorem executeDb_of_ok {f : Db → Db} (hb : ∀ db, (f db).business = db.business) :
    Spares (DbLedgers ext) (executeDb fun db => .ok (f db)) fun _ => DbLedgers ext := by
  refine executeDb_spares (fun db => Constrained.ok _) fun db db' h => ?_
  obtain rfl := Except.ok.inj h
  exact hb db

theorem updateStep_spares (id : Uuid) (f : SettlementStepRow → SettlementStepRow) :
    Spares (DbLedgers ext) (updateStep id f) fun _ => DbLedgers ext :=
  executeDb_of_ok fun _ => rfl

theorem updateBatch_spares (id : Uuid) (f : SettlementBatchRow → SettlementBatchRow) :
    Spares (DbLedgers ext) (updateBatch id f) fun _ => DbLedgers ext :=
  executeDb_of_ok fun _ => rfl

theorem updateAttempt_spares (id : Uuid) (f : RequestAttemptRow → RequestAttemptRow) :
    Spares (DbLedgers ext) (updateAttempt id f) fun _ => DbLedgers ext :=
  executeDb_of_ok fun _ => rfl

theorem resetFailedIdempotencyRecord_spares (key : String) :
    Spares (DbLedgers ext) (resetFailedIdempotencyRecord key) fun _ => DbLedgers ext :=
  executeDb_of_ok fun _ => rfl

theorem failIdempotencyRecord_spares (key code message : String) :
    Spares (DbLedgers ext) (failIdempotencyRecord key code message) fun _ => DbLedgers ext :=
  executeDb_of_ok fun _ => rfl

theorem completeOperationIfPresent_spares (key : String) (batch : Uuid) :
    Spares (DbLedgers ext) (completeOperationIfPresent key batch) fun _ => DbLedgers ext :=
  executeDb_of_ok fun _ => rfl

theorem selectDb_reads {α : Type} (read : Db → α) : Reads (selectDb read) := Reads.query read

theorem lockTradeInstances_reads (ids : List Uuid) : Reads (lockTradeInstances ids) := by
  induction ids with
  | nil => exact Reads.pure ()
  | cons id ids ih => exact (selectDb_reads _).bind fun _ => ih

theorem lookup_reads (command : ExecuteBatchCommand) : Reads (lookup command) :=
  (selectDb_reads _).bind fun _ =>
    (lockTradeInstances_reads _).bind fun _ => selectDb_reads _

theorem commit_spares : Spares (DbLedgers ext) commit fun _ => DbLedgers ext :=
  Triple.commit (fun _ h => unrefused_database h)
    fun _ hdb c e he => unrefused_database (deferred_unrefused hdb c e he)

theorem resolveIdempotency_spares (fingerprint : String) (existing : Option IdempotencyRecordRow) :
    Spares (DbLedgers ext) (resolveIdempotency command fingerprint existing) fun _ =>
      DbLedgers ext := by
  cases existing with
  | some r =>
    refine Reads.ensure_seq rfl fun _ => Reads.ensure_seq rfl fun _ => ?_
    cases r.idempotencyState with
    | completed => exact (Reads.fromOption rfl).seq fun _ => Triple.pure _ fun _ h => h
    | inProgress => exact Reads.fail rfl _
    | failed =>
      exact (resetFailedIdempotencyRecord_spares _).bind fun _ => Triple.pure _ fun _ h => h
  | none =>
    refine Reads.ensure_seq rfl fun _ => ?_
    refine Triple.bind (executeDb_spares (fun db => ?_) fun db db' h => ?_) fun _ =>
      Triple.pure _ fun _ h => h
    · exact (Constrained.insertRow _ _ _).bind fun _ => Constrained.ok _
    · obtain ⟨records, _, h⟩ := except_bind_eq_ok.1 h
      obtain rfl := Except.ok.inj h
      rfl

theorem nextAttemptNumber_reads (key : String) : Reads (nextAttemptNumber key) := by
  intro P
  refine Triple.statement (fun _ h => unrefused_database h) (fun db _ e h => ?_)
    fun db hdb n db' checks h => ?_
  · split_ifs at h
    obtain rfl := Except.error.inj h
    exact unrefused_database (not_refusal_of_constraint rfl)
  · split_ifs at h
    obtain ⟨rfl, rfl, rfl⟩ := by simpa using h
    exact hdb

theorem insertRequestAttempt_spares (id : Uuid) (key : String) (number : Int) (service : String) :
    Spares (DbLedgers ext) (insertRequestAttempt id key number service) fun _ => DbLedgers ext := by
  refine executeDb_spares (fun db => ?_) fun db db' h => ?_
  · refine (Constrained.insertRow _ _ _).bind fun _ => Constrained.check_bind rfl fun _ => ?_
    exact Constrained.check_bind rfl fun _ => Constrained.ok _
  · obtain ⟨attempts, _, h⟩ := except_bind_eq_ok.1 h
    obtain ⟨_, _, h⟩ := except_bind_eq_ok.1 h
    obtain ⟨_, _, h⟩ := except_bind_eq_ok.1 h
    obtain rfl := Except.ok.inj h
    rfl

theorem insertSettlementBatch_spares (id request : Uuid) (now : DateTime)
    (command : ExecuteBatchCommand) :
    Spares (DbLedgers ext) (insertSettlementBatch id request now command) fun _ =>
      DbLedgers ext := by
  refine executeDb_spares (fun db => ?_) fun db db' h => ?_
  · refine (Constrained.insertRow _ _ _).bind fun _ => Constrained.check_bind rfl fun _ => ?_
    refine Constrained.check_bind rfl fun _ => Constrained.check_bind rfl fun _ => ?_
    exact Constrained.ok _
  · obtain ⟨batches, _, h⟩ := except_bind_eq_ok.1 h
    obtain ⟨_, _, h⟩ := except_bind_eq_ok.1 h
    obtain ⟨_, _, h⟩ := except_bind_eq_ok.1 h
    obtain ⟨_, _, h⟩ := except_bind_eq_ok.1 h
    obtain rfl := Except.ok.inj h
    rfl

theorem insertSettlementStep_spares (batch step : Uuid) (i : ℕ) (c : SettlementCommand) :
    Spares (DbLedgers ext) (insertSettlementStep ext batch step i c) fun _ => DbLedgers ext := by
  refine executeDb_spares (fun db => ?_) fun db db' h => ?_
  · refine (Constrained.insertRow _ _ _).bind fun _ => Constrained.check_bind rfl fun _ => ?_
    exact Constrained.check_bind rfl fun _ => Constrained.ok _
  · obtain ⟨steps, _, h⟩ := except_bind_eq_ok.1 h
    obtain ⟨_, _, h⟩ := except_bind_eq_ok.1 h
    obtain ⟨_, _, h⟩ := except_bind_eq_ok.1 h
    obtain rfl := Except.ok.inj h
    rfl

theorem insertSettlementSteps_spares (i : ℕ) (cs : List SettlementCommand) :
    Spares (DbLedgers ext) (insertSettlementSteps ext env i cs) fun _ => DbLedgers ext := by
  induction cs generalizing i with
  | nil => exact Triple.pure _ fun _ h => h
  | cons c cs ih =>
    refine Reads.ensure_seq rfl fun _ => (insertSettlementStep_spares _ _ _ _).bind fun _ => ?_
    exact (ih (i + 1)).bind fun _ => Triple.pure _ fun _ h => h

theorem onBusiness_reads {α : Type} {x : OpTx α} (hx : Reads x) :
    Spares (DbLedgers ext) (onBusiness x) fun _ => DbLedgers ext :=
  Triple.zoom (hx (StackLedgers ext)) (fun _ h => h) fun _ _ _ _ h => h

theorem openBatch_spares :
    Spares (DbLedgers ext) (openBatch ext env command) fun _ => DbLedgers ext := by
  refine (Triple.when (onBusiness_reads (authorizePlan_reads command))).bind fun _ => ?_
  refine (nextAttemptNumber_reads _).seq fun _ => ?_
  refine (insertRequestAttempt_spares _ _ _ _).bind fun _ => ?_
  refine (insertSettlementBatch_spares _ _ _ _).bind fun _ => ?_
  refine (insertSettlementSteps_spares _ _).bind fun _ => (selectDb_reads _).seq fun _ => ?_
  exact Triple.pure _ fun _ h => h

def StepsUnrefused : StepsError → Prop
  | .aborted e => Unrefused e
  | .stepFailed _ e => Unrefused e

theorem executeStep_spares (attempted : ℕ) (operation : SettlementCommand) (step : StepRecord) :
    Triple (fun e => ¬ LedgerRefusal e) StepsUnrefused (DbLedgers ext)
      (executeStep ext env attempted operation step) fun _ => DbLedgers ext := by
  refine Triple.bind ((updateStep_spares _ _).mapError fun _ h => h) fun _ => ?_
  have hoperation : Spares (DbLedgers ext)
      (onBusiness (executeSettlementCommand ext (stepContext env step) operation)) fun _ =>
        DbLedgers ext :=
    Triple.zoom (executeSettlementCommand_spares ext _ operation) (fun _ h => h)
      fun _ _ _ _ h => h
  refine Triple.bind (hoperation.mapError fun _ h => h) fun output => ?_
  refine Triple.bind ((updateStep_spares _ _).mapError fun _ h => h) fun _ => ?_
  exact Triple.pure _ fun _ h => h

theorem executeSteps_spares (ext : External) (env : ExecEnv) (done : ℕ) (steps : List (SettlementCommand × StepRecord)) :
    Triple (fun e => ¬ LedgerRefusal e) StepsUnrefused (DbLedgers ext)
      (executeSteps ext env done steps) fun _ => DbLedgers ext := by
  induction steps generalizing done with
  | nil => exact Triple.pure _ fun _ h => h
  | cons step steps ih =>
    refine (executeStep_spares _ _ _).bind fun _ => (ih (done + 1)).bind fun _ => ?_
    exact Triple.pure _ fun _ h => h

theorem failSteps_spares (attempted : ℕ) (code message : String) (i : ℕ)
    (records : List StepRecord) :
    Spares (DbLedgers ext) (failSteps attempted code message i records) fun _ => DbLedgers ext := by
  induction records generalizing i with
  | nil => exact Triple.pure _ fun _ h => h
  | cons step records ih =>
    exact (Triple.when (updateStep_spares _ _)).bind fun _ => ih (i + 1)

theorem recordFailure_spares (records : List StepRecord) (attempted : ℕ) (e : SettlementError) :
    Spares (DbLedgers ext) (recordFailure env command records attempted e) fun _ =>
      DbLedgers ext := by
  refine (selectDb_reads _).seq fun _ => Triple.bind (R := fun _ => DbLedgers ext) ?_ fun _ =>
    commit_spares
  refine (failSteps_spares _ _ _ _ _).bind fun _ => ?_
  refine (updateBatch_spares _ _).bind fun _ => (updateAttempt_spares _ _).bind fun _ => ?_
  exact failIdempotencyRecord_spares _ _ _

theorem completeExecution_spares :
    Spares (DbLedgers ext) (completeExecution env command) fun _ => DbLedgers ext := by
  refine (selectDb_reads _).seq fun _ => (updateBatch_spares _ _).bind fun _ => ?_
  refine (updateAttempt_spares _ _).bind fun _ => ?_
  refine Triple.bind (executeDb_spares (fun db => ?_) fun db db' h => ?_) fun _ => ?_
  · exact Constrained.check_bind rfl fun _ => Constrained.ok _
  · obtain ⟨_, _, h⟩ := except_bind_eq_ok.1 h
    obtain rfl := Except.ok.inj h
    rfl
  · exact (completeOperationIfPresent_spares _ _).bind fun _ => commit_spares

theorem replayOperation_spares (batch : Uuid) :
    Spares (DbLedgers ext) (replayOperation command batch) fun _ => DbLedgers ext :=
  (completeOperationIfPresent_spares _ _).bind fun _ => commit_spares

/-- The environment of the call injects none of the triggers' errors. -/
def EnvSpares (env : ExecEnv) : Prop :=
  ∀ r, some r ∈ env.faults ++ env.auditFaults ++ env.replayFaults → ¬ LedgerRefusal r

theorem settle_unrefused {fingerprint : String} {existing : Option IdempotencyRecordRow}
    {s : DbSession} (henv : EnvSpares env) (hs : Injects (fun e => ¬ LedgerRefusal e) s)
    (hledgers : DbLedgers ext s.data)
    (h : (settle ext env command fingerprint existing s).1 = .answered (.error e)) :
    Unrefused e := by
  unfold settle at h
  cases hresolve : resolveIdempotency command fingerprint existing s with
  | error e₁ =>
    simp only [hresolve, Settlement.answered.injEq, Except.error.injEq] at h
    exact h ▸ (resolveIdempotency_spares _ _).error hs hledgers hresolve
  | ok r =>
    obtain ⟨answer, s₁⟩ := r
    obtain ⟨hs₁, hledgers₁⟩ := (resolveIdempotency_spares _ _).ok hs hledgers hresolve
    cases answer with
    | some batchId =>
      simp only [hresolve] at h
      cases hreplay : replayOperation command batchId s₁ with
      | error e₁ =>
        simp only [hreplay, Settlement.answered.injEq, Except.error.injEq] at h
        exact h ▸ (replayOperation_spares _).error hs₁ hledgers₁ hreplay
      | ok r => simp [hreplay] at h
    | none =>
      simp only [hresolve] at h
      cases hopen : openBatch ext env command s₁ with
      | error e₁ =>
        simp only [hopen, Settlement.answered.injEq, Except.error.injEq] at h
        exact h ▸ openBatch_spares.error hs₁ hledgers₁ hopen
      | ok r =>
        obtain ⟨records, s₂⟩ := r
        obtain ⟨hs₂, hledgers₂⟩ := openBatch_spares.ok hs₁ hledgers₁ hopen
        simp only [hopen] at h
        have hsteps := executeSteps_spares ext env 0 (command.operations.zip records)
        cases hrun : executeSteps ext env 0 (command.operations.zip records) s₂ with
        | error e₁ =>
          have he₁ := hsteps.error hs₂ hledgers₂ hrun
          cases e₁ with
          | aborted e₁ =>
            simp only [hrun, Settlement.answered.injEq, Except.error.injEq] at h
            exact h ▸ he₁
          | stepFailed attempted e₁ =>
            simp only [hrun] at h
            cases haudit : recordFailure env command records attempted e₁
                ⟨s₂.data, s₂.deferred, env.auditFaults⟩ with
            | error e₂ =>
              simp only [haudit, Settlement.answered.injEq, Except.error.injEq] at h
              have hinjects : Injects (fun e => ¬ LedgerRefusal e)
                  (⟨s₂.data, s₂.deferred, env.auditFaults⟩ : DbSession) :=
                fun r hr => henv r (List.mem_append_left _ (List.mem_append_right _ hr))
              exact h ▸ (recordFailure_spares records attempted e₁).error hinjects hledgers₂ haudit
            | ok r =>
              simp only [haudit, Settlement.answered.injEq, Except.error.injEq] at h
              exact h ▸ he₁
        | ok r =>
          obtain ⟨results, s₃⟩ := r
          obtain ⟨hs₃, hledgers₃⟩ := hsteps.ok hs₂ hledgers₂ hrun
          simp only [hrun] at h
          cases hcomplete : completeExecution env command s₃ with
          | error e₁ =>
            simp only [hcomplete, Settlement.answered.injEq, Except.error.injEq] at h
            exact h ▸ completeExecution_spares.error hs₃ hledgers₃ hcomplete
          | ok r => simp [hcomplete] at h

theorem replaySteps_unrefused {rows : List SettlementStepRow}
    (h : replaySteps rows = .error e) : Unrefused e := by
  induction rows with
  | nil => cases h
  | cons row rows ih =>
    rw [replaySteps] at h
    cases hstep : replayStep row with
    | error e₁ =>
      rw [hstep] at h
      obtain rfl : e₁ = e := Except.error.inj h
      unfold replayStep at hstep
      cases houtput : OperationOutput.ofJson row.stepOutput with
      | error m =>
        simp only [houtput, Except.error.injEq] at hstep
        exact hstep ▸ unrefused_of_other rfl
      | ok output => simp [houtput] at hstep
    | ok result =>
      rw [hstep] at h
      cases hrest : replaySteps rows with
      | error e₁ =>
        rw [hrest] at h
        obtain rfl : e₁ = e := Except.error.inj h
        exact ih hrest
      | ok results =>
        rw [hrest] at h
        cases h

theorem validateIssue_unrefused {actor : Int}
    (h : validateIssue actor operations = .error e) : Unrefused e := by
  unfold validateIssue invalidGrammar at h
  split at h
  · split_ifs at h <;> exact Except.error.inj h ▸ unrefused_of_other rfl
  · exact Except.error.inj h ▸ unrefused_of_other rfl

theorem validateAcceptPayment_unrefused
    (h : validateAcceptPayment operations = .error e) : Unrefused e := by
  unfold validateAcceptPayment validateAcceptCompletion validateAcceptEnd invalidGrammar at h
  repeat' split at h
  all_goals first
    | exact Except.error.inj h ▸ unrefused_of_other rfl
    | cases h

theorem validateAccept_unrefused {actor : Int}
    (h : validateAccept actor operations = .error e) : Unrefused e := by
  unfold validateAccept at h
  split at h
  · split_ifs at h
    · exact Except.error.inj h ▸ unrefused_of_other rfl
    · exact validateAcceptPayment_unrefused h
  · exact validateAcceptPayment_unrefused h

theorem validateCancel_unrefused (h : validateCancel operations = .error e) : Unrefused e := by
  unfold validateCancel validateCancelRefund validateCancelState invalidGrammar at h
  repeat' split at h
  all_goals first
    | exact Except.error.inj h ▸ unrefused_of_other rfl
    | cases h

theorem prepare_unrefused (h : prepare ext command = .error e) :
    Unrefused e := by
  unfold prepare at h
  cases hvalid : validatePlan command with
  | error e₁ =>
    rw [hvalid] at h
    obtain rfl : e₁ = e := Except.error.inj h
    unfold validatePlan validatePlanSemantics at hvalid
    split_ifs at hvalid
    split at hvalid
    · exact Except.error.inj hvalid ▸ unrefused_of_other rfl
    · split at hvalid
      · exact validateIssue_unrefused hvalid
      · exact validateAccept_unrefused hvalid
      · exact validateCancel_unrefused hvalid
      · exact Except.error.inj hvalid ▸ unrefused_of_other rfl
  | ok u =>
    rw [hvalid] at h
    by_cases hops : command.operations ≠ []
    · simp [check, hops, bind, Except.bind, pure, Except.pure] at h
    · simp only [check, hops, if_false, bind, Except.bind] at h
      exact Except.error.inj h ▸ unrefused_of_other rfl

/-- A call that fails does so for another reason than the triggers on the ledger. -/
theorem executeBatch_unrefused (hledgers : StackLedgers ext db.business) (henv : EnvSpares env)
    (h : (executeBatch ext env command db).1 = .error e) : Unrefused e := by
  unfold executeBatch at h
  cases hprepare : prepare ext command with
  | error e₁ =>
    simp only [hprepare, Except.error.injEq] at h
    exact h ▸ prepare_unrefused hprepare
  | ok fingerprint =>
    simp only [hprepare] at h
    have hs : Injects (fun e => ¬ LedgerRefusal e) (⟨db, [], env.faults⟩ : DbSession) :=
      fun r hr => henv r (List.mem_append_left _ (List.mem_append_left _ hr))
    cases hlookup : lookup command ⟨db, [], env.faults⟩ with
    | error e₁ =>
      simp only [hlookup, finishLookup, Except.error.injEq] at h
      exact h ▸ (lookup_reads command (DbLedgers ext)).error hs hledgers hlookup
    | ok r =>
      obtain ⟨existing, s⟩ := r
      obtain ⟨hs₁, hledgers₁⟩ := (lookup_reads command (DbLedgers ext)).ok hs hledgers hlookup
      simp only [hlookup, finishLookup] at h
      cases hsettle : settle ext env command fingerprint existing s with
      | mk settlement db' =>
        rw [hsettle] at h
        cases settlement with
        | answered r =>
          change r = _ at h
          subst h
          exact settle_unrefused henv hs₁ hledgers₁ (by rw [hsettle])
        | replaying batchId =>
          change replayAnswer env command batchId db' = _ at h
          unfold replayAnswer loadReplayedSteps at h
          cases hfault : env.replayFaults.head?.join with
          | some r =>
            rw [hfault] at h
            obtain rfl : SettlementError.database r = e := Except.error.inj h
            have hinjects : Injects (fun e => ¬ LedgerRefusal e)
                (⟨db', [], env.replayFaults⟩ : DbSession) :=
              fun q hq => henv q (List.mem_append_right _ hq)
            exact unrefused_database (hinjects.nextFault hfault)
          | none =>
            rw [hfault] at h
            cases hreplay : replaySteps (batchSteps db' batchId) with
            | error e₁ =>
              rw [hreplay] at h
              obtain rfl : e₁ = e := Except.error.inj h
              exact replaySteps_unrefused hreplay
            | ok results =>
              rw [hreplay] at h
              cases h

end Batches

/-- Along every sequence of calls the ledgers stay chains that lead to the rows they are the ledgers
of, and so no call is refused by the triggers that watch over them. -/
theorem ledgers_stay_chained (ext : External) (calls : List (ExecEnv × ExecuteBatchCommand))
    (db : Db) (start : StackLedgers ext db.business) :
    StackLedgers ext (runCalls ext calls db).business ∧
    (∃ written, WalletsSince db.business (runCalls ext calls db).business written) ∧
    ∀ env command, EnvSpares env → ∀ e,
      (executeBatch ext env command (runCalls ext calls db)).1 = .error e → Unrefused e := by
  have hsteps := runCalls_ledgerSteps ext calls db
  have hledgers := start.steps hsteps
  refine ⟨hledgers, walletsSince_of_steps hsteps, ?_⟩
  intro env command henv e h
  exact executeBatch_unrefused hledgers henv h

section Seeded

open LocalDevWorld

theorem stackRows_seed (ext : External) : ∀ s ∈ (seedStacks ext).rows,
    stackRows (seedBusiness ext).itemStackLedger s.itemStackId = [seedLedger ext s] ∧
      s.stackVersion = 1 ∧ StackChecksumValid ext s := by
  refine List.forall_mem_cons.2 ⟨⟨rfl, rfl, rfl, rfl⟩, ?_⟩
  refine List.forall_mem_cons.2 ⟨⟨rfl, rfl, rfl, rfl⟩, ?_⟩
  refine List.forall_mem_cons.2 ⟨⟨rfl, rfl, rfl, rfl⟩, ?_⟩
  refine List.forall_mem_cons.2 ⟨⟨rfl, rfl, rfl, rfl⟩, List.forall_mem_nil _⟩

theorem seedBusiness_ledgers (ext : External) : StackLedgers ext (seedBusiness ext) := by
  constructor
  · intro s hs
    obtain ⟨hrows, hversion, hvalid⟩ := stackRows_seed ext s hs
    constructor
    · refine ⟨(seedLedger ext s).itemStackLedgerHash, ?_⟩
      have hview : stackView s (seedLedger ext s).itemStackLedgerHash =
          stackAfter (seedLedger ext s) := by
        simp only [stackView, stackAfter, seedLedger, seedLedgerPayload, hversion]
      rw [hrows, hversion, hview]
      exact LedgerChain.Chain.nil.append (r := seedLedger ext s) rfl rfl
    · rw [hrows]
      exact List.sum_singleton
    · intro l hl _
      rw [hrows] at hl
      obtain rfl := List.mem_singleton.1 hl
      exact ⟨rfl, rfl, rfl⟩
    · exact hvalid
  · intro l hl
    obtain ⟨s, hs, rfl⟩ := List.mem_map.1 hl
    have hfound : (seedBusiness ext).itemStack.find? s.itemStackId = some s := Table.find?_of_mem hs
    intro h
    cases h.symm.trans hfound

/-- The seeded ledgers are chains, and stay so after an offer of the seller. -/
theorem ledgers_stay_chained_offer :
    StackLedgers transparent (localDevWorld transparent).business ∧
    StackLedgers transparent (runCalls transparent
      [(quietEnv 100, issueTradeCommand "issue" (.ofNat 0x71) (.ofNat 0x72) 10 none)]
      (localDevWorld transparent)).business :=
  have start : StackLedgers transparent (localDevWorld transparent).business :=
    seedBusiness_ledgers transparent
  ⟨start, (ledgers_stay_chained transparent _ (localDevWorld transparent) start).1⟩

end Seeded

end EveTrade.SettlementLedgerIntegrity
