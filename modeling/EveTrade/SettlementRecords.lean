import EveTrade.SettlementOutcome

set_option autoImplicit false

/-!
# The audit tables across one transaction

What a settlement transaction does to idempotency records, batches and steps, and what a replay
reads back from them.
-/
namespace EveTrade.SettlementRecords

open KeyedTable TransactionMonad JsonText UuidText SettlementTypes SettlementCommands
  SettlementSchema SettlementPlan SettlementExecutor SettlementOutcome

section Fingerprints

variable {ext : External} {c c' : ExecuteBatchCommand}

theorem intent_text_injective : Function.Injective SettlementIntent.text := by
  intro a b h
  cases a <;> cases b <;> first | rfl | simp [SettlementIntent.text] at h

/-- The digest tells the canonical texts of the two requests apart. -/
def NoCollision (ext : External) (c c' : ExecuteBatchCommand) : Prop :=
  hashJson ext (fingerprintMaterial ext c) = hashJson ext (fingerprintMaterial ext c') →
    render (fingerprintMaterial ext c) = render (fingerprintMaterial ext c')

/-- The two requests ask for the same plan. -/
def SamePlan (c c' : ExecuteBatchCommand) : Prop :=
  c.intent = c'.intent ∧ c.externalRequestId = c'.externalRequestId ∧
    c.causedByCapsuleerId = c'.causedByCapsuleerId ∧ c.operations = c'.operations

theorem fingerprintMaterial_eq_of_samePlan (h : SamePlan c c') :
    fingerprintMaterial ext c = fingerprintMaterial ext c' := by
  obtain ⟨hintent, hext, hcaused, hops⟩ := h
  unfold fingerprintMaterial
  rw [hintent, hext, hcaused, hops]

theorem samePlan_of_fingerprintMaterial_eq (hserde : Function.Injective ext.serdeDateTime)
    (h : fingerprintMaterial ext c = fingerprintMaterial ext c') : SamePlan c c' := by
  simp only [fingerprintMaterial, Json.obj.injEq, List.cons.injEq, Prod.mk.injEq, true_and,
    and_true, Json.str.injEq, Json.arr.injEq] at h
  obtain ⟨hintent, hext, hcaused, hops⟩ := h
  refine ⟨intent_text_injective hintent, ?_, ?_, ?_⟩
  · exact optional_injective (fun _ _ e => Json.str.inj e) (fun _ e => Json.noConfusion e) hext
  · exact optional_injective (fun _ _ e => Json.num.inj e) (fun _ e => Json.noConfusion e) hcaused
  · exact List.map_injective_iff.2 (SettlementCommand.toJson_injective hserde) hops

theorem plan_eq_of_fingerprint_eq (hsha : NoCollision ext c c')
    (hserde : Function.Injective ext.serdeDateTime)
    (h : buildRequestFingerprint ext c = buildRequestFingerprint ext c') :
    c.intent = c'.intent ∧ c.externalRequestId = c'.externalRequestId ∧
      c.causedByCapsuleerId = c'.causedByCapsuleerId ∧ c.operations = c'.operations := by
  have hdigest : hashJson ext (fingerprintMaterial ext c) = hashJson ext (fingerprintMaterial ext c') := by
    have hl := congrArg String.toList h
    simp only [buildRequestFingerprint, String.toList_append] at hl
    exact String.toList_inj.1 (List.append_cancel_left hl)
  exact samePlan_of_fingerprintMaterial_eq hserde (render_injective (hsha hdigest))

theorem prepare_eq_ok {fingerprint : String} (h : prepare ext c = .ok fingerprint) :
    fingerprint = buildRequestFingerprint ext c ∧
      validatePlan c = .ok () ∧ c.operations ≠ [] := by
  obtain ⟨_, h₁, h⟩ := except_bind_eq_ok.1 h
  obtain ⟨_, h₂, h⟩ := except_bind_eq_ok.1 h
  exact ⟨(Except.ok.inj h).symm, h₁, check_eq_ok.1 h₂⟩

theorem prepare_of_valid (hvalid : validatePlan c = .ok ()) (hops : c.operations ≠ []) :
    prepare ext c = .ok (buildRequestFingerprint ext c) := by
  unfold prepare
  rw [except_bind_eq_ok]
  refine ⟨(), hvalid, ?_⟩
  rw [except_bind_eq_ok]
  exact ⟨(), check_eq_ok.2 hops, rfl⟩

theorem prepare_of_fingerprint_eq (hsha : NoCollision ext c' c)
    (hserde : Function.Injective ext.serdeDateTime) {fingerprint : String}
    (h : prepare ext c = .ok fingerprint) (he : buildRequestFingerprint ext c' = fingerprint) :
    prepare ext c' = .ok fingerprint := by
  obtain ⟨rfl, hvalid, hops⟩ := prepare_eq_ok h
  obtain ⟨hintent, _, hcaused, hoperations⟩ := plan_eq_of_fingerprint_eq hsha hserde he
  have hplan : validatePlan c' = validatePlan c := by
    unfold validatePlan validatePlanSemantics
    rw [hintent, hcaused, hoperations]
  rw [← he]
  exact prepare_of_valid (hplan.trans hvalid) (hoperations ▸ hops)

end Fingerprints

section StepRows

variable {ext : External} {env : ExecEnv}

theorem completedStepRows_mem {i : ℕ} {cs : List SettlementCommand} {os : List OperationOutput}
    {t : SettlementStepRow} (h : t ∈ completedStepRows ext env i cs os) :
    t.settlementBatchId = env.settlementBatchId ∧ i ≤ t.stepIndex := by
  induction cs generalizing i os with
  | nil => cases h
  | cons c cs ih =>
    cases os with
    | nil => cases h
    | cons o os =>
      rcases List.mem_cons.1 h with rfl | h
      · exact ⟨rfl, le_refl _⟩
      · exact ⟨(ih h).1, by have := (ih h).2; omega⟩

theorem completedStepRows_sorted (i : ℕ) (cs : List SettlementCommand) (os : List OperationOutput) :
    (completedStepRows ext env i cs os).Pairwise (fun t u => t.stepIndex ≤ u.stepIndex) := by
  induction cs generalizing i os with
  | nil => exact List.Pairwise.nil
  | cons c cs ih =>
    cases os with
    | nil => exact List.Pairwise.nil
    | cons o os =>
      refine List.Pairwise.cons ?_ (ih _ _)
      intro t ht
      have : i + 1 ≤ t.stepIndex := (completedStepRows_mem ht).2
      change i ≤ t.stepIndex
      omega

theorem failedStepRows_mem {attempted i : ℕ} {code message : String} {cs : List SettlementCommand}
    {t : SettlementStepRow} (h : t ∈ failedStepRows ext env attempted code message i cs) :
    t.settlementBatchId = env.settlementBatchId := by
  induction cs generalizing i with
  | nil => cases h
  | cons c cs ih =>
    rcases List.mem_cons.1 h with rfl | h
    · unfold failedStepRow
      split_ifs <;> rfl
    · exact ih h

theorem replaySteps_completedStepRows (i : ℕ) (cs : List SettlementCommand)
    (os : List OperationOutput) :
    replaySteps (completedStepRows ext env i cs os) = .ok (stepResults env i cs os) := by
  induction cs generalizing i os with
  | nil => rfl
  | cons c cs ih =>
    cases os with
    | nil => rfl
    | cons o os =>
      have hstep : replayStep (stepCompleted o (stepRow ext env i c)) =
          .ok ⟨i, (env.step i).settlementStepId, c.protoKind, o⟩ := by
        have hout : OperationOutput.ofJson (stepCompleted o (stepRow ext env i c)).stepOutput =
            .ok o := OperationOutput.ofJson_toJson o
        have hkind : kindNameToProto (stepCompleted o (stepRow ext env i c)).stepKind =
            c.protoKind := kindNameToProto_kindName c
        unfold replayStep
        rw [hout]
        dsimp only
        rw [hkind]
        rfl
      rw [completedStepRows, replaySteps, hstep, ih]
      rfl

end StepRows

/-- The foreign keys between the audit tables that replay relies on. -/
structure References (db : Db) : Prop where
  batchRecord : ∀ b ∈ db.settlementBatch.rows,
    ∃ r, db.idempotencyRecord.find? b.idempotencyKey = some r
  stepBatch : ∀ t ∈ db.settlementStep.rows,
    ∃ b, db.settlementBatch.find? t.settlementBatchId = some b

/-- A transaction that writes audit rows writes them for its own attempt only. -/
structure AuditChange (env : ExecEnv) (command : ExecuteBatchCommand) (fingerprint : String)
    (existing : Option IdempotencyRecordRow) (db db' : Db) (row : IdempotencyRecordRow) : Prop where
  opening : ∃ opened, RecordOpening command fingerprint db.idempotencyRecord existing opened
  key : row.idempotencyKey = command.idempotencyKey
  fingerprint : row.requestFingerprint = fingerprint
  written : ∃ attempt batch steps, AuditWritten db db' row attempt batch steps ∧
    batch.settlementBatchId = env.settlementBatchId ∧
    batch.idempotencyKey = command.idempotencyKey ∧
    (batch.batchState = .completed → row.idempotencyState = .completed ∧
      row.resultSettlementBatchId = some env.settlementBatchId) ∧
    ∀ t ∈ steps, t.settlementBatchId = env.settlementBatchId

section Changes

variable {ext : External} {env : ExecEnv} {command : ExecuteBatchCommand} {fingerprint : String}
  {existing : Option IdempotencyRecordRow} {db db' : Db} {settlement : Settlement}
  {row : IdempotencyRecordRow}

theorem Settled.audit_cases
    (h : Settled ext env command fingerprint existing db settlement db') :
    (db'.idempotencyRecord = db.idempotencyRecord ∧ db'.settlementBatch = db.settlementBatch ∧
        db'.settlementStep = db.settlementStep ∧ db'.business = db.business ∧
        ∀ r, settlement ≠ .answered (.ok r)) ∨
      ∃ row, AuditChange env command fingerprint existing db db' row ∧
        ∀ id, settlement ≠ .replaying id := by
  cases h with
  | refused e => exact .inl ⟨rfl, rfl, rfl, rfl, fun r he => by cases he⟩
  | replaying r batchId _ _ _ _ _ => exact .inl ⟨rfl, rfl, rfl, rfl, fun r he => by cases he⟩
  | failed record number _ opened attempted e audit _ _ =>
    refine .inr ⟨recordFailed e.code e.display record, ⟨⟨record, opened.record⟩,
      opened.record.key, opened.record.requestFingerprint, _, _, _, audit, rfl, rfl, ?_, ?_⟩, ?_⟩
    · intro he
      cases he
    · intro t ht
      exact failedStepRows_mem ht
    · intro id he
      cases he
  | completed record number _ opened checks outputs _ _ audit _ =>
    refine .inr ⟨recordCompleted env.settlementBatchId record, ⟨⟨record, opened.record⟩,
      opened.record.key, opened.record.requestFingerprint, _, _, _, audit, rfl, rfl,
      fun _ => ⟨rfl, rfl⟩, ?_⟩, ?_⟩
    · intro t ht
      exact (completedStepRows_mem ht).1
    · intro id he
      cases he

theorem AuditChange.find_record (h : AuditChange env command fingerprint existing db db' row)
    (k : String) :
    db'.idempotencyRecord.find? k =
      if command.idempotencyKey = k then some row else db.idempotencyRecord.find? k := by
  obtain ⟨_, _, _, hw, _⟩ := h.written
  rw [Table.find?_put hw.record, ← h.key]
  rfl

theorem AuditChange.record_before (h : AuditChange env command fingerprint existing db db' row)
    {r : IdempotencyRecordRow}
    (hr : db.idempotencyRecord.find? command.idempotencyKey = some r) :
    r.idempotencyState = .failed ∧ r.requestFingerprint = fingerprint := by
  obtain ⟨opened, hopening⟩ := h.opening
  cases hopening with
  | inserted absent =>
    rw [absent] at hr
    cases hr
  | reset q found same failed =>
    rw [found] at hr
    obtain rfl := Option.some.inj hr
    exact ⟨failed, same⟩

theorem AuditChange.references (h : AuditChange env command fingerprint existing db db' row)
    (hrefs : References db) : References db' := by
  obtain ⟨attempt, batch, steps, hw, hid, hkey, _, hsteps⟩ := h.written
  constructor
  · intro b hb
    rw [h.find_record]
    split_ifs with hk
    · exact ⟨row, rfl⟩
    · rcases (Table.mem_insert hw.batch).1 hb with hb | rfl
      · exact hrefs.batchRecord b hb
      · exact absurd hkey.symm hk
  · intro t ht
    rw [Table.find?_insert hw.batch]
    split_ifs with hk
    · exact ⟨batch, rfl⟩
    · rw [hw.steps, List.mem_append] at ht
      rcases ht with ht | ht
      · exact hrefs.stepBatch t ht
      · exact absurd (hid.trans (hsteps t ht).symm) hk

theorem AuditWritten.batchSteps_of_found {attempt : RequestAttemptRow} {batch : SettlementBatchRow}
    {steps : List SettlementStepRow} (h : AuditWritten db db' row attempt batch steps)
    (hsteps : ∀ t ∈ steps, t.settlementBatchId = batch.settlementBatchId) {id : Uuid}
    {b : SettlementBatchRow} (hb : db.settlementBatch.find? id = some b) :
    batchSteps db' id = batchSteps db id := by
  have hne : batch.settlementBatchId ≠ id := by
    rintro rfl
    have hfresh : db.settlementBatch.find? batch.settlementBatchId = none :=
      (Table.insert?_eq_some_iff.1 h.batch).1
    rw [hb] at hfresh
    cases hfresh
  have hnone : steps.filter (fun t => t.settlementBatchId = id) = [] := by
    rw [List.filter_eq_nil_iff]
    intro t ht
    simpa [hsteps t ht] using hne
  unfold batchSteps
  rw [h.steps, List.filter_append, hnone, List.append_nil]

theorem AuditChange.batchSteps (h : AuditChange env command fingerprint existing db db' row)
    {id : Uuid} {b : SettlementBatchRow} (hb : db.settlementBatch.find? id = some b) :
    batchSteps db' id = batchSteps db id := by
  obtain ⟨attempt, batch, steps, hw, hid, _, _, hsteps⟩ := h.written
  exact AuditWritten.batchSteps_of_found hw (fun t ht => (hsteps t ht).trans hid.symm) hb

theorem AuditWritten.batchSteps (hrefs : References db) {attempt : RequestAttemptRow}
    {batch : SettlementBatchRow} {steps : List SettlementStepRow}
    (h : AuditWritten db db' row attempt batch steps)
    (hsteps : ∀ t ∈ steps, t.settlementBatchId = batch.settlementBatchId)
    (hsorted : steps.Pairwise fun t u => t.stepIndex ≤ u.stepIndex) :
    batchSteps db' batch.settlementBatchId = steps := by
  have hfresh : db.settlementBatch.find? batch.settlementBatchId = none :=
    (Table.insert?_eq_some_iff.1 h.batch).1
  have hold : db.settlementStep.rows.filter
      (fun t => t.settlementBatchId = batch.settlementBatchId) = [] := by
    rw [List.filter_eq_nil_iff]
    intro t ht he
    obtain ⟨b, hb⟩ := hrefs.stepBatch t ht
    rw [of_decide_eq_true he, hfresh] at hb
    cases hb
  have hnew : steps.filter (fun t => t.settlementBatchId = batch.settlementBatchId) = steps := by
    rw [List.filter_eq_self]
    intro t ht
    simp [hsteps t ht]
  unfold SettlementExecutor.batchSteps
  rw [h.steps, List.filter_append, hold, hnew, List.nil_append, hsorted.insertionSort_eq]

theorem replaySteps_of_completed (hrefs : References db) {record : IdempotencyRecordRow}
    {attempt : RequestAttemptRow} {outputs : List OperationOutput}
    (haudit : AuditWritten db db' record attempt (batchCompleted (openBatchRow env command))
      (completedStepRows ext env 0 command.operations outputs)) :
    replaySteps (batchSteps db' env.settlementBatchId) =
      .ok (stepResults env 0 command.operations outputs) := by
  have hsteps := AuditWritten.batchSteps hrefs haudit (fun t ht => (completedStepRows_mem ht).1)
    (completedStepRows_sorted 0 command.operations outputs)
  change batchSteps db' env.settlementBatchId = _ at hsteps
  rw [hsteps, replaySteps_completedStepRows]

end Changes

end EveTrade.SettlementRecords
