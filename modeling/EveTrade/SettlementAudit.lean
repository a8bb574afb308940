import EveTrade.SettlementIdempotencyInvariant
import EveTrade.LocalDevWorld
import Mathlib.Data.Finset.Basic

set_option autoImplicit false

/-!
# The audit rows

What the tables of idempotency records, request attempts, batches and steps say about each other in
every state that calls, in any order and with crashes, leave behind.
-/
namespace EveTrade.SettlementAudit

open KeyedTable TransactionMonad UuidText SettlementTypes SettlementCommands SettlementSchema
  SettlementEffects SettlementExecutor SettlementOutcome SettlementRecords SettlementInterleaving
  SettlementIdempotencyInvariant

section Invariant

def Numbered (numbers : List Int) : Prop :=
  ∃ n : ℕ, numbers.Perm ((List.range n).map fun i : ℕ => (i : Int) + 1)

def attemptsOf (db : Db) (idempotencyKey : String) : List RequestAttemptRow :=
  db.requestAttempt.rows.filter fun a => a.idempotencyKey = idempotencyKey

def StepsCompleted (kinds : List String) (steps : List SettlementStepRow) : Prop :=
  steps.map (fun t => (t.stepIndex, t.stepKind, t.stepState)) =
    kinds.zipIdx.map fun p => (p.2, p.1, StepState.completed)

/-- The audit rows, given the kinds of the operations that each completed batch has executed. -/
structure AuditOk (kinds : Uuid → List String) (db : Db) : Prop where
  references : References db
  recordEnded : ∀ r ∈ db.idempotencyRecord.rows, r.idempotencyState ≠ .inProgress
  attemptEnded : ∀ a ∈ db.requestAttempt.rows, a.attemptState ≠ .inProgress
  batchEnded : ∀ b ∈ db.settlementBatch.rows, b.batchState ≠ .inProgress
  stepEnded : ∀ t ∈ db.settlementStep.rows, t.stepState ≠ .running
  completed : ∀ r ∈ db.idempotencyRecord.rows,
    r.idempotencyState = .completed ↔ ∃ id, r.resultSettlementBatchId = some id
  result : ∀ r ∈ db.idempotencyRecord.rows, ∀ id, r.resultSettlementBatchId = some id →
    ∃ b, db.settlementBatch.find? id = some b ∧ b.idempotencyKey = r.idempotencyKey ∧
      b.batchState = .completed ∧ StepsCompleted (kinds id) (batchSteps db id)
  others : ∀ b ∈ db.settlementBatch.rows, ∀ r,
    db.idempotencyRecord.find? b.idempotencyKey = some r →
      r.resultSettlementBatchId ≠ some b.settlementBatchId → b.batchState = .failed
  numbered : ∀ k, Numbered ((attemptsOf db k).map RequestAttemptRow.attemptNumber)
  attemptBatch : ∀ a ∈ db.requestAttempt.rows,
    ∃ b ∈ db.settlementBatch.rows, b.requestId = a.requestId ∧ b.idempotencyKey = a.idempotencyKey
  batchAttempt : ∀ b ∈ db.settlementBatch.rows,
    ∃ a, db.requestAttempt.find? b.requestId = some a ∧ a.idempotencyKey = b.idempotencyKey
  batchOnce : ∀ b ∈ db.settlementBatch.rows, ∀ b' ∈ db.settlementBatch.rows,
    b.requestId = b'.requestId → b = b'

def commitsBatch (id : Uuid) (c : Call) : Bool :=
  match c.phase with
  | .ended (.ok r) => !r.idempotentReplay && decide (r.settlementBatchId = id)
  | _ => false

def committedKinds (id : Uuid) (c : Call) : Option (List String) :=
  if commitsBatch id c then some (c.command.operations.map SettlementCommand.kindName) else none

/-- The kinds of the operations a batch has executed: those of the call that committed it. -/
def executedKinds (kinds : Uuid → List String) (calls : List Call) (id : Uuid) : List String :=
  (calls.findSome? (committedKinds id)).getD (kinds id)

end Invariant

section Numbers

theorem foldl_max_range (n : ℕ) :
    ((List.range n).map fun i : ℕ => (i : Int) + 1).foldl max 0 = n := by
  induction n with
  | zero => rfl
  | succ n ih =>
    rw [List.range_succ, List.map_append, List.foldl_append, ih]
    simp

theorem Numbered.next {numbers : List Int} (h : Numbered numbers) :
    Numbered (numbers ++ [numbers.foldl max 0 + 1]) := by
  obtain ⟨n, hperm⟩ := h
  have hmax : numbers.foldl max 0 = n := by
    rw [hperm.foldl_eq, foldl_max_range]
  refine ⟨n + 1, ?_⟩
  rw [hmax, List.range_succ, List.map_append]
  exact hperm.append_right _

theorem maxAttemptNumber_eq (db : Db) (k : String) :
    maxAttemptNumber db k = ((attemptsOf db k).map RequestAttemptRow.attemptNumber).foldl max 0 := by
  rw [List.foldl_map]
  rfl

end Numbers

section Attempts

/-- How an attempt ends in its rows. -/
inductive Ended (kinds : List String) (record : IdempotencyRecordRow) (attempt : RequestAttemptRow)
    (batch : SettlementBatchRow) (steps : List SettlementStepRow) : Prop
  | completed (recordState : record.idempotencyState = .completed)
      (result : record.resultSettlementBatchId = some batch.settlementBatchId)
      (attemptState : attempt.attemptState = .completed) (batchState : batch.batchState = .completed)
      (completed : StepsCompleted kinds steps)
  | failed (recordState : record.idempotencyState = .failed)
      (result : record.resultSettlementBatchId = none)
      (attemptState : attempt.attemptState = .failed) (batchState : batch.batchState = .failed)

/-- The rows of one attempt at a key that had no record, or one that had failed. -/
structure Attempt (kinds : List String) (db : Db) (record : IdempotencyRecordRow)
    (attempt : RequestAttemptRow) (batch : SettlementBatchRow) (steps : List SettlementStepRow) :
    Prop where
  before : ∀ r, db.idempotencyRecord.find? record.idempotencyKey = some r →
    r.idempotencyState = .failed
  attemptKey : attempt.idempotencyKey = record.idempotencyKey
  batchKey : batch.idempotencyKey = record.idempotencyKey
  request : batch.requestId = attempt.requestId
  number : attempt.attemptNumber = maxAttemptNumber db record.idempotencyKey + 1
  stepBatch : ∀ t ∈ steps, t.settlementBatchId = batch.settlementBatchId
  stepEnded : ∀ t ∈ steps, t.stepState ≠ .running
  sorted : steps.Pairwise fun t u => t.stepIndex ≤ u.stepIndex
  ended : Ended kinds record attempt batch steps

theorem Attempt.attempt_ended {kinds : List String} {db : Db} {record : IdempotencyRecordRow}
    {attempt : RequestAttemptRow} {batch : SettlementBatchRow} {steps : List SettlementStepRow}
    (h : Attempt kinds db record attempt batch steps) : attempt.attemptState ≠ .inProgress := by
  cases h.ended with
  | completed _ _ hattempt _ _ => simp [hattempt]
  | failed _ _ hattempt _ => simp [hattempt]

variable {kinds kinds' : Uuid → List String} {db db' : Db} {record : IdempotencyRecordRow}
  {attempt : RequestAttemptRow} {batch : SettlementBatchRow} {steps : List SettlementStepRow}

theorem AuditOk.result_of_failed (h : AuditOk kinds db) {r : IdempotencyRecordRow}
    (hr : r ∈ db.idempotencyRecord.rows) (hfailed : r.idempotencyState = .failed) :
    r.resultSettlementBatchId = none := by
  cases hresult : r.resultSettlementBatchId with
  | none => rfl
  | some id =>
    have hcompleted := (h.completed r hr).2 ⟨id, hresult⟩
    rw [hfailed] at hcompleted
    cases hcompleted

theorem AuditOk.mono (h : AuditOk kinds db)
    (hkinds : ∀ id b, db.settlementBatch.find? id = some b → kinds' id = kinds id) :
    AuditOk kinds' db :=
  { h with
    result := by
      intro r hr id hid
      obtain ⟨b, hb, hkey, hstate, hsteps⟩ := h.result r hr id hid
      rw [hkinds id b hb]
      exact ⟨b, hb, hkey, hstate, hsteps⟩ }

theorem AuditWritten.mem_record (hw : AuditWritten db db' record attempt batch steps)
    {r : IdempotencyRecordRow} (hr : r ∈ db'.idempotencyRecord.rows) :
    r = record ∨ (r ∈ db.idempotencyRecord.rows ∧ r.idempotencyKey ≠ record.idempotencyKey) := by
  have hfound : db'.idempotencyRecord.find? r.idempotencyKey = some r := Table.find?_of_mem hr
  rw [Table.find?_put hw.record] at hfound
  split_ifs at hfound with hk
  · exact .inl (Option.some.inj hfound).symm
  · exact .inr ⟨Table.find?_some_mem hfound, fun he => hk he.symm⟩

theorem AuditWritten.find_record (hw : AuditWritten db db' record attempt batch steps) (k : String) :
    db'.idempotencyRecord.find? k =
      if record.idempotencyKey = k then some record else db.idempotencyRecord.find? k :=
  Table.find?_put hw.record k

theorem AuditWritten.references (hw : AuditWritten db db' record attempt batch steps)
    (ha : Attempt (kinds' batch.settlementBatchId) db record attempt batch steps)
    (h : References db) : References db' := by
  constructor
  · intro b hb
    rw [AuditWritten.find_record hw]
    split_ifs with hk
    · exact ⟨record, rfl⟩
    · rcases (Table.mem_insert hw.batch).1 hb with hb | rfl
      · exact h.batchRecord b hb
      · exact absurd ha.batchKey.symm hk
  · intro t ht
    rw [Table.find?_insert hw.batch]
    split_ifs with hk
    · exact ⟨batch, rfl⟩
    · rw [hw.steps, List.mem_append] at ht
      rcases ht with ht | ht
      · exact h.stepBatch t ht
      · exact absurd (ha.stepBatch t ht).symm hk

theorem AuditWritten.attemptsOf (hw : AuditWritten db db' record attempt batch steps) (k : String) :
    attemptsOf db' k =
      if attempt.idempotencyKey = k then attemptsOf db k ++ [attempt] else attemptsOf db k := by
  unfold SettlementAudit.attemptsOf
  rw [(Table.insert?_eq_some_iff.1 hw.attempt).2, List.filter_append]
  split_ifs with hk
  · simp [hk]
  · simp [hk]

theorem AuditOk.written (h : AuditOk kinds db) (hw : AuditWritten db db' record attempt batch steps)
    (ha : Attempt (kinds' batch.settlementBatchId) db record attempt batch steps)
    (hkinds : ∀ id b, db.settlementBatch.find? id = some b → kinds' id = kinds id) :
    AuditOk kinds' db' where
  references := AuditWritten.references hw ha h.references
  recordEnded := by
    intro r hr
    rcases AuditWritten.mem_record hw hr with rfl | ⟨hr, _⟩
    · cases ha.ended with
      | completed hrecord _ _ _ _ => simp [hrecord]
      | failed hrecord _ _ _ => simp [hrecord]
    · exact h.recordEnded r hr
  attemptEnded := by
    intro a hmem
    rcases (Table.mem_insert hw.attempt).1 hmem with hmem | rfl
    · exact h.attemptEnded a hmem
    · exact ha.attempt_ended
  batchEnded := by
    intro b hb
    rcases (Table.mem_insert hw.batch).1 hb with hb | rfl
    · exact h.batchEnded b hb
    · cases ha.ended with
      | completed _ _ _ hbatch _ => simp [hbatch]
      | failed _ _ _ hbatch => simp [hbatch]
  stepEnded := by
    intro t ht
    rw [hw.steps, List.mem_append] at ht
    rcases ht with ht | ht
    · exact h.stepEnded t ht
    · exact ha.stepEnded t ht
  completed := by
    intro r hr
    rcases AuditWritten.mem_record hw hr with rfl | ⟨hr, _⟩
    · cases ha.ended with
      | completed hrecord hresult _ _ _ => simp [hrecord, hresult]
      | failed hrecord hresult _ _ => simp [hrecord, hresult]
    · exact h.completed r hr
  result := by
    intro r hr id hid
    rcases AuditWritten.mem_record hw hr with rfl | ⟨hr, _⟩
    · cases ha.ended with
      | completed hrecord hresult _ hbatch hsteps =>
        rw [hresult] at hid
        obtain rfl := Option.some.inj hid
        refine ⟨batch, Table.find?_insert_self hw.batch, ha.batchKey, hbatch, ?_⟩
        rw [AuditWritten.batchSteps h.references hw ha.stepBatch ha.sorted]
        exact hsteps
      | failed hrecord hresult _ _ =>
        rw [hresult] at hid
        cases hid
    · obtain ⟨b, hb, hkey, hstate, hsteps⟩ := h.result r hr id hid
      have hne : Keyed.key batch ≠ id := by
        rintro rfl
        have hfresh := (Table.insert?_eq_some_iff.1 hw.batch).1
        rw [hb] at hfresh
        cases hfresh
      refine ⟨b, ?_, hkey, hstate, ?_⟩
      · rw [Table.find?_insert hw.batch, if_neg hne]
        exact hb
      · rw [AuditWritten.batchSteps_of_found hw ha.stepBatch hb, hkinds id b hb]
        exact hsteps
  others := by
    intro b hb r hr hother
    rw [AuditWritten.find_record hw] at hr
    rcases (Table.mem_insert hw.batch).1 hb with hb | rfl
    · split_ifs at hr with hk
      · -- the earlier batches of the key belong to a record that had failed
        obtain ⟨q, hq⟩ := h.references.batchRecord b hb
        have hfailed : q.idempotencyState = .failed := ha.before q (hk ▸ hq)
        have hnone := h.result_of_failed (Table.find?_some_mem hq) hfailed
        exact h.others b hb q hq (by simp [hnone])
      · exact h.others b hb r hr hother
    · rw [if_pos ha.batchKey.symm] at hr
      obtain rfl := Option.some.inj hr
      cases ha.ended with
      | completed _ hresult _ _ _ => exact absurd hresult hother
      | failed _ _ _ hbatch => exact hbatch
  numbered := by
    intro k
    rw [AuditWritten.attemptsOf hw]
    split_ifs with hk
    · have hnumber : attempt.attemptNumber =
          ((attemptsOf db k).map RequestAttemptRow.attemptNumber).foldl max 0 + 1 := by
        rw [ha.number, ← ha.attemptKey, hk, maxAttemptNumber_eq]
      rw [List.map_append, List.map_singleton, hnumber]
      exact (h.numbered k).next
    · exact h.numbered k
  attemptBatch := by
    intro a hmem
    rcases (Table.mem_insert hw.attempt).1 hmem with hmem | rfl
    · obtain ⟨b, hb, hrequest, hkey⟩ := h.attemptBatch a hmem
      exact ⟨b, (Table.mem_insert hw.batch).2 (.inl hb), hrequest, hkey⟩
    · exact ⟨batch, (Table.mem_insert hw.batch).2 (.inr rfl), ha.request,
        ha.batchKey.trans ha.attemptKey.symm⟩
  batchAttempt := by
    intro b hb
    rw [Table.find?_insert hw.attempt]
    rcases (Table.mem_insert hw.batch).1 hb with hb | rfl
    · obtain ⟨a, hfound, hkey⟩ := h.batchAttempt b hb
      have hne : Keyed.key attempt ≠ b.requestId := by
        intro he
        have hfresh := (Table.insert?_eq_some_iff.1 hw.attempt).1
        rw [he, hfound] at hfresh
        cases hfresh
      rw [if_neg hne]
      exact ⟨a, hfound, hkey⟩
    · have hself : Keyed.key attempt = b.requestId := ha.request.symm
      rw [if_pos hself]
      exact ⟨attempt, rfl, ha.attemptKey.trans ha.batchKey.symm⟩
  batchOnce := by
    have hnew : ∀ b ∈ db.settlementBatch.rows, b.requestId ≠ batch.requestId := by
      intro b hb he
      obtain ⟨a, hfound, _⟩ := h.batchAttempt b hb
      have hfresh : db.requestAttempt.find? attempt.requestId = none :=
        (Table.insert?_eq_some_iff.1 hw.attempt).1
      rw [← ha.request, ← he, hfound] at hfresh
      cases hfresh
    intro b hb b' hb' he
    rcases (Table.mem_insert hw.batch).1 hb with hb | rfl
    · rcases (Table.mem_insert hw.batch).1 hb' with hb' | rfl
      · exact h.batchOnce b hb b' hb' he
      · exact absurd he (hnew b hb)
    · rcases (Table.mem_insert hw.batch).1 hb' with hb' | rfl
      · exact absurd he.symm (hnew b' hb')
      · rfl

end Attempts

section Calls

variable {ext : External} {env : ExecEnv} {command : ExecuteBatchCommand} {fingerprint : String}
  {existing : Option IdempotencyRecordRow} {db db' : Db} {settlement : Settlement}
  {kinds kinds' : Uuid → List String}
variable {cs : List SettlementCommand} {os : List OperationOutput}

theorem StepsRun.length {i : ℕ} {b b' : Business} {checks : List DeferredCheck}
    (h : StepsRun ext env i cs b b' checks os) : os.length = cs.length := by
  induction h with
  | nil => rfl
  | cons _ _ ih => simp [ih]

theorem completedStepRows_columns {i : ℕ} (h : os.length = cs.length) :
    (completedStepRows ext env i cs os).map (fun t => (t.stepIndex, t.stepKind, t.stepState)) =
      ((cs.map SettlementCommand.kindName).zipIdx i).map fun p => (p.2, p.1, StepState.completed) := by
  induction cs generalizing i os with
  | nil => rfl
  | cons c cs ih =>
    cases os with
    | nil => cases h
    | cons o os =>
      have hlength : os.length = cs.length := by simpa using h
      rw [completedStepRows, List.map_cons, List.map_cons, List.zipIdx_cons, List.map_cons,
        ih hlength]
      rfl

theorem completedStepRows_state {i : ℕ}
    {t : SettlementStepRow} (h : t ∈ completedStepRows ext env i cs os) :
    t.stepState = .completed := by
  induction cs generalizing i os with
  | nil => cases h
  | cons c cs ih =>
    cases os with
    | nil => cases h
    | cons o os =>
      rcases List.mem_cons.1 h with rfl | h
      · rfl
      · exact ih h

theorem failedStepRows_columns {attempted i : ℕ} {code message : String}
    {t : SettlementStepRow} (h : t ∈ failedStepRows ext env attempted code message i cs) :
    i ≤ t.stepIndex ∧ t.stepState ≠ .running := by
  induction cs generalizing i with
  | nil => cases h
  | cons c cs ih =>
    rcases List.mem_cons.1 h with rfl | h
    · unfold failedStepRow
      split_ifs
      · exact ⟨le_refl i, nofun⟩
      · exact ⟨le_refl i, nofun⟩
    · have := ih h
      exact ⟨by omega, this.2⟩

theorem failedStepRow_stepIndex (attempted i : ℕ) (code message : String) (c : SettlementCommand) :
    (failedStepRow ext env attempted code message i c).stepIndex = i := by
  unfold failedStepRow
  split_ifs <;> rfl

theorem failedStepRows_sorted (attempted i : ℕ) (code message : String)
    (cs : List SettlementCommand) :
    (failedStepRows ext env attempted code message i cs).Pairwise
      fun t u => t.stepIndex ≤ u.stepIndex := by
  induction cs generalizing i with
  | nil => exact List.Pairwise.nil
  | cons c cs ih =>
    refine List.Pairwise.cons ?_ (ih (i + 1))
    intro t ht
    have := (failedStepRows_columns ht).1
    rw [failedStepRow_stepIndex]
    omega

theorem RecordOpening.before {record r : IdempotencyRecordRow}
    (h : RecordOpening command fingerprint db.idempotencyRecord existing record)
    (hr : db.idempotencyRecord.find? record.idempotencyKey = some r) :
    r.idempotencyState = .failed := by
  rw [h.key] at hr
  cases h with
  | inserted absent =>
    rw [absent] at hr
    cases hr
  | reset q found same failed =>
    rw [found] at hr
    obtain rfl := Option.some.inj hr
    exact failed

theorem AuditOk.congr (h : AuditOk kinds db) (hrecord : db'.idempotencyRecord = db.idempotencyRecord)
    (hattempt : db'.requestAttempt = db.requestAttempt)
    (hbatch : db'.settlementBatch = db.settlementBatch)
    (hstep : db'.settlementStep = db.settlementStep) : AuditOk kinds db' := by
  obtain ⟨business, records, attempts, batches, steps, operations⟩ := db
  obtain ⟨business', records', attempts', batches', steps', operations'⟩ := db'
  obtain rfl : records' = records := hrecord
  obtain rfl : attempts' = attempts := hattempt
  obtain rfl : batches' = batches := hbatch
  obtain rfl : steps' = steps := hstep
  exact ⟨⟨h.references.batchRecord, h.references.stepBatch⟩, h.recordEnded, h.attemptEnded,
    h.batchEnded, h.stepEnded, h.completed, h.result, h.others, h.numbered, h.attemptBatch,
    h.batchAttempt, h.batchOnce⟩

theorem AuditOk.settled (h : AuditOk kinds db)
    (hs : Settled ext env command fingerprint existing db settlement db')
    (hkinds : ∀ id b, db.settlementBatch.find? id = some b → kinds' id = kinds id)
    (hexecuted : ∀ r, settlement = .answered (.ok r) →
      kinds' r.settlementBatchId = command.operations.map SettlementCommand.kindName) :
    AuditOk kinds' db' := by
  cases hs with
  | refused e => exact h.mono hkinds
  | replaying r batchId _ _ _ _ _ => exact (h.mono hkinds).congr rfl rfl rfl rfl
  | failed record number _ opened attempted e audit _ _ =>
    refine h.written audit ?_ hkinds
    exact {
      before := fun r hr => RecordOpening.before opened.record hr
      attemptKey := opened.record.key.symm
      batchKey := opened.record.key.symm
      request := rfl
      number := by
        change number = _
        rw [opened.attemptNumber]
        change _ = maxAttemptNumber db record.idempotencyKey + 1
        rw [opened.record.key]
      stepBatch := fun t ht => failedStepRows_mem ht
      stepEnded := fun t ht => (failedStepRows_columns ht).2
      sorted := failedStepRows_sorted _ _ _ _ _
      ended := .failed rfl rfl rfl rfl }
  | completed record number _ opened checks outputs run _ audit _ =>
    refine h.written audit ?_ hkinds
    exact {
      before := fun r hr => RecordOpening.before opened.record hr
      attemptKey := opened.record.key.symm
      batchKey := opened.record.key.symm
      request := rfl
      number := by
        change number = _
        rw [opened.attemptNumber]
        change _ = maxAttemptNumber db record.idempotencyKey + 1
        rw [opened.record.key]
      stepBatch := fun t ht => (completedStepRows_mem ht).1
      stepEnded := fun t ht => by simp [completedStepRows_state ht]
      sorted := completedStepRows_sorted _ _ _
      ended := by
        refine .completed rfl rfl rfl rfl ?_
        have hkind := hexecuted _ rfl
        change kinds' env.settlementBatchId = _ at hkind
        change StepsCompleted (kinds' env.settlementBatchId) _
        rw [hkind]
        exact completedStepRows_columns (StepsRun.length run) }

end Calls

section Worlds

variable {ext : External} {k : String} {kinds : Uuid → List String} {w : World}
variable {c : Call} {j : ℕ}

/-- The audit rows are in order, and the batches that calls have committed are among them. -/
structure Audited (kinds : Uuid → List String) (w : World) : Prop where
  audit : AuditOk (executedKinds kinds w.calls) w.db
  committed : ∀ c ∈ w.calls, ∀ id, commitsBatch id c = true →
    ∃ b, w.db.settlementBatch.find? id = some b

theorem committedKinds_of_not {id : Uuid} (h : commitsBatch id c = false) :
    committedKinds id c = none := by
  simp [committedKinds, h]

theorem findSome?_set {calls : List Call} {c c' : Call} {id : Uuid}
    (hj : calls[j]? = some c) (hsame : committedKinds id c' = committedKinds id c) :
    (calls.set j c').findSome? (committedKinds id) = calls.findSome? (committedKinds id) := by
  have hmap : (calls.set j c').map (committedKinds id) = calls.map (committedKinds id) := by
    have hentry : (calls.map (committedKinds id))[j]? = some (committedKinds id c) := by
      rw [List.getElem?_map, hj]
      rfl
    rw [List.map_set, hsame]
    apply List.ext_getElem?
    intro i
    rw [List.getElem?_set]
    split_ifs with hi hlt
    · rw [← hi, hentry]
    · exact absurd (List.getElem?_eq_some_iff.1 hentry).1 hlt
    · rfl
  have hfind : ∀ l : List Call, l.findSome? (committedKinds id) =
      (l.map (committedKinds id)).findSome? fun x => x := fun l => by
    rw [List.findSome?_map]
    rfl
  rw [hfind, hfind, hmap]

theorem Audited.set_phase (hw : Audited kinds w) {p : Phase} (hj : w.calls[j]? = some c)
    (hsame : ∀ id, commitsBatch id (c.withPhase p) = commitsBatch id c) :
    Audited kinds ⟨w.db, w.calls.set j (c.withPhase p)⟩ := by
  have hkinds : executedKinds kinds (w.calls.set j (c.withPhase p)) =
      executedKinds kinds w.calls := by
    funext id
    unfold executedKinds
    rw [findSome?_set hj]
    unfold committedKinds
    rw [hsame id]
    rfl
  constructor
  · change AuditOk (executedKinds kinds (w.calls.set j (c.withPhase p))) w.db
    rw [hkinds]
    exact hw.audit
  · intro d hd id hcommits
    rcases List.mem_or_eq_of_mem_set hd with hd | rfl
    · exact hw.committed d hd id hcommits
    · rw [hsame id] at hcommits
      exact hw.committed c (List.mem_of_getElem? hj) id hcommits

theorem Audited.append (hw : Audited kinds w) (hnot : ∀ id, commitsBatch id c = false) :
    Audited kinds ⟨w.db, w.calls ++ [c]⟩ := by
  have hkinds : executedKinds kinds (w.calls ++ [c]) = executedKinds kinds w.calls := by
    funext id
    unfold executedKinds
    rw [List.findSome?_append, List.findSome?_singleton, committedKinds_of_not (hnot id),
      Option.or_none]
  constructor
  · change AuditOk (executedKinds kinds (w.calls ++ [c])) w.db
    rw [hkinds]
    exact hw.audit
  · intro d hd id hcommits
    rcases List.mem_append.1 hd with hd | hd
    · exact hw.committed d hd id hcommits
    · obtain rfl := List.mem_singleton.1 hd
      rw [hnot id] at hcommits
      cases hcommits

theorem begin_commits (env : ExecEnv) (command : ExecuteBatchCommand) (id : Uuid) :
    commitsBatch id (begin ext env command) = false := by
  unfold begin
  cases prepare ext command with
  | error e => rfl
  | ok fp => rfl

theorem crashedPhase_commits (c : Call) (id : Uuid) :
    commitsBatch id (c.withPhase (crashedPhase c.phase)) = commitsBatch id c := by
  obtain ⟨env, command, phase⟩ := c
  cases phase with
  | ended r => rfl
  | started => rfl
  | looked existing faults => rfl
  | replaying batchId => rfl
  | crashed => rfl

theorem Settled.commits {existing : Option IdempotencyRecordRow} {db db' : Db}
    {settlement : Settlement} {fingerprint : String}
    (h : Settled ext c.env c.command fingerprint existing db settlement db') (id : Uuid)
    (hcommits : commitsBatch id (c.withPhase (afterSettle settlement)) = true) :
    id = c.env.settlementBatchId ∧ (∃ r, settlement = .answered (.ok r)) ∧
      db.settlementBatch.find? id = none ∧ ∃ b, db'.settlementBatch.find? id = some b := by
  cases h with
  | refused e => cases hcommits
  | replaying r batchId _ _ _ _ _ => cases hcommits
  | failed record number _ opened attempted e audit _ _ => cases hcommits
  | completed record number _ opened checks outputs run _ audit _ =>
    have hid : c.env.settlementBatchId = id := of_decide_eq_true hcommits
    subst hid
    exact ⟨rfl, ⟨_, rfl⟩, (Table.insert?_eq_some_iff.1 audit.batch).1, _,
      Table.find?_insert_self audit.batch⟩

theorem Settled.batch_kept {env : ExecEnv} {command : ExecuteBatchCommand} {fingerprint : String}
    {existing : Option IdempotencyRecordRow} {db db' : Db} {settlement : Settlement}
    (h : Settled ext env command fingerprint existing db settlement db') {id : Uuid}
    {b : SettlementBatchRow} (hb : db.settlementBatch.find? id = some b) :
    ∃ b', db'.settlementBatch.find? id = some b' := by
  rcases Settled.audit_cases h with ⟨_, hbatch, _⟩ | ⟨row, hchange, _⟩
  · exact ⟨b, by rw [hbatch]; exact hb⟩
  · obtain ⟨attempt, batch, steps, hw, _⟩ := hchange.written
    rw [Table.find?_insert hw.batch]
    split_ifs
    · exact ⟨batch, rfl⟩
    · exact ⟨b, hb⟩

theorem Audited.of_settled (hw : Audited kinds w)
    {existing : Option IdempotencyRecordRow} {faults : List (Option DbError)}
    {settlement : Settlement} {db' : Db} (hj : w.calls[j]? = some c)
    (hphase : c.phase = .looked existing faults)
    (h : Settled ext c.env c.command (buildRequestFingerprint ext c.command) existing w.db
      settlement db') :
    Audited kinds ⟨db', w.calls.set j (c.withPhase (afterSettle settlement))⟩ := by
  have hbefore : ∀ id, commitsBatch id c = false := fun id => by simp [commitsBatch, hphase]
  constructor
  · refine hw.audit.settled h (fun id b hb => ?_) fun r hr => ?_
    · -- the new batch has a free id, so that nothing changes for those there are
      have hnot : commitsBatch id (c.withPhase (afterSettle settlement)) = false := by
        by_contra hcommits
        obtain ⟨_, _, hfree, _⟩ := Settled.commits h id (by simpa using hcommits)
        rw [hb] at hfree
        cases hfree
      unfold executedKinds
      rw [findSome?_set hj]
      rw [committedKinds_of_not hnot, committedKinds_of_not (hbefore id)]
    · subst hr
      have hcommits : commitsBatch r.settlementBatchId
          (c.withPhase (afterSettle (.answered (.ok r)))) = true := by
        cases h with
        | completed record number _ opened checks outputs run _ audit _ =>
          exact decide_eq_true rfl
      obtain ⟨_, _, hfree, _⟩ := Settled.commits h _ hcommits
      have hmem : c.withPhase (afterSettle (.answered (.ok r))) ∈
          w.calls.set j (c.withPhase (afterSettle (.answered (.ok r)))) := by
        obtain ⟨hlt, _⟩ := List.getElem?_eq_some_iff.1 hj
        exact List.mem_set hlt _
      have hself : committedKinds r.settlementBatchId
          (c.withPhase (afterSettle (.answered (.ok r)))) =
            some (c.command.operations.map SettlementCommand.kindName) := by
        simp only [committedKinds, hcommits, if_true]
        rfl
      unfold executedKinds
      cases hfind : (w.calls.set j (c.withPhase (afterSettle (.answered (.ok r))))).findSome?
          (committedKinds r.settlementBatchId) with
      | none =>
        rw [List.findSome?_eq_none_iff] at hfind
        rw [hfind _ hmem] at hself
        cases hself
      | some x =>
        obtain ⟨d, hd, hx⟩ := List.exists_of_findSome?_eq_some hfind
        rcases List.mem_or_eq_of_mem_set hd with hd | rfl
        · have hd' : commitsBatch r.settlementBatchId d = true := by
            by_contra hnot
            rw [committedKinds_of_not (by simpa using hnot)] at hx
            cases hx
          obtain ⟨b, hb⟩ := hw.committed d hd _ hd'
          rw [hb] at hfree
          cases hfree
        · rw [hself] at hx
          exact (Option.some.inj hx).symm
  · intro d hd id hcommits
    rcases List.mem_or_eq_of_mem_set hd with hd | rfl
    · obtain ⟨b, hb⟩ := hw.committed d hd id hcommits
      exact Settled.batch_kept h hb
    · exact (Settled.commits h id hcommits).2.2.2

theorem replayAnswer_commits (c : Call) (batchId : Uuid) (db : Db) (id : Uuid) :
    commitsBatch id (c.withPhase (.ended (replayAnswer c.env c.command batchId db))) = false := by
  cases ha : replayAnswer c.env c.command batchId db with
  | error e => rfl
  | ok r =>
    have hreplay := (replayAnswer_eq_ok ha).2.2.2.1
    simp [commitsBatch, Call.withPhase, hreplay]

theorem Audited.advance (hw : Audited kinds w) (hlocks : Inv ext k w)
    (hj : w.calls[j]? = some c) :
    Audited kinds ⟨(nextPhase ext c (w.calls.any (Call.locks c.key)) w.db).2, w.calls.set j
      (c.withPhase (nextPhase ext c (w.calls.any (Call.locks c.key)) w.db).1)⟩ := by
  have hok := hlocks.calls j c hj
  cases hphase : c.phase with
  | started =>
    have hbefore : ∀ id, commitsBatch id c = false := fun id => by simp [commitsBatch, hphase]
    simp only [nextPhase, hphase]
    split_ifs with hlocked
    · exact hw.set_phase hj fun id => (hbefore id).symm
    · cases lookup c.command ⟨w.db, [], c.env.faults⟩ with
      | error e => exact hw.set_phase hj fun id => (hbefore id).symm
      | ok p => exact hw.set_phase hj fun id => (hbefore id).symm
  | looked existing faults =>
    simp only [CallOk, hphase] at hok
    simp only [nextPhase, hphase]
    exact hw.of_settled hj hphase (settle_settled (s := ⟨w.db, [], faults⟩) rfl hok.2)
  | replaying batchId =>
    have hbefore : ∀ id, commitsBatch id c = false := fun id => by simp [commitsBatch, hphase]
    simp only [nextPhase, hphase]
    exact hw.set_phase hj fun id =>
      (replayAnswer_commits c batchId w.db id).trans (hbefore id).symm
  | ended r =>
    simp only [nextPhase, hphase]
    rw [← hphase]
    exact hw.set_phase hj fun _ => rfl
  | crashed =>
    simp only [nextPhase, hphase]
    rw [← hphase]
    exact hw.set_phase hj fun _ => rfl

theorem Audited.of_perform (hw : Audited kinds w) (hlocks : Inv ext k w) (a : Action) :
    Audited kinds (perform ext a w) := by
  rcases perform_cases ext a w with ⟨env, command, _, he⟩ | he | ⟨j, c, _, hj, he⟩ | ⟨j, c, _, hj, he⟩
  · rw [he]
    exact hw.append (begin_commits env command)
  · rw [he]
    exact hw
  · rw [he]
    exact hw.set_phase hj (crashedPhase_commits c)
  · rw [he]
    exact hw.advance hlocks hj

theorem Audited.of_run (hw : Audited kinds w) (hlocks : Inv ext k w) (as : List Action) :
    Audited kinds (run ext as w) := by
  induction as generalizing w with
  | nil => exact hw
  | cons a as ih => exact ih (hw.of_perform hlocks a) (hlocks.of_perform a)

theorem exists_unused_key (db : Db) : ∃ k, db.idempotencyRecord.find? k = none := by
  obtain ⟨k, hk⟩ := Infinite.exists_notMem_finset
    (db.idempotencyRecord.rows.map IdempotencyRecordRow.idempotencyKey).toFinset
  refine ⟨k, Table.find?_eq_none_iff.2 fun r hr he => hk ?_⟩
  exact List.mem_toFinset.2 (List.mem_map.2 ⟨r, hr, he⟩)

/-- In every state that calls can reach, in any order and with crashes at any point, the audit rows
are in order. -/
theorem audit_rows_in_order (ext : External) (kinds : Uuid → List String) (db : Db)
    (start : AuditOk kinds db) (as : List Action) :
    AuditOk (executedKinds kinds (run ext as ⟨db, []⟩).calls) (run ext as ⟨db, []⟩).db := by
  -- the locks of the records are tracked by the invariant of a key, here one nobody has used
  obtain ⟨k, hunused⟩ := exists_unused_key db
  have hlocks : Inv ext k ⟨db, []⟩ := Inv.initial start.references hunused
  have hstart : Audited kinds ⟨db, []⟩ := ⟨start, fun c hc => nomatch hc⟩
  exact (hstart.of_run hlocks as).audit

end Worlds

section Seeded

open LocalDevWorld

def seedKinds : Uuid → List String := fun _ => ["local_dev_world.seed_item_stack_ledgers"]

theorem localDevWorld_audit (ext : External) : AuditOk seedKinds (localDevWorld ext) where
  references := localDevWorld_references ext
  recordEnded := by
    intro r hr
    obtain rfl := List.mem_singleton.1 hr
    exact nofun
  attemptEnded := by
    intro a ha
    obtain rfl := List.mem_singleton.1 ha
    exact nofun
  batchEnded := by
    intro b hb
    obtain rfl := List.mem_singleton.1 hb
    exact nofun
  stepEnded := by
    intro t ht
    obtain rfl := List.mem_singleton.1 ht
    exact nofun
  completed := by
    intro r hr
    obtain rfl := List.mem_singleton.1 hr
    exact ⟨fun _ => ⟨_, rfl⟩, fun _ => rfl⟩
  result := by
    intro r hr id hid
    obtain rfl := List.mem_singleton.1 hr
    obtain rfl : seedBatchId = id := Option.some.inj hid
    exact ⟨seedBatch, Table.find?_eq_some_iff.2 ⟨List.mem_singleton.2 rfl, rfl⟩, rfl, rfl, rfl⟩
  others := by
    intro b hb r hr hother
    obtain rfl := List.mem_singleton.1 hb
    obtain rfl := List.mem_singleton.1 (Table.find?_some_mem hr)
    exact absurd rfl hother
  numbered := by
    intro k
    by_cases hk : seedKey = k
    · refine ⟨1, ?_⟩
      simp [attemptsOf, localDevWorld, seedAttempt, hk]
    · refine ⟨0, ?_⟩
      simp [attemptsOf, localDevWorld, seedAttempt, hk]
  attemptBatch := by
    intro a ha
    obtain rfl := List.mem_singleton.1 ha
    exact ⟨seedBatch, List.mem_singleton.2 rfl, rfl, rfl⟩
  batchAttempt := by
    intro b hb
    obtain rfl := List.mem_singleton.1 hb
    exact ⟨seedAttempt, Table.find?_eq_some_iff.2 ⟨List.mem_singleton.2 rfl, rfl⟩, rfl⟩
  batchOnce := by
    intro b hb b' hb' _
    rw [List.mem_singleton.1 hb, List.mem_singleton.1 hb']

/-- Two calls with one key, the second of which crashes after its lookup. -/
def offeredTwice : List Action :=
  [.start (quietEnv 100) (issueTradeCommand "issue" (.ofNat 0x71) (.ofNat 0x72) 10 none),
    .start (quietEnv 200) (issueTradeCommand "issue" (.ofNat 0x71) (.ofNat 0x72) 10 none),
    .advance 0, .advance 1, .advance 0, .crash 1]

theorem audit_rows_in_order_offeredTwice :
    AuditOk seedKinds (localDevWorld transparent) ∧
    AuditOk (executedKinds seedKinds (run transparent offeredTwice ⟨localDevWorld transparent, []⟩).calls)
      (run transparent offeredTwice ⟨localDevWorld transparent, []⟩).db :=
  ⟨localDevWorld_audit transparent,
    audit_rows_in_order transparent seedKinds (localDevWorld transparent)
      (localDevWorld_audit transparent) offeredTwice⟩

end Seeded

end EveTrade.SettlementAudit
