import EveTrade.SettlementLifecycle

set_option autoImplicit false

/-!
# How an operation has ended

The row of an operation that has ended keeps its state, its batch and that its result is published.
It keeps its failure code as long as no later call marks the failed operation as failed with another
code, and only then do published results stay those of the row.
-/
namespace EveTrade.SettlementEndings

open KeyedTable FieldText UuidText TransactionMonad SettlementTypes SettlementSchema
  SettlementExecutor SettlementWork SettlementService SettlementDelivery SettlementOperationChanges
  SettlementAgreement SettlementLifecycle LocalDevWorld

section Projection

def settlementOperationStatus : OperationState → String
  | .queued => "queued"
  | .processing => "processing"
  | .succeeded => "succeeded"
  | .failed => "failed"
  | .cancelled => "cancelled"
  | .expired => "expired"

def validateSettlementResult (result : SettlementResult) (operation : SettlementOperationStatus) :
    Except String Unit :=
  let status := settlementOperationStatus operation.state
  if status ≠ "succeeded" ∧ status ≠ "failed" ∧ status ≠ "cancelled" ∧ status ≠ "expired" then
    .error (s!"settlement result {result.operationId} references " ++
      s!"non-terminal operation state {status}")
  else if result.settlementBatchId ≠ operation.settlementBatchId ∨
      result.failureCode ≠ operation.failureCode then
    .error s!"settlement result {result.operationId} does not match durable operation status"
  else .ok ()

/-- The market's subscription to results. -/
def handleSettlementResult (result : SettlementResult) (db : Db) : Except String Unit :=
  if result.operationId = "" then .error "settlement result operation_id is required"
  else
    match getSettlementOperation result.operationId db with
    | .error e => .error e.text
    | .ok operation => validateSettlementResult result operation

end Projection

section Updates

variable {db db' : Db}
variable {o : SettlementOperationRow} {r : UpdateSettlementOperationRequest}

/-- The row of an operation that has ended, at a later moment. -/
structure KeptRow (o o' : SettlementOperationRow) : Prop where
  operationId : o'.operationId = o.operationId
  idempotencyKey : o'.idempotencyKey = o.idempotencyKey
  operationState : o'.operationState = o.operationState
  settlementBatchId : o'.settlementBatchId = o.settlementBatchId
  failureCode : o'.failureCode = o.failureCode
  resultPublished : o.resultPublished = true → o'.resultPublished = true

def EndingsKept (db db' : Db) : Prop :=
  ∀ o ∈ db.settlementOperation.rows, isTerminalOperation o.operationState = true →
    ∃ o' ∈ db'.settlementOperation.rows, KeptRow o o'

/-- The request marks an operation as failed that has failed with another code. -/
def Overwrites (db : Db) (r : UpdateSettlementOperationRequest) : Prop :=
  ∃ o ∈ db.settlementOperation.rows, Uuid.parse r.operationId = some o.operationId ∧
    o.operationState = .failed ∧ r.state = .failed ∧ trim r.failureCode ≠ "" ∧
    o.failureCode ≠ some r.failureCode

instance (db : Db) (r : UpdateSettlementOperationRequest) : Decidable (Overwrites db r) := by
  unfold Overwrites
  infer_instance

theorem KeptRow.refl (o : SettlementOperationRow) : KeptRow o o := ⟨rfl, rfl, rfl, rfl, rfl, id⟩

theorem KeptRow.trans {o p q : SettlementOperationRow} (h : KeptRow o p) (h' : KeptRow p q) :
    KeptRow o q where
  operationId := h'.operationId.trans h.operationId
  idempotencyKey := h'.idempotencyKey.trans h.idempotencyKey
  operationState := h'.operationState.trans h.operationState
  settlementBatchId := h'.settlementBatchId.trans h.settlementBatchId
  failureCode := h'.failureCode.trans h.failureCode
  resultPublished := fun hp => h'.resultPublished (h.resultPublished hp)

theorem EndingsKept.refl (db : Db) : EndingsKept db db := fun o ho _ => ⟨o, ho, .refl o⟩

theorem EndingsKept.trans {db₁ db₂ db₃ : Db} (h : EndingsKept db₁ db₂) (h' : EndingsKept db₂ db₃) :
    EndingsKept db₁ db₃ := by
  intro o ho hend
  obtain ⟨p, hp, hop⟩ := h o ho hend
  obtain ⟨q, hq, hpq⟩ := h' p hp (by rw [hop.operationState]; exact hend)
  exact ⟨q, hq, hop.trans hpq⟩

theorem keptRow_of_moves {o o' : SettlementOperationRow} (h : Moves db o o') (hshape : Shaped db o)
    (hend : isTerminalOperation o.operationState = true) (hf : o'.failureCode = o.failureCode) :
    KeptRow o o' :=
  ⟨h.operationId, h.idempotencyKey, h.operationState hend, h.settlementBatchId hshape hend, hf,
    h.resultPublished⟩

theorem trim_empty : trim "" = "" := by decide

theorem nullIfEmpty_of_trim {s : String} (h : trim s ≠ "") : nullIfEmpty s = some s := by
  unfold nullIfEmpty
  rw [if_neg]
  rintro rfl
  exact h trim_empty

theorem findOperation_of_mem (hids : DistinctIds db)
    (ho : o ∈ db.settlementOperation.rows) : findOperation db o.operationId = some o := by
  cases hf : findOperation db o.operationId with
  | none => exact absurd (decide_eq_true rfl) (List.find?_eq_none.1 hf o ho)
  | some q =>
    obtain ⟨hq, hid⟩ := findOperation_eq_some hf
    rw [hids q hq o ho hid]

theorem updateSettlementOperation_of_mem {batchId : Option Uuid} (hids : DistinctIds db)
    (ho : o ∈ db.settlementOperation.rows) (hid : Uuid.parse r.operationId = some o.operationId)
    (hbatch : parseBatchId r.settlementBatchId = .ok batchId) :
    updateSettlementOperation r db = updateRow r batchId o db := by
  unfold updateSettlementOperation
  rw [hid, hbatch]
  dsimp only
  rw [findOperation_of_mem hids ho]

theorem updated_failure {status : SettlementOperationStatus}
    (h : (updateSettlementOperation r db).1 = .ok status) (hstate : r.state = .failed) :
    trim r.failureCode ≠ "" := by
  unfold updateSettlementOperation at h
  cases hid : Uuid.parse r.operationId with
  | none => rw [hid] at h; cases h
  | some id =>
    cases hbatch : parseBatchId r.settlementBatchId with
    | error e => rw [hid, hbatch] at h; cases h
    | ok batchId =>
      cases hfind : findOperation db id with
      | none =>
        rw [hid, hbatch] at h
        dsimp only at h
        rw [hfind] at h
        cases h
      | some o =>
        rw [hid, hbatch] at h
        dsimp only at h
        rw [hfind] at h
        dsimp only [updateRow] at h
        cases hcheck : checkUpdate r batchId o db with
        | error e => rw [hcheck] at h; cases h
        | ok _ =>
          obtain ⟨_, _, hcheck⟩ := except_bind_eq_ok.1 hcheck
          obtain ⟨_, _, hcheck⟩ := except_bind_eq_ok.1 hcheck
          obtain ⟨_, hfailure, _⟩ := except_bind_eq_ok.1 hcheck
          exact check_eq_ok.1 hfailure hstate

theorem updateRow_of_failed
    (hstate : o.operationState = .failed) (hr : r.state = .failed) (hcode : trim r.failureCode ≠ "") :
    (updateRow r none o db).2.settlementOperation =
      db.settlementOperation.modify o.idempotencyKey (updatedOperation r none) := by
  have hcheck : checkUpdate r none o db = .ok () := by
    refine except_bind_eq_ok.2 ⟨(), check_eq_ok.2 ?_, except_bind_eq_ok.2 ⟨(), check_eq_ok.2 ?_,
      except_bind_eq_ok.2 ⟨(), check_eq_ok.2 fun _ => hcode, check_eq_ok.2 ?_⟩⟩⟩
    · rw [hstate, hr]
      rfl
    · intro hs
      rw [hr] at hs
      cases hs
    · intro id hid
      cases hid
  unfold updateRow
  rw [hcheck]

/-- An update that a party makes keeps every ending, unless it gives a failed operation another
failure code. -/
theorem update_endingsKept_iff {work : Work}
    (hids : DistinctIds db) (hrows : ∀ o ∈ db.settlementOperation.rows, Shaped db o)
    (h : Made db work r) :
    EndingsKept db (updateSettlementOperation r db).2 ↔ ¬ Overwrites db r := by
  constructor
  · rintro hkept ⟨o, ho, hid, hstate, hr, hcode, hne⟩
    have hbatch : r.settlementBatchId = "" := by
      cases h.asked with
      | processing _ batch _ _ => exact batch
      | failed _ batch => exact batch
      | succeeded _ state _ _ _ =>
        rw [hr] at state
        cases state
    have hparsed : parseBatchId r.settlementBatchId = .ok none := by
      rw [hbatch]
      decide
    obtain ⟨o', ho', hrow⟩ := hkept o ho (by rw [hstate]; rfl)
    rw [updateSettlementOperation_of_mem hids ho hid hparsed, updateRow_of_failed hstate hr hcode]
      at ho'
    obtain ⟨q, hq, rfl⟩ := (Table.mem_modify _ _ (updatedOperation r none) (fun _ => rfl) o').1 ho'
    have hkey : q.idempotencyKey = o.idempotencyKey := by
      have := hrow.idempotencyKey
      split_ifs at this <;> exact this
    obtain rfl := Table.mem_unique hq ho hkey
    have hself : Keyed.key q = q.idempotencyKey := rfl
    have hfailure := hrow.failureCode
    rw [if_pos hself] at hfailure
    dsimp only [updatedOperation] at hfailure
    rw [nullIfEmpty_of_trim hcode] at hfailure
    exact hne hfailure.symm
  · intro hnot
    have hev := h.evolution hids
    rcases updateSettlementOperation_cases r db with ⟨e, he⟩ | ⟨batchId, o, hfound, he⟩
    · rw [he]
      exact .refl db
    · have hok : (updateSettlementOperation r db).1 =
          .ok (operationStatus (updatedOperation r batchId o)) := by rw [he]
      have hcode := updated_failure hok
      intro q hq hend
      rw [he]
      by_cases hk : q.idempotencyKey = o.idempotencyKey
      · obtain rfl := updated_unique hfound hq hk
        have hasked := h.asked
        rw [← (updated_refers hids h.refers h.operationId hfound).2] at hasked
        have hsame := transition_of_terminal hfound.transition hend
        refine ⟨_, (Table.mem_modify _ _ (updatedOperation r batchId) (fun _ => rfl) _).2
          ⟨q, hq, rfl⟩, ?_⟩
        have hself : Keyed.key q = q.idempotencyKey := rfl
        rw [if_pos hself]
        refine keptRow_of_moves (.updated r batchId hfound.batchId hfound.transition hasked)
          (hrows q hq) hend ?_
        dsimp only [updatedOperation]
        cases hasked with
        | processing state _ _ _ =>
          rw [state] at hsame
          rw [← hsame] at hend
          cases hend
        | failed state _ =>
          have hne := hcode state
          rw [nullIfEmpty_of_trim hne]
          by_contra hdiffers
          exact hnot ⟨q, hq, hfound.operationId, hsame.symm.trans state, state, hne,
            fun hc => hdiffers hc.symm⟩
        | succeeded _ state _ failure _ =>
          rw [failure]
          cases hrows q hq with
          | pending hstate _ _ _ =>
            rcases hstate with hs | hs <;> rw [hs] at hend <;> cases hend
          | failed hstate _ =>
            rw [← hsame, state] at hstate
            cases hstate
          | succeeded _ _ _ hnone _ =>
            rw [hnone]
            rfl
      · refine ⟨q, (Table.mem_modify _ _ (updatedOperation r batchId) (fun _ => rfl) _).2
          ⟨q, hq, ?_⟩, .refl q⟩
        have hother : Keyed.key q ≠ o.idempotencyKey := hk
        rw [if_neg hother]

theorem execute_endingsKept (ext : External) (env : ExecEnv) (now : DateTime)
    (request : ExecuteSettlementBatchRequest)
    (hrows : ∀ o ∈ db.settlementOperation.rows, Shaped db o) :
    EndingsKept db (executeSettlementBatch ext env now request db).2 := by
  have hev : Evolution db (executeSettlementBatch ext env now request db).2 :=
    evolution_of_execute ext env now request
  rcases executeSettlementBatch_cases ext env now request db with
    ⟨hoperations, _, _⟩ | ⟨id, heffect, _⟩
  · intro o ho _
    exact ⟨o, hoperations ▸ ho, .refl o⟩
  · intro o ho hend
    have hmoves : Moves (executeSettlementBatch ext env now request db).2 o
        (if Keyed.key o = trim request.idempotencyKey then succeedOperation id o else o) := by
      split_ifs with hk
      · refine .succeeded id ?_
        rw [show o.idempotencyKey = trim request.idempotencyKey from hk, trim_trim]
        exact heffect.completed
      · exact .kept
    refine ⟨_, ?_, keptRow_of_moves hmoves ((hrows o ho).mono hev.records) hend ?_⟩
    · rw [heffect.operations]
      exact (Table.mem_modify _ _ _ (succeedOperation_key id) _).2 ⟨o, ho, rfl⟩
    · split_ifs
      · unfold succeedOperation
        split_ifs <;> rfl
      · rfl

theorem queue_endingsKept (now : DateTime) (id : Uuid) (request : QueueSettlementOperationRequest) :
    EndingsKept db (queueSettlementOperation now id request db).2 := by
  rcases queueSettlementOperation_cases now id request db with
    ⟨e, h⟩ | ⟨o, _, _, h⟩ | ⟨operations, hinsert, _, h⟩ <;> rw [h]
  · exact .refl db
  · exact .refl db
  · intro o ho _
    exact ⟨o, (Table.mem_insert hinsert).2 (.inl ho), .refl o⟩

end Updates

section Steps

variable {ext : External}

def arrives : Transport → Bool
  | .requestLost _ => false
  | _ => true

/-- The update that an action makes, if it makes one and its request arrives. -/
def updateMade (a : Action) (w : World) : Option UpdateSettlementOperationRequest :=
  match a with
  | .publisher i event =>
    if arrives event.transport then w.publishers[i]?.bind publisherUpdate else none
  | .worker i event => if arrives event.transport then w.workers[i]?.bind workerUpdate else none
  | _ => none

theorem carry_arrives {α : Type} {t : Transport} {db : Db} {call : Except Status α × Db} :
    (t.carry db call).2 = if arrives t then call.2 else db := by
  cases t <;> rfl

/-- No update of the action gives a failed operation another failure code. -/
def Repeats (a : Action) (w : World) : Prop := ∀ r ∈ updateMade a w, ¬ Overwrites w.db r

instance (a : Action) (w : World) : Decidable (Repeats a w) :=
  inferInstanceAs (Decidable (∀ r ∈ updateMade a w, ¬ Overwrites w.db r))

theorem repeats_iff {db' : Db} {w : World} {t : Transport} {work : Work}
    {found : Option UpdateSettlementOperationRequest} (hw : Tracked w)
    (hmade : ∀ r, found = some r → Made w.db work r)
    (hupdate : ∀ r, found = some r → db' = (t.carry w.db (updateSettlementOperation r w.db)).2)
    (hnone : found = none → EndingsKept w.db db') :
    EndingsKept w.db db' ↔
      ∀ r ∈ (if arrives t then found else none), ¬ Overwrites w.db r := by
  cases found with
  | none =>
    simp only [ite_self, Option.mem_def, reduceCtorEq, false_implies, implies_true, iff_true]
    exact hnone rfl
  | some r =>
    rw [hupdate r rfl, carry_arrives]
    split_ifs
    · simp only [Option.mem_def, Option.some.injEq, forall_eq']
      exact update_endingsKept_iff hw.ids hw.rows (hmade r rfl)
    · simp only [Option.mem_def, reduceCtorEq, false_implies, implies_true, iff_true]
      exact .refl w.db

theorem repeats_of_none {a : Action} {w : World} (h : updateMade a w = none) : Repeats a w := by
  intro r hr
  rw [h] at hr
  cases hr

theorem publisher_endingsKept (event : Event) {p : Publisher} {db : Db}
    (hnone : publisherUpdate p = none) : EndingsKept db (publisherStep event p db).2.1 := by
  unfold publisherUpdate at hnone
  unfold publisherStep
  cases hphase : p.phase with
  | queueing =>
    dsimp only
    rw [carry_arrives]
    split_ifs
    · exact queue_endingsKept _ _ _
    · exact .refl db
  | failing e =>
    rw [hphase] at hnone
    cases hnone
  | publishing => exact .refl db
  | returned r => exact .refl db
  | crashed => exact .refl db

theorem worker_endingsKept (event : Event) {x : Worker} {db : Db}
    (hrows : ∀ o ∈ db.settlementOperation.rows, Shaped db o) (hnone : workerUpdate x = none) :
    EndingsKept db (workerStep ext event x db).2.1 := by
  unfold workerUpdate at hnone
  unfold workerStep
  cases hphase : x.phase with
  | loading =>
    dsimp only
    split_ifs
    · exact .refl db
    · rw [carry_arrives, ite_self]
      exact .refl db
  | executing =>
    dsimp only [executeWork]
    cases toProtoRequest ext event.now x.work with
    | error e => exact .refl db
    | ok request =>
      dsimp only
      rw [carry_arrives]
      split_ifs
      · exact execute_endingsKept ext _ _ request hrows
      · exact .refl db
  | publishing operation => exact .refl db
  | returned e => exact .refl db
  | crashed => exact .refl db
  | marking => rw [hphase] at hnone; cases hnone
  | failing status => rw [hphase] at hnone; cases hnone
  | succeeding settlementBatchId => rw [hphase] at hnone; cases hnone
  | confirming operation => rw [hphase] at hnone; cases hnone

/-- A step keeps the endings of operations exactly when its update, if it makes one, repeats them. -/
theorem perform_endingsKept_iff {w : World} (hw : Tracked w) (a : Action) :
    EndingsKept w.db (perform ext a w).db ↔ Repeats a w := by
  cases a with
  | submit work => exact iff_of_true (.refl w.db) (repeats_of_none rfl)
  | deliver message =>
    refine iff_of_true ?_ (repeats_of_none rfl)
    cases hm : w.topic[message]? with
    | none => simpa only [perform, hm] using EndingsKept.refl w.db
    | some work => simpa only [perform, hm] using EndingsKept.refl w.db
  | publisher i event =>
    cases hp : w.publishers[i]? with
    | none =>
      simp only [Repeats, updateMade, perform, hp, Option.bind_none, ite_self]
      exact iff_of_true (.refl w.db) (by simp)
    | some p =>
      have hok := hw.publishers p (List.mem_of_getElem? hp)
      simp only [Repeats, updateMade, perform, hp, Option.bind_some]
      refine repeats_iff hw (fun r => publisherUpdate_made hok) ?_ fun hnone =>
        publisher_endingsKept event hnone
      intro r hr
      unfold publisherUpdate at hr
      unfold publisherStep
      cases hphase : p.phase <;> rw [hphase] at hr <;> cases hr
      rfl
  | worker i event =>
    cases hx : w.workers[i]? with
    | none =>
      simp only [Repeats, updateMade, perform, hx, Option.bind_none, ite_self]
      exact iff_of_true (.refl w.db) (by simp)
    | some x =>
      have hok := hw.workers x (List.mem_of_getElem? hx)
      simp only [Repeats, updateMade, perform, hx, Option.bind_some]
      refine repeats_iff hw (fun r => workerUpdate_made hok) ?_ fun hnone =>
        worker_endingsKept event hw.rows hnone
      intro r hr
      unfold workerUpdate at hr
      unfold workerStep
      cases hphase : x.phase <;> rw [hphase] at hr <;> cases hr <;> rfl
  | crashPublisher i =>
    refine iff_of_true ?_ (repeats_of_none rfl)
    cases hp : w.publishers[i]? with
    | none => simpa only [perform, hp] using EndingsKept.refl w.db
    | some p => simpa only [perform, hp] using EndingsKept.refl w.db
  | crashWorker i =>
    refine iff_of_true ?_ (repeats_of_none rfl)
    cases hx : w.workers[i]? with
    | none => simpa only [perform, hx] using EndingsKept.refl w.db
    | some x => simpa only [perform, hx] using EndingsKept.refl w.db

end Steps

section Results

variable {ext : External} {db db' : Db}
variable {x : Worker}

def EndedWith (db : Db) (operationId settlementBatchId failureCode : String) : Prop :=
  ∃ o ∈ db.settlementOperation.rows, o.operationId.text = operationId ∧
    isTerminalOperation o.operationState = true ∧
    (operationStatus o).settlementBatchId = settlementBatchId ∧
    (operationStatus o).failureCode = failureCode

theorem EndedWith.kept {operationId settlementBatchId failureCode : String}
    (h : EndedWith db operationId settlementBatchId failureCode) (hkept : EndingsKept db db') :
    EndedWith db' operationId settlementBatchId failureCode := by
  obtain ⟨o, ho, hid, hend, hbatch, hcode⟩ := h
  obtain ⟨o', ho', hrow⟩ := hkept o ho hend
  refine ⟨o', ho', by rw [hrow.operationId, hid], by rw [hrow.operationState, hend], ?_, ?_⟩
  · dsimp only [operationStatus] at hbatch ⊢
    rw [hrow.settlementBatchId, hbatch]
  · dsimp only [operationStatus] at hcode ⊢
    rw [hrow.failureCode, hcode]

def Reported (db : Db) (x : Worker) : Prop :=
  match x.phase with
  | .publishing operation =>
    EndedWith db x.work.operationId operation.settlementBatchId operation.failureCode
  | _ => True

structure Consistent (w : World) : Prop where
  results : ∀ result ∈ w.results,
    EndedWith w.db result.operationId result.settlementBatchId result.failureCode
  workers : ∀ x ∈ w.workers, Reported w.db x

theorem Reported.kept (h : Reported db x) (hkept : EndingsKept db db') :
    Reported db' x := by
  unfold Reported at h ⊢
  cases hp : x.phase <;> rw [hp] at h <;> try trivial
  exact h.kept hkept

theorem endedWith_of_status {work : Work} {operation : SettlementOperationStatus}
    (hrefers : Refers db work) (hend : isTerminalOperation operation.state = true)
    (h : ∀ o ∈ db.settlementOperation.rows, o.operationId.text = work.operationId →
      operation = operationStatus o) :
    EndedWith db work.operationId operation.settlementBatchId operation.failureCode := by
  obtain ⟨o, ho, hid, _⟩ := hrefers
  have hsame := h o ho hid
  rw [hsame] at hend ⊢
  exact ⟨o, ho, hid, hend, rfl, rfl⟩

theorem worker_reported (event : Event) (hids : DistinctIds db) (h : Tracks db x) :
    Reported (workerStep ext event x db).2.1 ⟨x.work, (workerStep ext event x db).1⟩ := by
  have hev := worker_evolution ext event hids h
  have hprogress := workerStep_progress ext event x db
  generalize (workerStep ext event x db).1 = phase at *
  generalize (workerStep ext event x db).2.1 = db' at *
  generalize (workerStep ext event x db).2.2 = results at *
  cases hprogress <;> try trivial
  case resumed operation _ loaded ended =>
    exact endedWith_of_status h.1 ended (loaded_status hids loaded)
  case recorded r operation hr ended updated =>
    obtain ⟨hstate, hrow⟩ := (workerUpdate_made h hr).answered hids updated
    exact endedWith_of_status (hev.refers h.1) (hstate ▸ ended) hrow

theorem worker_results (event : Event) (h : Reported db x) :
    ∀ result ∈ (workerStep ext event x db).2.2,
      EndedWith db result.operationId result.settlementBatchId result.failureCode := by
  intro result hresult
  have hprogress := workerStep_progress ext event x db
  generalize (workerStep ext event x db).1 = phase at *
  generalize (workerStep ext event x db).2.1 = db' at *
  generalize (workerStep ext event x db).2.2 = results at *
  unfold Reported at h
  cases hprogress <;> try cases hresult
  case unsent e operation phase _ =>
    rw [phase] at h
    split_ifs at hresult
    · rw [List.mem_singleton.1 hresult]
      exact h
    · cases hresult
  case sent message operation phase _ =>
    rw [phase] at h
    split_ifs at hresult
    · rw [List.mem_singleton.1 hresult]
      exact h
    · cases hresult

theorem Consistent.of_step {w w' : World} (h : Consistent w) (hw : Tracked w) (hs : Step ext w w')
    (hkept : EndingsKept w.db w'.db) : Consistent w' := by
  have hresults : ∀ result ∈ w.results,
      EndedWith w'.db result.operationId result.settlementBatchId result.failureCode :=
    fun result hr => (h.results result hr).kept hkept
  have hworkers : ∀ x ∈ w.workers, Reported w'.db x := fun x hx => (h.workers x hx).kept hkept
  cases hs with
  | idle => exact h
  | submitted work => exact ⟨hresults, hworkers⟩
  | delivered work sent =>
    refine ⟨hresults, fun x hx => ?_⟩
    rcases List.mem_append.1 hx with hx | hx
    · exact hworkers x hx
    · rw [List.mem_singleton.1 hx]
      trivial
  | published i event p mem => exact ⟨hresults, hworkers⟩
  | worked i event x mem =>
    refine ⟨fun result hr => ?_, fun y hy => ?_⟩
    · rcases List.mem_append.1 hr with hold | hnew
      · exact hresults result hold
      · exact (worker_results event (h.workers x mem) result hnew).kept hkept
    · rcases List.mem_or_eq_of_mem_set hy with hold | rfl
      · exact hworkers y hold
      · exact worker_reported event hw.ids (hw.workers x mem)
  | publisherCrashed i p mem => exact ⟨hresults, hworkers⟩
  | workerCrashed i x mem =>
    refine ⟨hresults, fun y hy => ?_⟩
    rcases List.mem_or_eq_of_mem_set hy with hold | rfl
    · exact hworkers y hold
    · trivial

theorem uuid_text_ne_empty (u : Uuid) : u.text ≠ "" := by
  intro h
  have := trim_uuid_text u
  rw [h] at this
  exact this trim_empty

theorem handleSettlementResult_of_endedWith {result : SettlementResult} (hids : DistinctIds db)
    (h : EndedWith db result.operationId result.settlementBatchId result.failureCode) :
    handleSettlementResult result db = .ok () := by
  obtain ⟨o, ho, hid, hend, hbatch, hcode⟩ := h
  have hget : getSettlementOperation result.operationId db = .ok (operationStatus o) := by
    unfold getSettlementOperation
    rw [← hid, Uuid.parse_text]
    dsimp only
    rw [findOperation_of_mem hids ho]
  unfold handleSettlementResult
  rw [if_neg (by rw [← hid]; exact uuid_text_ne_empty _), hget]
  dsimp only [validateSettlementResult]
  rw [if_neg, if_neg]
  · rw [hbatch, hcode]
    simp
  · have hstate : (operationStatus o).state = o.operationState := rfl
    rw [hstate]
    cases hs : o.operationState <;> rw [hs] at hend <;> revert hend <;> decide

end Results

section Runs

variable {ext : External}
variable {w : World}

/-- Every step of the run repeats the endings it finds. -/
def RepeatsThroughout (ext : External) : List Action → World → Prop
  | [], _ => True
  | a :: as, w => Repeats a w ∧ RepeatsThroughout ext as (perform ext a w)

instance decidableRepeatsThroughout (ext : External) :
    ∀ (as : List Action) (w : World), Decidable (RepeatsThroughout ext as w)
  | [], _ => isTrue trivial
  | _ :: as, _ =>
    haveI := decidableRepeatsThroughout ext as
    inferInstanceAs (Decidable (_ ∧ _))

theorem run_append (as bs : List Action) (w : World) :
    run ext (as ++ bs) w = run ext bs (run ext as w) := by
  induction as generalizing w with
  | nil => rfl
  | cons a as ih => exact ih (perform ext a w)

theorem RepeatsThroughout.of_append {as bs : List Action}
    (h : RepeatsThroughout ext (as ++ bs) w) :
    RepeatsThroughout ext as w ∧ RepeatsThroughout ext bs (run ext as w) := by
  induction as generalizing w with
  | nil => exact ⟨trivial, h⟩
  | cons a as ih => exact ⟨⟨h.1, (ih h.2).1⟩, (ih h.2).2⟩

theorem run_endingsKept {as : List Action} (hw : Tracked w)
    (h : RepeatsThroughout ext as w) : EndingsKept w.db (run ext as w).db := by
  induction as generalizing w with
  | nil => exact .refl w.db
  | cons a as ih =>
    exact ((perform_endingsKept_iff hw a).2 h.1).trans
      (ih (hw.of_step (perform_step ext a w)) h.2)

theorem run_consistent {as : List Action} (hw : Tracked w) (hc : Consistent w)
    (h : RepeatsThroughout ext as w) : Consistent (run ext as w) := by
  induction as generalizing w with
  | nil => exact hc
  | cons a as ih =>
    exact ih (hw.of_step (perform_step ext a w))
      (hc.of_step hw (perform_step ext a w) ((perform_endingsKept_iff hw a).2 h.1)) h.2

/-- Whatever the parties do, an operation that has ended keeps its state, its batch and that its
result is published. -/
theorem run_outcomes_kept (as : List Action) (hw : Tracked w)
    {o : SettlementOperationRow} (ho : o ∈ w.db.settlementOperation.rows)
    (hend : isTerminalOperation o.operationState = true) :
    ∃ o' ∈ (run ext as w).db.settlementOperation.rows, o'.operationId = o.operationId ∧
      o'.operationState = o.operationState ∧ o'.settlementBatchId = o.settlementBatchId ∧
      (o.resultPublished = true → o'.resultPublished = true) := by
  induction as generalizing w o with
  | nil => exact ⟨o, ho, rfl, rfl, rfl, id⟩
  | cons a as ih =>
    have hstep := perform_step ext a w
    have hev := Step.evolution hstep hw
    obtain ⟨p, hp, hm⟩ := hev.forward o ho
    have hstate := hm.operationState hend
    obtain ⟨o', ho', hid, hs, hb, hr⟩ := ih (hw.of_step hstep) hp (by rw [hstate]; exact hend)
    exact ⟨o', ho', hid.trans hm.operationId, hs.trans hstate,
      hb.trans (hm.settlementBatchId ((hw.rows o ho).mono hev.records) hend),
      fun h => hr (hm.resultPublished h)⟩

/-- In every state that publishers, workers and the settlement service can reach, a step keeps the
endings of all operations exactly when it gives no failed operation another failure code. Along a
run of such steps every ending is kept, and every published result is still that of its operation.
Along any run the state, the batch and the publication of what has ended are kept. -/
theorem endings_kept_iff (ext : External) (db : Db) (actions : List Action) :
    (∀ a, EndingsKept (run ext actions (initial db)).db
        (perform ext a (run ext actions (initial db))).db ↔
      Repeats a (run ext actions (initial db))) ∧
    (RepeatsThroughout ext actions (initial db) →
      (∀ before after, actions = before ++ after →
        EndingsKept (run ext before (initial db)).db (run ext actions (initial db)).db) ∧
      ∀ result ∈ (run ext actions (initial db)).results,
        handleSettlementResult result (run ext actions (initial db)).db = .ok ()) ∧
    ∀ before after, actions = before ++ after →
      ∀ o ∈ (run ext before (initial db)).db.settlementOperation.rows,
        isTerminalOperation o.operationState = true →
        ∃ o' ∈ (run ext actions (initial db)).db.settlementOperation.rows,
          o'.operationId = o.operationId ∧ o'.operationState = o.operationState ∧
          o'.settlementBatchId = o.settlementBatchId ∧
          (o.resultPublished = true → o'.resultPublished = true) := by
  have hstart : Tracked (initial db) := .initial db
  have htracked : Tracked (run ext actions (initial db)) := run_tracked actions hstart
  refine ⟨fun a => perform_endingsKept_iff htracked a, fun h => ⟨?_, ?_⟩, ?_⟩
  · rintro before after rfl
    rw [run_append]
    exact run_endingsKept (run_tracked before hstart) h.of_append.2
  · intro result hresult
    have hconsistent : Consistent (run ext actions (initial db)) :=
      run_consistent hstart ⟨fun _ h => absurd h List.not_mem_nil,
        fun _ h => absurd h List.not_mem_nil⟩ h
    exact handleSettlementResult_of_endedWith htracked.ids (hconsistent.results result hresult)
  · rintro before after rfl o ho hend
    rw [run_append]
    exact run_outcomes_kept after (run_tracked before hstart) ho hend

end Runs

section Seeded

theorem endings_kept_settledOnce :
    RepeatsThroughout transparent settledOnce (initial (localDevWorld transparent)) ∧
    ∀ result ∈ (run transparent settledOnce (initial (localDevWorld transparent))).results,
      handleSettlementResult result
        (run transparent settledOnce (initial (localDevWorld transparent))).db = .ok () :=
  have h : RepeatsThroughout transparent settledOnce (initial (localDevWorld transparent)) := by
    decide +kernel
  ⟨h, ((endings_kept_iff transparent (localDevWorld transparent) settledOnce).2.1 h).2⟩

/-- An issue of more than the source stack holds. -/
def excessiveWork : Work :=
  { issueWork with
    operations := [
      .createNewTradeInstanceRow ⟨(Uuid.ofNat 100).text, "SELL", "OPEN", sellerId, 34, 60003760,
        200, 25, none⟩,
      .transferQuantityFromItemStackToItemStackEscrow ⟨sourceStackId.text, (Uuid.ofNat 101).text,
        (Uuid.ofNat 100).text, 200⟩] }

/-- The work is published, delivered, refused by settlement, and its result published. -/
def refusedOnce : List Action := [.submit excessiveWork] ++
  List.replicate 2 (.publisher 0 quietEvent) ++ [.deliver 0] ++
  List.replicate 6 (.worker 0 quietEvent)

/-- The request is sent again, and this time its publication fails. -/
def sentAgain : List Action := [
  .submit excessiveWork,
  .publisher 1 quietEvent,
  .publisher 1 { quietEvent with publication := .error "connection reset", reaches := false },
  .publisher 1 quietEvent]

def refusedWorld : World := run transparent refusedOnce (initial (localDevWorld transparent))

def sentAgainWorld : World := run transparent sentAgain refusedWorld

/-- The operation has failed otherwise than by the failed publication, and its published result was
accepted; after the failed publication it no longer is. -/
theorem sentAgain_overwrites :
    ¬ EndingsKept refusedWorld.db sentAgainWorld.db ∧
    ∃ result ∈ sentAgainWorld.results,
      handleSettlementResult result refusedWorld.db = .ok () ∧
      handleSettlementResult result sentAgainWorld.db ≠ .ok () := by
  have hrow : ∃ o ∈ refusedWorld.db.settlementOperation.rows,
      isTerminalOperation o.operationState = true ∧
      ∀ o' ∈ sentAgainWorld.db.settlementOperation.rows, o'.failureCode ≠ o.failureCode := by
    decide +kernel
  have hresult : ∃ result ∈ sentAgainWorld.results,
      handleSettlementResult result refusedWorld.db = .ok () ∧
      handleSettlementResult result sentAgainWorld.db ≠ .ok () := by
    decide +kernel
  refine ⟨fun hkept => ?_, hresult⟩
  obtain ⟨o, ho, hend, hother⟩ := hrow
  obtain ⟨o', ho', hkept⟩ := hkept o ho hend
  exact hother o' ho' hkept.failureCode

end Seeded

end EveTrade.SettlementEndings
