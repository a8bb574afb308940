import EveTrade.SettlementEndings

set_option autoImplicit false

/-!
# What an acknowledgement means

A worker acknowledges its message only when the operation has ended and a result of it has been
published, with values that the operation had before. The argument looks back along the run: `Was`
says what an operation was at an earlier moment, `Announced` that its result was published then.
-/
namespace EveTrade.SettlementAcknowledgement

open KeyedTable FieldText UuidText SettlementTypes SettlementSchema SettlementExecutor
  SettlementWork SettlementService SettlementDelivery SettlementOperationChanges SettlementAgreement
  SettlementLifecycle SettlementEndings LocalDevWorld

section Publications

variable {ext : External} {db : Db}
variable {o : SettlementOperationRow}

def PublishedBefore (db : Db) (o : SettlementOperationRow) : Prop :=
  ∃ q ∈ db.settlementOperation.rows, q.operationId = o.operationId ∧ q.resultPublished = true

theorem PublishedBefore.of_mem
    (ho : o ∈ db.settlementOperation.rows) (hp : o.resultPublished = true) :
    PublishedBefore db o := ⟨o, ho, rfl, hp⟩

theorem queue_published (now : DateTime) (id : Uuid) (request : QueueSettlementOperationRequest)
    (ho : o ∈ (queueSettlementOperation now id request db).2.settlementOperation.rows)
    (hp : o.resultPublished = true) : PublishedBefore db o := by
  rcases queueSettlementOperation_cases now id request db with
    ⟨e, h⟩ | ⟨q, _, _, h⟩ | ⟨operations, hinsert, _, h⟩ <;> rw [h] at ho
  · exact .of_mem ho hp
  · exact .of_mem ho hp
  · rcases (Table.mem_insert hinsert).1 ho with hold | rfl
    · exact .of_mem hold hp
    · cases hp

theorem execute_published (env : ExecEnv) (now : DateTime) (request : ExecuteSettlementBatchRequest)
    (ho : o ∈ (executeSettlementBatch ext env now request db).2.settlementOperation.rows)
    (hp : o.resultPublished = true) : PublishedBefore db o := by
  rcases executeSettlementBatch_cases ext env now request db with
    ⟨hoperations, _, _⟩ | ⟨id, heffect, _⟩
  · rw [hoperations] at ho
    exact .of_mem ho hp
  · rw [heffect.operations] at ho
    obtain ⟨q, hq, rfl⟩ := (Table.mem_modify _ _ _ (succeedOperation_key id) o).1 ho
    refine ⟨q, hq, ?_, ?_⟩
    · split_ifs
      · exact (succeedOperation_move id q).operationId.symm
      · rfl
    · unfold succeedOperation at hp
      split_ifs at hp <;> exact hp

theorem update_published {r : UpdateSettlementOperationRequest}
    (ho : o ∈ (updateSettlementOperation r db).2.settlementOperation.rows)
    (hp : o.resultPublished = true) :
    PublishedBefore db o ∨
      r.resultPublished = true ∧ Uuid.parse r.operationId = some o.operationId := by
  rcases updateSettlementOperation_cases r db with ⟨e, h⟩ | ⟨batchId, q, hfound, h⟩ <;> rw [h] at ho
  · exact .inl (.of_mem ho hp)
  · obtain ⟨p, hmem, rfl⟩ := (Table.mem_modify _ _ (updatedOperation r batchId) (fun _ => rfl) o).1 ho
    by_cases hk : Keyed.key p = q.idempotencyKey
    · obtain rfl := updated_unique hfound hmem hk
      rw [if_pos hk] at hp ⊢
      dsimp only [updatedOperation] at hp
      rcases Bool.or_eq_true_iff.1 hp with hold | hnew
      · exact .inl ⟨p, hmem, rfl, hold⟩
      · exact .inr ⟨hnew, hfound.operationId⟩
    · rw [if_neg hk] at hp ⊢
      exact .inl (.of_mem hmem hp)

theorem publisher_published (event : Event) {p : Publisher}
    (ho : o ∈ (publisherStep event p db).2.1.settlementOperation.rows)
    (hp : o.resultPublished = true) : PublishedBefore db o := by
  unfold publisherStep at ho
  cases hphase : p.phase with
  | queueing =>
    rw [hphase] at ho
    dsimp only at ho
    rw [carry_arrives] at ho
    split_ifs at ho
    · exact queue_published _ _ _ ho hp
    · exact .of_mem ho hp
  | failing e =>
    rw [hphase] at ho
    dsimp only at ho
    rw [carry_arrives] at ho
    split_ifs at ho
    · rcases update_published ho hp with hold | ⟨hnew, _⟩
      · exact hold
      · cases hnew
    · exact .of_mem ho hp
  | publishing =>
    rw [hphase] at ho
    exact .of_mem ho hp
  | returned r =>
    rw [hphase] at ho
    exact .of_mem ho hp
  | crashed =>
    rw [hphase] at ho
    exact .of_mem ho hp

theorem workerUpdate_published {x : Worker} {r : UpdateSettlementOperationRequest}
    (hr : workerUpdate x = some r) (hp : r.resultPublished = true) :
    ∃ operation, x.phase = .confirming operation := by
  unfold workerUpdate at hr
  cases hphase : x.phase with
  | confirming operation => exact ⟨operation, rfl⟩
  | marking => rw [hphase] at hr; obtain rfl := Option.some.inj hr; cases hp
  | failing status => rw [hphase] at hr; obtain rfl := Option.some.inj hr; cases hp
  | succeeding id => rw [hphase] at hr; obtain rfl := Option.some.inj hr; cases hp
  | loading => rw [hphase] at hr; cases hr
  | executing => rw [hphase] at hr; cases hr
  | publishing operation => rw [hphase] at hr; cases hr
  | returned e => rw [hphase] at hr; cases hr
  | crashed => rw [hphase] at hr; cases hr

theorem worker_published (event : Event) {x : Worker} (h : Tracks db x)
    (ho : o ∈ (workerStep ext event x db).2.1.settlementOperation.rows)
    (hp : o.resultPublished = true) :
    PublishedBefore db o ∨
      ∃ operation, x.phase = .confirming operation ∧ o.operationId.text = x.work.operationId := by
  have hupdate : ∀ r, workerUpdate x = some r →
      o ∈ (event.transport.carry db (updateSettlementOperation r db)).2.settlementOperation.rows →
      PublishedBefore db o ∨
        ∃ operation, x.phase = .confirming operation ∧
          o.operationId.text = x.work.operationId := by
    intro r hr hmem
    rw [carry_arrives] at hmem
    split_ifs at hmem
    · rcases update_published hmem hp with hold | ⟨hnew, hparse⟩
      · exact .inl hold
      · obtain ⟨operation, hphase⟩ := workerUpdate_published hr hnew
        obtain ⟨q, _, hqid, _⟩ := h.1
        rw [(workerUpdate_made h hr).operationId, ← hqid, Uuid.parse_text] at hparse
        exact .inr ⟨operation, hphase, by rw [← Option.some.inj hparse, hqid]⟩
    · exact .inl (.of_mem hmem hp)
  unfold workerStep at ho
  unfold workerUpdate at hupdate
  cases hphase : x.phase with
  | loading =>
    rw [hphase] at ho
    dsimp only at ho
    split_ifs at ho
    · exact .inl (.of_mem ho hp)
    · rw [carry_arrives, ite_self] at ho
      exact .inl (.of_mem ho hp)
  | executing =>
    rw [hphase] at ho
    dsimp only [executeWork] at ho
    cases hrequest : toProtoRequest ext event.now x.work with
    | error e =>
      rw [hrequest] at ho
      exact .inl (.of_mem ho hp)
    | ok request =>
      rw [hrequest] at ho
      dsimp only at ho
      rw [carry_arrives] at ho
      split_ifs at ho
      · exact .inl (execute_published _ _ _ ho hp)
      · exact .inl (.of_mem ho hp)
  | marking =>
    rw [hphase] at ho
    exact hphase ▸ hupdate _ (by rw [hphase]) ho
  | failing status =>
    rw [hphase] at ho
    exact hphase ▸ hupdate _ (by rw [hphase]) ho
  | succeeding id =>
    rw [hphase] at ho
    exact hphase ▸ hupdate _ (by rw [hphase]) ho
  | confirming operation =>
    rw [hphase] at ho
    exact hphase ▸ hupdate _ (by rw [hphase]) ho
  | publishing operation =>
    rw [hphase] at ho
    exact .inl (.of_mem ho hp)
  | returned e =>
    rw [hphase] at ho
    exact .inl (.of_mem ho hp)
  | crashed =>
    rw [hphase] at ho
    exact .inl (.of_mem ho hp)

end Publications

section History

variable {ext : External} {db : Db}
variable {actions : List Action}

/-- At some moment of the run the operation had this state, batch and failure code. -/
def Was (ext : External) (db : Db) (actions : List Action) (operationId : String)
    (state : OperationState) (settlementBatchId failureCode : String) : Prop :=
  ∃ earlier, earlier <+: actions ∧
    ∃ o ∈ (run ext earlier (initial db)).db.settlementOperation.rows,
      o.operationId.text = operationId ∧ o.operationState = state ∧
      (operationStatus o).settlementBatchId = settlementBatchId ∧
      (operationStatus o).failureCode = failureCode

/-- At some moment of the run a result of the operation was published, with an end that the operation
had had until then. -/
def Announced (ext : External) (db : Db) (actions : List Action) (operationId : String) : Prop :=
  ∃ before a result, before ++ [a] <+: actions ∧
    (run ext (before ++ [a]) (initial db)).results =
      (run ext before (initial db)).results ++ [result] ∧
    result.operationId = operationId ∧ isTerminalOperation result.batchState = true ∧
    Was ext db before operationId result.batchState result.settlementBatchId result.failureCode

theorem Was.extend {operationId settlementBatchId failureCode : String}
    {state : OperationState} (h : Was ext db actions operationId state settlementBatchId failureCode)
    (a : Action) :
    Was ext db (actions ++ [a]) operationId state settlementBatchId failureCode := by
  obtain ⟨earlier, hpre, h⟩ := h
  exact ⟨earlier, hpre.trans (List.prefix_append actions [a]), h⟩

theorem Announced.extend {operationId : String}
    (h : Announced ext db actions operationId) (a : Action) :
    Announced ext db (actions ++ [a]) operationId := by
  obtain ⟨before, b, result, hpre, h⟩ := h
  exact ⟨before, b, result, hpre.trans (List.prefix_append actions [a]), h⟩

theorem was_of_row {o : SettlementOperationRow}
    (ho : o ∈ (run ext actions (initial db)).db.settlementOperation.rows) :
    Was ext db actions o.operationId.text o.operationState (operationStatus o).settlementBatchId
      (operationStatus o).failureCode :=
  ⟨actions, List.prefix_refl actions, o, ho, rfl, rfl, rfl, rfl⟩

/-- What a worker holds, looking back along the run. -/
def Remembers (ext : External) (db : Db) (actions : List Action) (x : Worker) : Prop :=
  match x.phase with
  | .publishing operation =>
    isTerminalOperation operation.state = true ∧
      Was ext db actions x.work.operationId operation.state operation.settlementBatchId
        operation.failureCode
  | .confirming _ => Announced ext db actions x.work.operationId
  | .returned none =>
    ∃ o ∈ (run ext actions (initial db)).db.settlementOperation.rows,
      o.operationId.text = x.work.operationId ∧ o.resultPublished = true
  | _ => True

structure Remembered (ext : External) (db : Db) (actions : List Action) : Prop where
  workers : ∀ x ∈ (run ext actions (initial db)).workers, Remembers ext db actions x
  rows : ∀ o ∈ (run ext actions (initial db)).db.settlementOperation.rows,
    o.resultPublished = true → Announced ext db actions o.operationId.text

/-- Of the publication of results: what is reported as published has been. -/
def Reliable : Action → Prop
  | .worker _ event => event.publication.toBool = true → event.reaches = true
  | _ => True

instance : DecidablePred Reliable := by
  intro a
  cases a <;> unfold Reliable <;> infer_instance

theorem run_concat (actions : List Action) (a : Action) (w : World) :
    run ext (actions ++ [a]) w = perform ext a (run ext actions w) := run_append actions [a] w

theorem Remembers.extend {a : Action} {x : Worker}
    (h : Remembers ext db actions x) : Remembers ext db (actions ++ [a]) x := by
  have hw : Tracked (run ext actions (initial db)) := run_tracked actions (.initial db)
  unfold Remembers at h ⊢
  cases hp : x.phase with
  | publishing operation =>
    rw [hp] at h
    exact ⟨h.1, h.2.extend a⟩
  | confirming operation =>
    rw [hp] at h
    exact h.extend a
  | returned e =>
    cases e with
    | some e => trivial
    | none =>
      rw [hp] at h
      obtain ⟨o, ho, hid, hpublished⟩ := h
      have hev := Step.evolution (perform_step ext a (run ext actions (initial db))) hw
      obtain ⟨o', ho', hm⟩ := hev.forward o ho
      dsimp only
      rw [run_concat]
      exact ⟨o', ho', by rw [hm.operationId, hid], hm.resultPublished hpublished⟩
  | loading => trivial
  | marking => trivial
  | executing => trivial
  | failing e => trivial
  | succeeding id => trivial
  | crashed => trivial

theorem confirmed_published {work : Work} {r : UpdateSettlementOperationRequest}
    {status : SettlementOperationStatus} (hids : DistinctIds db) (h : Made db work r)
    (hr : r.resultPublished = true) (hok : (updateSettlementOperation r db).1 = .ok status) :
    ∃ o ∈ (updateSettlementOperation r db).2.settlementOperation.rows,
      o.operationId.text = work.operationId ∧ o.resultPublished = true := by
  obtain ⟨o, ho, hid, _⟩ := (h.evolution hids).refers h.refers
  refine ⟨o, ho, hid, ?_⟩
  have hstatus := (h.answered hids hok).2 o ho hid
  rcases updateSettlementOperation_cases r db with ⟨e, he⟩ | ⟨batchId, q, hfound, he⟩
  · rw [he] at hok
    cases hok
  · rw [he] at hok
    have hsame := (Except.ok.inj hok).trans hstatus
    have hpublished : (updatedOperation r batchId q).resultPublished = o.resultPublished :=
      congrArg SettlementOperationStatus.resultPublished hsame
    dsimp only [updatedOperation] at hpublished
    rw [← hpublished, hr, Bool.or_true]

theorem worker_remembers {i : ℕ} {event : Event} {x : Worker}
    (hx : (run ext actions (initial db)).workers[i]? = some x)
    (reliable : event.publication.toBool = true → event.reaches = true)
    (h : Remembers ext db actions x) :
    Remembers ext db (actions ++ [.worker i event])
      ⟨x.work, (workerStep ext event x (run ext actions (initial db)).db).1⟩ := by
  have hw : Tracked (run ext actions (initial db)) := run_tracked actions (.initial db)
  have htracks := hw.workers x (List.mem_of_getElem? hx)
  have hdb : (run ext (actions ++ [.worker i event]) (initial db)).db =
      (workerStep ext event x (run ext actions (initial db)).db).2.1 := by
    rw [run_concat]
    simp only [perform, hx]
  have hresults : (run ext (actions ++ [.worker i event]) (initial db)).results =
      (run ext actions (initial db)).results ++
        (workerStep ext event x (run ext actions (initial db)).db).2.2 := by
    rw [run_concat]
    simp only [perform, hx]
  have hev := worker_evolution ext event hw.ids htracks
  have hprogress := workerStep_progress ext event x (run ext actions (initial db)).db
  generalize (workerStep ext event x (run ext actions (initial db)).db).1 = phase at *
  generalize (workerStep ext event x (run ext actions (initial db)).db).2.1 = db' at *
  generalize (workerStep ext event x (run ext actions (initial db)).db).2.2 = results at *
  cases hprogress <;> try trivial
  case acknowledged operation _ loaded _ published =>
    obtain ⟨o, ho, hid, _⟩ := htracks.1
    have hstatus := loaded_status hw.ids loaded o ho hid
    rw [hstatus] at published
    refine ⟨o, ?_, hid, published⟩
    rw [hdb]
    exact ho
  case resumed operation _ loaded ended =>
    obtain ⟨o, ho, hid, _⟩ := htracks.1
    have hwas := was_of_row ho
    rw [hid] at hwas
    refine ⟨ended, ?_⟩
    rw [loaded_status hw.ids loaded o ho hid]
    exact hwas.extend _
  case recorded r operation hr ended updated =>
    obtain ⟨hstate, hrow⟩ := (workerUpdate_made htracks hr).answered hw.ids updated
    obtain ⟨o, ho, hid, _⟩ := hev.refers htracks.1
    have hwas : Was ext db (actions ++ [.worker i event]) o.operationId.text o.operationState
        (operationStatus o).settlementBatchId (operationStatus o).failureCode :=
      was_of_row (by rw [hdb]; exact ho)
    rw [hid] at hwas
    refine ⟨hstate ▸ ended, ?_⟩
    rw [hrow o ho hid]
    exact hwas
  case sent message operation hphase reported =>
    unfold Remembers at h
    rw [hphase] at h
    have hreaches : event.reaches = true := reliable (by rw [reported]; rfl)
    refine ⟨actions, .worker i event, resultOf x.work operation, List.prefix_refl _, ?_, rfl, h.1,
      h.2⟩
    rw [hresults, if_pos hreaches]
  case confirmed operation status hphase updated =>
    have hmade := workerUpdate_made (r := markPublished x.work.operationId operation) htracks
      (by rw [workerUpdate, hphase])
    obtain ⟨o, ho, hid, hpublished⟩ := confirmed_published hw.ids hmade rfl updated
    refine ⟨o, ?_, hid, hpublished⟩
    rw [hdb]
    exact ho
  case returned e hphase =>
    have hsame : x = ⟨x.work, .returned e⟩ := by
      rw [← hphase]
    rw [← hsame]
    exact h.extend

theorem Remembered.extend {a : Action} (h : Remembered ext db actions)
    (reliable : Reliable a) : Remembered ext db (actions ++ [a]) := by
  have hw : Tracked (run ext actions (initial db)) := run_tracked actions (.initial db)
  have hworkers : ∀ x ∈ (run ext actions (initial db)).workers,
      Remembers ext db (actions ++ [a]) x := fun x hx => (h.workers x hx).extend
  have hrows : ∀ o, PublishedBefore (run ext actions (initial db)).db o →
      Announced ext db (actions ++ [a]) o.operationId.text := by
    rintro o ⟨q, hq, hid, hp⟩
    rw [← hid]
    exact (h.rows q hq hp).extend a
  have hsame : ∀ o ∈ (run ext actions (initial db)).db.settlementOperation.rows,
      o.resultPublished = true → Announced ext db (actions ++ [a]) o.operationId.text :=
    fun o ho hp => hrows o (.of_mem ho hp)
  constructor <;> rw [run_concat]
  · intro y hy
    cases a with
    | submit work => exact hworkers y hy
    | deliver message =>
      cases hm : (run ext actions (initial db)).topic[message]? with
      | none =>
        simp only [perform, hm] at hy
        exact hworkers y hy
      | some work =>
        simp only [perform, hm] at hy
        rcases List.mem_append.1 hy with hold | hnew
        · exact hworkers y hold
        · rw [List.mem_singleton.1 hnew]
          trivial
    | publisher i event =>
      cases hp : (run ext actions (initial db)).publishers[i]? with
      | none =>
        simp only [perform, hp] at hy
        exact hworkers y hy
      | some p =>
        simp only [perform, hp] at hy
        exact hworkers y hy
    | worker i event =>
      cases hx : (run ext actions (initial db)).workers[i]? with
      | none =>
        simp only [perform, hx] at hy
        exact hworkers y hy
      | some x =>
        simp only [perform, hx] at hy
        rcases List.mem_or_eq_of_mem_set hy with hold | rfl
        · exact hworkers y hold
        · exact worker_remembers hx reliable (h.workers x (List.mem_of_getElem? hx))
    | crashPublisher i =>
      cases hp : (run ext actions (initial db)).publishers[i]? with
      | none =>
        simp only [perform, hp] at hy
        exact hworkers y hy
      | some p =>
        simp only [perform, hp] at hy
        exact hworkers y hy
    | crashWorker i =>
      cases hx : (run ext actions (initial db)).workers[i]? with
      | none =>
        simp only [perform, hx] at hy
        exact hworkers y hy
      | some x =>
        simp only [perform, hx] at hy
        rcases List.mem_or_eq_of_mem_set hy with hold | rfl
        · exact hworkers y hold
        · trivial
  · intro o ho hpublished
    cases a with
    | submit work => exact hsame o ho hpublished
    | deliver message =>
      cases hm : (run ext actions (initial db)).topic[message]? <;>
        simp only [perform, hm] at ho <;> exact hsame o ho hpublished
    | publisher i event =>
      cases hp : (run ext actions (initial db)).publishers[i]? with
      | none =>
        simp only [perform, hp] at ho
        exact hsame o ho hpublished
      | some p =>
        simp only [perform, hp] at ho
        exact hrows o (publisher_published event ho hpublished)
    | worker i event =>
      cases hx : (run ext actions (initial db)).workers[i]? with
      | none =>
        simp only [perform, hx] at ho
        exact hsame o ho hpublished
      | some x =>
        simp only [perform, hx] at ho
        have hmem := List.mem_of_getElem? hx
        rcases worker_published event (hw.workers x hmem) ho hpublished with
          hold | ⟨operation, hphase, hid⟩
        · exact hrows o hold
        · have hremembers := hworkers x hmem
          unfold Remembers at hremembers
          rw [hphase] at hremembers
          rw [hid]
          exact hremembers
    | crashPublisher i =>
      cases hp : (run ext actions (initial db)).publishers[i]? <;>
        simp only [perform, hp] at ho <;> exact hsame o ho hpublished
    | crashWorker i =>
      cases hx : (run ext actions (initial db)).workers[i]? <;>
        simp only [perform, hx] at ho <;> exact hsame o ho hpublished

theorem run_remembered (reliable : ∀ a ∈ actions, Reliable a) :
    Remembered ext db actions := by
  induction actions using List.reverseRecOn with
  | nil =>
    exact ⟨fun _ h => absurd h List.not_mem_nil, fun _ h => absurd h List.not_mem_nil⟩
  | append_singleton actions a ih =>
    exact (ih fun b hb => reliable b (List.mem_append_left _ hb)).extend
      (reliable a (List.mem_append_right _ (List.mem_singleton_self a)))

end History

section Claim

theorem perform_finishing (ext : External) {w : World} {i : ℕ} {x : Worker} (hx : w.workers[i]? = some x)
    (h : Finishing x.phase) (a : Action) :
    ∃ y, (perform ext a w).workers[i]? = some y ∧ Finishing y.phase := by
  have hlt : i < w.workers.length := (List.getElem?_eq_some_iff.1 hx).1
  cases a with
  | submit work => exact ⟨x, hx, h⟩
  | deliver message =>
    cases hm : w.topic[message]? with
    | none => exact ⟨x, by simpa only [perform, hm] using hx, h⟩
    | some work =>
      refine ⟨x, ?_, h⟩
      simp only [perform, hm]
      rw [List.getElem?_append_left hlt]
      exact hx
  | publisher j event =>
    cases hp : w.publishers[j]? with
    | none => exact ⟨x, by simpa only [perform, hp] using hx, h⟩
    | some p => exact ⟨x, by simpa only [perform, hp] using hx, h⟩
  | worker j event =>
    cases hj : w.workers[j]? with
    | none => exact ⟨x, by simpa only [perform, hj] using hx, h⟩
    | some y =>
      simp only [perform, hj]
      by_cases hij : j = i
      · subst hij
        obtain rfl := Option.some.inj (hj.symm.trans hx)
        exact ⟨_, List.getElem?_set_self hlt, finishing_step ext event h⟩
      · exact ⟨x, by rw [List.getElem?_set_ne hij, hx], h⟩
  | crashPublisher j =>
    cases hp : w.publishers[j]? with
    | none => exact ⟨x, by simpa only [perform, hp] using hx, h⟩
    | some p => exact ⟨x, by simpa only [perform, hp] using hx, h⟩
  | crashWorker j =>
    cases hj : w.workers[j]? with
    | none => exact ⟨x, by simpa only [perform, hj] using hx, h⟩
    | some y =>
      simp only [perform, hj]
      by_cases hij : j = i
      · subst hij
        exact ⟨_, List.getElem?_set_self hlt, trivial⟩
      · exact ⟨x, by rw [List.getElem?_set_ne hij, hx], h⟩

theorem run_finishing (ext : External) (actions : List Action) {w : World} {i : ℕ} {x : Worker}
    (hx : w.workers[i]? = some x) (h : Finishing x.phase) :
    ∃ y, (run ext actions w).workers[i]? = some y ∧ Finishing y.phase := by
  induction actions generalizing w x with
  | nil => exact ⟨x, hx, h⟩
  | cons a actions ih =>
    obtain ⟨y, hy, hfinishing⟩ := perform_finishing ext hx h a
    exact ih hy hfinishing

/-- Wherever a run has come to: when a worker has acknowledged its message, its operation has ended,
is marked as published, and a result of it has been published with an end that it had before. A
worker whose operation has ended when it loads it does not execute it at any later moment. -/
theorem acknowledged_announced (ext : External) (db : Db) (actions : List Action)
    (reliable : ∀ a ∈ actions, Reliable a) :
    (∀ x ∈ (run ext actions (initial db)).workers, x.phase = .returned none →
      (∃ o ∈ (run ext actions (initial db)).db.settlementOperation.rows,
        o.operationId.text = x.work.operationId ∧ isTerminalOperation o.operationState = true ∧
        o.resultPublished = true) ∧
      Announced ext db actions x.work.operationId) ∧
    ∀ before after i event x, actions = before ++ .worker i event :: after →
      (run ext before (initial db)).workers[i]? = some x → x.phase = .loading →
      HasEnded (run ext before (initial db)).db x.work.operationId →
      ∀ y, (run ext actions (initial db)).workers[i]? = some y → Worker.Executing y = false := by
  constructor
  · intro x hx hphase
    have hw : Tracked (run ext actions (initial db)) := run_tracked actions (.initial db)
    have hremembered : Remembered ext db actions := run_remembered reliable
    have hremembers := hremembered.workers x hx
    unfold Remembers at hremembers
    rw [hphase] at hremembers
    obtain ⟨o, ho, hid, hpublished⟩ := hremembers
    refine ⟨⟨o, ho, hid, (hw.rows o ho).published hpublished, hpublished⟩, ?_⟩
    rw [← hid]
    exact hremembered.rows o ho hpublished
  · rintro before after i event x rfl hx hphase hended y hy
    have hw : Tracked (run ext before (initial db)) := run_tracked before (.initial db)
    have hlt : i < (run ext before (initial db)).workers.length := (List.getElem?_eq_some_iff.1 hx).1
    have hloaded : (perform ext (.worker i event) (run ext before (initial db))).workers[i]? =
        some ⟨x.work, (workerStep ext event x (run ext before (initial db)).db).1⟩ := by
      simp only [perform, hx]
      exact List.getElem?_set_self hlt
    rw [run_append, run] at hy
    obtain ⟨z, hz, hfinishing⟩ := run_finishing ext after hloaded
      (finishing_of_load ext event hw.ids hended hphase)
    obtain rfl := Option.some.inj (hz.symm.trans hy)
    unfold Worker.Executing
    cases hp : z.phase with
    | executing =>
      rw [hp] at hfinishing
      exact hfinishing.elim
    | _ => rfl

end Claim

section Seeded

/-- The work is delivered twice; the first worker's result is published, but it crashes before it has
marked it so, and the second finishes. -/
def deliveredTwice : List Action := [.submit issueWork] ++
  List.replicate 2 (.publisher 0 quietEvent) ++ [.deliver 0] ++
  List.replicate 5 (.worker 0 quietEvent) ++ [.crashWorker 0, .deliver 0] ++
  List.replicate 3 (.worker 1 quietEvent)

theorem acknowledged_announced_deliveredTwice :
    ∃ x ∈ (run transparent deliveredTwice (initial (localDevWorld transparent))).workers,
      Announced transparent (localDevWorld transparent) deliveredTwice x.work.operationId := by
  have hacknowledged : ∃ x ∈ (run transparent deliveredTwice
      (initial (localDevWorld transparent))).workers, acknowledged x = true := by
    decide +kernel
  obtain ⟨x, hx, hphase⟩ := hacknowledged
  refine ⟨x, hx, ((acknowledged_announced transparent (localDevWorld transparent) deliveredTwice
    (by decide)).1 x hx (phase_of_acknowledged hphase)).2⟩

end Seeded

end EveTrade.SettlementAcknowledgement
