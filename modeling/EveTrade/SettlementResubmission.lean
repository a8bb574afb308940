import EveTrade.SettlementEndings

set_option autoImplicit false

/-!
# Work that is published again

A publisher publishes the work of whatever operation its key has, also of one that has already
failed. Such work is answered as queued, but no worker that receives it executes it.
-/
namespace EveTrade.SettlementResubmission

open KeyedTable FieldText UuidText TransactionMonad SettlementTypes SettlementSchema
  SettlementExecutor SettlementWork SettlementService SettlementDelivery SettlementOperationChanges
  SettlementAgreement SettlementLifecycle SettlementEndings LocalDevWorld

/-- The operation's settlement has committed, or a worker that its work is still to be delivered to
can come to execute it. -/
def CanSettle (ext : External) (w : World) (operationId : String) : Prop :=
  (∃ o ∈ w.db.settlementOperation.rows, o.operationId.text = operationId ∧
    o.operationState = .succeeded ∧ IsCompleted w.db (trim o.idempotencyKey)) ∨
  ∃ actions j x, w.workers.length ≤ j ∧ (run ext actions w).workers[j]? = some x ∧
    x.work.operationId = operationId ∧ Worker.Executing x = true

section Refused

variable {ext : External} {db db' : Db}
variable {operationId : String}

def EndedUnsettled (db : Db) (operationId : String) : Prop :=
  ∃ o ∈ db.settlementOperation.rows, o.operationId.text = operationId ∧ Unsettled o.operationState

theorem terminal_of_unsettled {s : OperationState} (h : Unsettled s) :
    isTerminalOperation s = true := by
  rcases h with rfl | rfl | rfl <;> rfl

theorem EndedUnsettled.evolve (h : EndedUnsettled db operationId)
    (hev : Evolution db db') : EndedUnsettled db' operationId := by
  obtain ⟨o, ho, hid, hu⟩ := h
  obtain ⟨o', ho', hm⟩ := hev.forward o ho
  refine ⟨o', ho', by rw [hm.operationId, hid], ?_⟩
  rw [hm.operationState (terminal_of_unsettled hu)]
  exact hu

def Passive (phase : WorkerPhase) : Prop := phase = .loading ∨ Finishing phase

theorem passive_step (event : Event) {x : Worker} (hids : DistinctIds db)
    (hended : EndedUnsettled db x.work.operationId) (h : Passive x.phase) :
    Passive (workerStep ext event x db).1 := by
  rcases h with hloading | hfinishing
  · obtain ⟨o, ho, hid, hu⟩ := hended
    exact .inr (finishing_of_load ext event hids ⟨o, ho, hid, terminal_of_unsettled hu⟩ hloading)
  · exact .inr (finishing_step ext event hfinishing)

/-- From the `n`-th on, the workers of the operation are not on the way to execute it. -/
structure Barred (n : ℕ) (operationId : String) (w : World) : Prop where
  ended : EndedUnsettled w.db operationId
  passive : ∀ j x, n ≤ j → w.workers[j]? = some x → x.work.operationId = operationId →
    Passive x.phase

theorem passive_set {n i : ℕ} {workers : List Worker} {y : Worker}
    (h : ∀ j x, n ≤ j → workers[j]? = some x → x.work.operationId = operationId → Passive x.phase)
    (hy : n ≤ i → y.work.operationId = operationId → Passive y.phase) :
    ∀ j x, n ≤ j → (workers.set i y)[j]? = some x → x.work.operationId = operationId →
      Passive x.phase := by
  intro j x hj hx hid
  by_cases hij : i = j
  · subst hij
    rw [List.getElem?_set_self'] at hx
    cases hi : workers[i]? with
    | none =>
      rw [hi] at hx
      cases hx
    | some z =>
      rw [hi] at hx
      obtain rfl := Option.some.inj hx
      exact hy hj hid
  · rw [List.getElem?_set_ne hij] at hx
    exact h j x hj hx hid

theorem Barred.perform {n : ℕ} {w : World} (h : Barred n operationId w)
    (hw : Tracked w) (a : Action) : Barred n operationId (perform ext a w) := by
  have hev := Step.evolution (perform_step ext a w) hw
  refine ⟨h.ended.evolve hev, ?_⟩
  cases a with
  | submit work => exact h.passive
  | deliver message =>
    cases hm : w.topic[message]? with
    | none => simpa only [SettlementDelivery.perform, hm] using h.passive
    | some work =>
      simp only [SettlementDelivery.perform, hm]
      intro j x hj hx hid
      by_cases hlt : j < w.workers.length
      · rw [List.getElem?_append_left hlt] at hx
        exact h.passive j x hj hx hid
      · rw [List.getElem?_append_right (Nat.le_of_not_lt hlt)] at hx
        rw [List.mem_singleton.1 (List.mem_of_getElem? hx)]
        exact .inl rfl
  | publisher i event =>
    cases hp : w.publishers[i]? with
    | none => simpa only [SettlementDelivery.perform, hp] using h.passive
    | some p => simpa only [SettlementDelivery.perform, hp] using h.passive
  | worker i event =>
    cases hx : w.workers[i]? with
    | none => simpa only [SettlementDelivery.perform, hx] using h.passive
    | some x =>
      simp only [SettlementDelivery.perform, hx]
      refine passive_set h.passive fun hn hid => ?_
      have hended : EndedUnsettled w.db x.work.operationId := by
        rw [show x.work.operationId = operationId from hid]
        exact h.ended
      exact passive_step event hw.ids hended (h.passive i x hn hx hid)
  | crashPublisher i =>
    cases hp : w.publishers[i]? with
    | none => simpa only [SettlementDelivery.perform, hp] using h.passive
    | some p => simpa only [SettlementDelivery.perform, hp] using h.passive
  | crashWorker i =>
    cases hx : w.workers[i]? with
    | none => simpa only [SettlementDelivery.perform, hx] using h.passive
    | some x =>
      simp only [SettlementDelivery.perform, hx]
      exact passive_set h.passive fun _ _ => .inr trivial

theorem run_barred {n : ℕ} (as : List Action) {w : World} (hw : Tracked w)
    (h : Barred n operationId w) : Barred n operationId (run ext as w) := by
  induction as generalizing w with
  | nil => exact h
  | cons a as ih => exact ih (hw.of_step (perform_step ext a w)) (h.perform hw a)

theorem not_canSettle {w : World} (hw : Tracked w)
    (h : EndedUnsettled w.db operationId) : ¬ CanSettle ext w operationId := by
  rintro (⟨o, ho, hid, hstate, _⟩ | ⟨actions, j, x, hj, hx, hid, hexec⟩)
  · obtain ⟨q, hq, hqid, hu⟩ := h
    obtain rfl := hw.ids o ho q hq (Uuid.text_injective (hid.trans hqid.symm))
    rw [hstate] at hu
    rcases hu with hu | hu | hu <;> cases hu
  · have hbarred : Barred w.workers.length operationId w := by
      refine ⟨h, fun j x hj hx _ => ?_⟩
      rw [List.getElem?_eq_none hj] at hx
      cases hx
    have hpassive := (run_barred actions hw hbarred).passive j x hj hx hid
    unfold Worker.Executing at hexec
    cases hp : x.phase <;> rw [hp] at hexec hpassive <;> cases hexec
    rcases hpassive with hloading | hfinishing
    · cases hloading
    · exact hfinishing

end Refused

section Executed

variable {ext : External} {db : Db}
variable {o : SettlementOperationRow}

theorem markProcessing_ok (hids : DistinctIds db) (ho : o ∈ db.settlementOperation.rows)
    (hpending : o.operationState = .queued ∨ o.operationState = .processing) :
    ∃ status, (updateSettlementOperation (markProcessing o.operationId.text) db).1 = .ok status := by
  have hparsed : parseBatchId (markProcessing o.operationId.text).settlementBatchId = .ok none := by
    change parseBatchId "" = .ok none
    decide
  have hfound : Uuid.parse (markProcessing o.operationId.text).operationId = some o.operationId := by
    change Uuid.parse o.operationId.text = _
    rw [Uuid.parse_text]
  rw [updateSettlementOperation_of_mem hids ho hfound hparsed]
  have hcheck : checkUpdate (markProcessing o.operationId.text) none o db = .ok () := by
    have hstate : (markProcessing o.operationId.text).state = .processing := rfl
    refine except_bind_eq_ok.2 ⟨(), check_eq_ok.2 ?_, except_bind_eq_ok.2 ⟨(), check_eq_ok.2 ?_,
      except_bind_eq_ok.2 ⟨(), check_eq_ok.2 ?_, check_eq_ok.2 ?_⟩⟩⟩
    · rw [hstate]
      rcases hpending with h | h <;> rw [h] <;> rfl
    · rw [hstate]
      exact fun hs => OperationState.noConfusion hs
    · rw [hstate]
      exact fun hs => OperationState.noConfusion hs
    · intro id hid
      cases hid
  unfold updateRow
  rw [hcheck]
  exact ⟨_, rfl⟩

theorem load_ok (hids : DistinctIds db) (ho : o ∈ db.settlementOperation.rows) :
    getSettlementOperation o.operationId.text db = .ok (operationStatus o) := by
  unfold getSettlementOperation
  rw [Uuid.parse_text]
  dsimp only
  rw [findOperation_of_mem hids ho]

theorem delivered_executes (ext : External) {w : World} {work : Work} {m : ℕ}
    (hids : DistinctIds w.db) (ho : o ∈ w.db.settlementOperation.rows)
    (hid : o.operationId.text = work.operationId)
    (hpending : o.operationState = .queued ∨ o.operationState = .processing)
    (hsent : w.topic[m]? = some work) :
    (run ext [.deliver m, .worker w.workers.length quietEvent, .worker w.workers.length quietEvent]
      w).workers[w.workers.length]? = some ⟨work, .executing⟩ := by
  have hload : workerStep ext quietEvent ⟨work, .loading⟩ w.db = (.marking, w.db, []) := by
    have hne : o.operationId.text ≠ "" := uuid_text_ne_empty o.operationId
    have hopen : isTerminalOperation (operationStatus o).state = false := by
      change isTerminalOperation o.operationState = false
      rcases hpending with h | h <;> rw [h] <;> rfl
    simp only [workerStep, quietEvent, Transport.carry, ← hid, if_neg hne, load_ok hids ho,
      afterLoad, hopen, Bool.false_eq_true, if_false]
  have hmark : (workerStep ext quietEvent ⟨work, .marking⟩ w.db).1 = .executing := by
    obtain ⟨status, hstatus⟩ := markProcessing_ok hids ho hpending
    simp only [workerStep, update, quietEvent, Transport.carry, ← hid, hstatus, afterProcessing]
  have hdelivered : perform ext (.deliver m) w =
      { w with workers := w.workers ++ [⟨work, .loading⟩] } := by
    simp only [perform, hsent]
  have hloaded : perform ext (.worker w.workers.length quietEvent)
      { w with workers := w.workers ++ [⟨work, .loading⟩] } =
      { w with workers := w.workers ++ [⟨work, .marking⟩] } := by
    simp [perform, hload]
  simp only [run, hdelivered, hloaded]
  simp [perform, hmark]

theorem published_executes {w : World} {work : Work} {i : ℕ}
    (hids : DistinctIds w.db) (ho : o ∈ w.db.settlementOperation.rows)
    (hid : o.operationId.text = work.operationId)
    (hpending : o.operationState = .queued ∨ o.operationState = .processing)
    (hp : w.publishers[i]? = some ⟨work, .publishing⟩) : CanSettle ext w o.operationId.text := by
  obtain ⟨w', hw'⟩ : ∃ w', perform ext (.publisher i quietEvent) w = w' := ⟨_, rfl⟩
  have hdb : w'.db = w.db := by
    rw [← hw']
    simp only [perform, hp, publisherStep]
  have hworkers : w'.workers = w.workers := by
    rw [← hw']
    simp only [perform, hp]
  have hsent : w'.topic[w.topic.length]? = some work := by
    rw [← hw']
    simp [perform, hp, publisherStep, quietEvent]
  refine .inr ⟨[.publisher i quietEvent, .deliver w.topic.length,
    .worker w.workers.length quietEvent, .worker w.workers.length quietEvent], w.workers.length,
    ⟨work, .executing⟩, le_rfl, ?_, hid.symm, rfl⟩
  have hexecutes := delivered_executes ext (hdb ▸ hids) (hdb ▸ ho) hid hpending hsent
  rw [hworkers] at hexecutes
  rw [run, hw']
  exact hexecutes

end Executed

section Claim

theorem operationStatus_operationId (o : SettlementOperationRow) :
    (operationStatus o).operationId = o.operationId.text := rfl

theorem queuedWork_operationId (work : Work) (operation : SettlementOperationStatus) :
    (queuedWork work operation).operationId = operation.operationId := rfl

theorem queued_row (ext : External) {w : World} {i : ℕ} {event : Event} {p : Publisher}
    {status : SettlementOperationStatus} (called : w.publishers[i]? = some p)
    (phase : p.phase = .queueing)
    (answered : (event.transport.carry w.db (queueSettlementOperation event.now event.newId
      (queueRequest p.work) w.db)).1 = .ok status) :
    ∃ o ∈ (perform ext (.publisher i event) w).db.settlementOperation.rows,
      status = operationStatus o ∧ o.idempotencyKey = p.work.idempotencyKey ∧
      (Unsettled o.operationState → o ∈ w.db.settlementOperation.rows) ∧
      (perform ext (.publisher i event) w).publishers[i]? =
        some ⟨queuedWork p.work status, .publishing⟩ := by
  have hcarry := carry_eq_ok answered
  have hrow : ∃ o ∈ (queueSettlementOperation event.now event.newId (queueRequest p.work)
      w.db).2.settlementOperation.rows,
      status = operationStatus o ∧ o.idempotencyKey = p.work.idempotencyKey ∧
      (Unsettled o.operationState → o ∈ w.db.settlementOperation.rows) := by
    rw [hcarry] at answered
    rcases queueSettlementOperation_cases event.now event.newId (queueRequest p.work) w.db with
      ⟨e, h⟩ | ⟨o, ho, hkey, h⟩ | ⟨operations, hinsert, _, h⟩ <;> rw [h] at answered ⊢
    · cases answered
    · exact ⟨o, ho, (Except.ok.inj answered).symm, hkey, fun _ => ho⟩
    · refine ⟨_, (Table.mem_insert hinsert).2 (.inr rfl), (Except.ok.inj answered).symm, rfl, ?_⟩
      intro hu
      rcases hu with hu | hu | hu <;> cases hu
  obtain ⟨o, ho, hstatus, hkey, hbefore⟩ := hrow
  refine ⟨o, ?_, hstatus, hkey, hbefore, ?_⟩
  · simp only [perform, called, publisherStep, phase, hcarry]
    exact ho
  · have hne : status.operationId ≠ "" := by
      rw [hstatus, operationStatus_operationId]
      exact uuid_text_ne_empty o.operationId
    have hlt : i < w.publishers.length := (List.getElem?_eq_some_iff.1 called).1
    simp only [perform, called, publisherStep, phase, answered, afterQueue, if_neg hne]
    rw [List.getElem?_set_self hlt]

/-- A publisher's call to queue its operation, wherever a run has come to, is answered with an
operation that can still be settled, or is, exactly when that operation has not ended otherwise; and
it has only if it had so before the call. -/
theorem queued_can_settle_iff (ext : External) (db : Db) (before : List Action) (i : ℕ)
    (event : Event) (p : Publisher) (status : SettlementOperationStatus)
    (called : (run ext before (initial db)).publishers[i]? = some p) (phase : p.phase = .queueing)
    (answered : (event.transport.carry (run ext before (initial db)).db
      (queueSettlementOperation event.now event.newId (queueRequest p.work)
        (run ext before (initial db)).db)).1 = .ok status) :
    (CanSettle ext (perform ext (.publisher i event) (run ext before (initial db)))
        status.operationId ↔ ¬ Unsettled status.state) ∧
    (Unsettled status.state ↔
      ∃ o ∈ (run ext before (initial db)).db.settlementOperation.rows,
        o.idempotencyKey = p.work.idempotencyKey ∧ Unsettled o.operationState) := by
  have hw : Tracked (run ext before (initial db)) := run_tracked before (.initial db)
  generalize run ext before (initial db) = w at called answered hw ⊢
  have hstep := perform_step ext (.publisher i event) w
  have hw' := hw.of_step hstep
  obtain ⟨o, ho, hstatus, hkey, hbefore, hp⟩ := queued_row ext called phase answered
  have hid : (queuedWork p.work status).operationId = o.operationId.text := by
    rw [queuedWork_operationId, hstatus, operationStatus_operationId]
  have hstate : status.state = o.operationState := by rw [hstatus]; rfl
  rw [hstate, hstatus, operationStatus_operationId]
  refine ⟨⟨?_, ?_⟩, ?_, ?_⟩
  · intro hcan hu
    exact not_canSettle hw' ⟨o, ho, rfl, hu⟩ hcan
  · intro hnot
    cases hw'.rows o ho with
    | pending state _ _ _ => exact published_executes hw'.ids ho hid.symm state hp
    | failed state _ => exact absurd (.inl state) hnot
    | succeeded id state _ _ completed => exact .inl ⟨o, ho, rfl, state, some id, completed⟩
  · intro hu
    exact ⟨o, hbefore hu, hkey, hu⟩
  · rintro ⟨q, hq, hqkey, hu⟩
    obtain ⟨q', hq', hm⟩ := (Step.evolution hstep hw).forward q hq
    obtain rfl : q' = o := Table.mem_unique hq' ho (by
      change q'.idempotencyKey = o.idempotencyKey
      rw [hm.idempotencyKey, hqkey, hkey])
    rw [hm.operationState (terminal_of_unsettled hu)]
    exact hu

end Claim

section Seeded

def queuedStatus : SettlementOperationStatus :=
  operationStatus (queuedOperation quietEvent.now quietEvent.newId (queueRequest issueWork))

theorem queued_can_settle_issue :
    CanSettle transparent (perform transparent (.publisher 0 quietEvent)
      (run transparent [.submit issueWork] (initial (localDevWorld transparent))))
      queuedStatus.operationId :=
  ((queued_can_settle_iff transparent (localDevWorld transparent) [.submit issueWork] 0 quietEvent
    ⟨issueWork, .queueing⟩ queuedStatus rfl rfl (by decide +kernel)).1).2 (by decide)

def unpublished : List Action := [
  .submit issueWork,
  .publisher 0 quietEvent,
  .publisher 0 { quietEvent with publication := .error "connection reset", reaches := false },
  .publisher 0 quietEvent,
  .submit issueWork]

def unpublishedWorld : World := run transparent unpublished (initial (localDevWorld transparent))

def republishedWorld : World := run transparent
  (List.replicate 2 (.publisher 1 quietEvent) ++ [.deliver 0] ++
    List.replicate 6 (.worker 0 quietEvent)) unpublishedWorld

def answeredQueued (p : Publisher) : Bool :=
  match p.phase with
  | .returned (.ok _) => true
  | _ => false

/-- The second publisher is answered as queued, the worker acknowledges its work, and nothing has
been executed. -/
theorem republished_not_executed :
    (∃ o ∈ unpublishedWorld.db.settlementOperation.rows,
      o.idempotencyKey = issueWork.idempotencyKey ∧ o.operationState = .failed) ∧
    republishedWorld.publishers.map answeredQueued = [false, true] ∧
    republishedWorld.workers.map acknowledged = [true] ∧
    republishedWorld.db.business.tradeInstance.rows.length = 0 ∧
    ¬ IsCompleted republishedWorld.db issueWork.idempotencyKey := by
  decide +kernel

end Seeded

end EveTrade.SettlementResubmission
