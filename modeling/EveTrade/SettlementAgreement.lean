import EveTrade.LocalDevWorld
import EveTrade.SettlementOperationChanges

set_option autoImplicit false

/-!
# Durable operations against idempotency records

An operation and the record of its key are written by different calls, of publishers, of workers and
of the executor. They agree in every run in which no operation ends unsettled under a worker that has
marked it and is still to execute it, and no two operations share a record.
-/
namespace EveTrade.SettlementAgreement

open KeyedTable FieldText UuidText SettlementTypes SettlementSchema SettlementExecutor
  SettlementWork SettlementService SettlementDelivery SettlementOperationChanges LocalDevWorld

/-- Every operation whose key has no surrounding white space agrees with the record of its key. -/
def Agreement (db : Db) : Prop :=
  ∀ o ∈ db.settlementOperation.rows, trim o.idempotencyKey = o.idempotencyKey →
    (Unsettled o.operationState → ¬ IsCompleted db o.idempotencyKey) ∧
    (o.operationState = .succeeded →
      ∃ id, Completed db o.idempotencyKey (some id) ∧ o.settlementBatchId = some id)

def Worker.Executing (x : Worker) : Bool :=
  match x.phase with
  | .executing => true
  | _ => false

/-- An operation ends unsettled only when no worker is about to execute it. -/
def EndsIdle (w w' : World) : Prop :=
  ∀ o ∈ w'.db.settlementOperation.rows, Unsettled o.operationState →
    (∀ q ∈ w.db.settlementOperation.rows, q.operationId = o.operationId →
      ¬ Unsettled q.operationState) →
    ∀ x ∈ w.workers, Worker.Executing x = true → x.work.operationId ≠ o.operationId.text

/-- An operation is queued only under a key that, trimmed, is no other operation's and has no
completed record. -/
def QueuesAlone (w w' : World) : Prop :=
  ∀ o ∈ w'.db.settlementOperation.rows,
    (∀ q ∈ w.db.settlementOperation.rows, q.idempotencyKey ≠ o.idempotencyKey) →
    (∀ q ∈ w.db.settlementOperation.rows, trim q.idempotencyKey ≠ trim o.idempotencyKey) ∧
      ¬ IsCompleted w.db (trim o.idempotencyKey)

def Orderly (w w' : World) : Prop := EndsIdle w w' ∧ QueuesAlone w w'

instance (w w' : World) : Decidable (Orderly w w') := by
  unfold Orderly EndsIdle QueuesAlone
  infer_instance

def OrderlyRun (ext : External) : List Action → World → Prop
  | [], _ => True
  | a :: as, w => Orderly w (perform ext a w) ∧ OrderlyRun ext as (perform ext a w)

instance decidableOrderlyRun (ext : External) :
    ∀ (as : List Action) (w : World), Decidable (OrderlyRun ext as w)
  | [], _ => isTrue trivial
  | _ :: as, _ =>
    haveI := decidableOrderlyRun ext as
    inferInstanceAs (Decidable (_ ∧ _))

section Parties

variable {db db' : Db}

def PublisherOk (db : Db) (p : Publisher) : Prop :=
  match p.phase with
  | .publishing => Refers db p.work
  | .failing _ => Refers db p.work
  | _ => True

/-- The status of an operation that has ended, as a worker holds it, is still that of its row. -/
def Reports (db : Db) (work : Work) (operation : SettlementOperationStatus) : Prop :=
  isTerminalOperation operation.state = true ∧
    ∀ o ∈ db.settlementOperation.rows, o.operationId.text = work.operationId →
      o.operationState = operation.state ∧
      (o.operationState = .succeeded → trim o.idempotencyKey = o.idempotencyKey →
        operation.settlementBatchId = (o.settlementBatchId.map Uuid.text).getD "")

def WorkerOk (db : Db) (x : Worker) : Prop :=
  Refers db x.work ∧
    match x.phase with
    | .executing =>
      ∀ o ∈ db.settlementOperation.rows, o.operationId.text = x.work.operationId → Started o
    | .succeeding settlementBatchId =>
      ∃ id, Completed db (trim x.work.idempotencyKey) (some id) ∧ id.text = settlementBatchId
    | .publishing operation => Reports db x.work operation
    | .confirming operation => Reports db x.work operation
    | _ => True

structure Inv (w : World) : Prop where
  rows : RowsInv w.db
  topic : ∀ work ∈ w.topic, Refers w.db work
  publishers : ∀ p ∈ w.publishers, PublisherOk w.db p
  workers : ∀ x ∈ w.workers, WorkerOk w.db x

theorem PublisherOk.mono {p : Publisher} (h : PublisherOk db p)
    (hrefers : ∀ work, Refers db work → Refers db' work) : PublisherOk db' p := by
  unfold PublisherOk at h ⊢
  cases hp : p.phase with
  | publishing =>
    rw [hp] at h
    exact hrefers p.work h
  | failing e =>
    rw [hp] at h
    exact hrefers p.work h
  | queueing => trivial
  | returned r => trivial
  | crashed => trivial

theorem batch_kept {o o' : SettlementOperationRow} (hc : Change db db') (ho : Agrees db o)
    (ho' : Agrees db' o') (hm : RowMove o o') (hs : o.operationState = .succeeded)
    (htrim : trim o.idempotencyKey = o.idempotencyKey) :
    o'.settlementBatchId = o.settlementBatchId := by
  obtain ⟨id, hid, hb⟩ := (ho htrim).1 hs
  have hterminal : o'.operationState = .succeeded := by
    rw [hm.terminal (by rw [hs]; rfl), hs]
  obtain ⟨id', hid', hb'⟩ := (ho' (by rw [hm.idempotencyKey, htrim])).1 hterminal
  rw [hm.idempotencyKey] at hid'
  have : some id' = some id := hid'.unique (hc.completed hid)
  rw [hb, hb', this]

theorem Reports.of_change {work : Work} {operation : SettlementOperationStatus}
    (h : Reports db work operation) (hrefers : Refers db work) (hinv : RowsInv db)
    (hinv' : RowsInv db') (hc : Change db db') : Reports db' work operation := by
  refine ⟨h.1, ?_⟩
  intro o' ho' hid
  rcases hc.origin ho' with ⟨o, ho, hm⟩ | hfresh
  · rw [hm.operationId] at hid
    obtain ⟨hstate, hbatch⟩ := h.2 o ho hid
    have hkept : o'.operationState = o.operationState := hm.terminal (by rw [hstate]; exact h.1)
    refine ⟨hkept.trans hstate, ?_⟩
    intro hs htrim
    rw [hkept] at hs
    rw [hm.idempotencyKey] at htrim
    rw [batch_kept hc (hinv.agrees o ho) (hinv'.agrees o' ho') hm hs htrim]
    exact hbatch hs htrim
  · obtain ⟨o, ho, hoid, _⟩ := hrefers
    exact absurd (Uuid.text_injective (hoid.trans hid.symm)) (hfresh o ho)

theorem WorkerOk.of_change {x : Worker} (h : WorkerOk db x) (hinv : RowsInv db)
    (hinv' : RowsInv db') (hc : Change db db')
    (hidle : ∀ o ∈ db'.settlementOperation.rows, Unsettled o.operationState →
      (∀ q ∈ db.settlementOperation.rows, q.operationId = o.operationId →
        ¬ Unsettled q.operationState) →
      Worker.Executing x = true → x.work.operationId ≠ o.operationId.text) :
    WorkerOk db' x := by
  obtain ⟨hrefers, h⟩ := h
  refine ⟨hc.refers hrefers, ?_⟩
  cases hp : x.phase with
  | executing =>
    rw [hp] at h
    intro o' ho' hid
    rcases hc.origin ho' with ⟨o, ho, hm⟩ | hfresh
    · have hstarted : Started o := h o ho (hm.operationId ▸ hid)
      rcases hm.started hstarted with hs | hu
      · exact hs
      · refine absurd hid.symm (hidle o' ho' hu ?_ ?_)
        · intro q hq hqo
          obtain rfl := hinv.unique hq ho (hqo.trans hm.operationId)
          rcases hstarted with hs | hs <;> rw [hs] <;> decide
        · unfold Worker.Executing
          rw [hp]
    · obtain ⟨o, ho, hoid, _⟩ := hrefers
      exact absurd (Uuid.text_injective (hoid.trans hid.symm)) (hfresh o ho)
  | succeeding id =>
    rw [hp] at h
    obtain ⟨batch, hcompleted, htext⟩ := h
    exact ⟨batch, hc.completed hcompleted, htext⟩
  | publishing operation =>
    rw [hp] at h
    exact h.of_change hrefers hinv hinv' hc
  | confirming operation =>
    rw [hp] at h
    exact h.of_change hrefers hinv hinv' hc
  | loading => trivial
  | marking => trivial
  | failing e => trivial
  | returned e => trivial
  | crashed => trivial

end Parties

section Steps

variable {db : Db}

theorem carry_db {α : Type} (db : Db) (t : Transport) (call : Except Status α × Db) :
    (t.carry db call).2 = db ∨ (t.carry db call).2 = call.2 := by
  cases t with
  | delivered => exact .inr rfl
  | requestLost e => exact .inl rfl
  | responseLost e => exact .inr rfl

theorem carry_eq_ok {α : Type} {t : Transport} {call : Except Status α × Db} {a : α}
    (h : (t.carry db call).1 = .ok a) : t.carry db call = call := by
  cases t with
  | delivered => rfl
  | requestLost e => cases h
  | responseLost e => cases h

theorem change_of_carry {α : Type} (t : Transport) {call : Except Status α × Db}
    (h : Change db call.2) : Change db (t.carry db call).2 := by
  rcases carry_db db t call with hdb | hdb <;> rw [hdb]
  · exact .refl db
  · exact h

theorem change_of_queue (now : DateTime) (id : Uuid) (request : QueueSettlementOperationRequest) :
    Change db (queueSettlementOperation now id request db).2 := by
  rcases queueSettlementOperation_cases now id request db with
    ⟨e, h⟩ | ⟨o, _, _, h⟩ | ⟨operations, hinsert, hfresh, h⟩ <;> rw [h]
  · exact .refl db
  · exact .refl db
  · exact .queued _ operations hinsert hfresh rfl

theorem change_of_update (request : UpdateSettlementOperationRequest)
    (justified : ∀ batchId o, Updated request db batchId o → request.state = .succeeded →
      trim o.idempotencyKey = o.idempotencyKey →
      ∃ id, Completed db o.idempotencyKey (some id) ∧ batchId.or o.settlementBatchId = some id) :
    Change db (updateSettlementOperation request db).2 := by
  rcases updateSettlementOperation_cases request db with ⟨e, h⟩ | ⟨batchId, o, hfound, h⟩ <;> rw [h]
  · exact .refl db
  · exact .updated request batchId o hfound (justified batchId o hfound)

theorem updated_refers {work : Work} {request : UpdateSettlementOperationRequest}
    {batchId : Option Uuid} {o : SettlementOperationRow} (hids : DistinctIds db)
    (hrefers : Refers db work) (hid : request.operationId = work.operationId)
    (h : Updated request db batchId o) :
    o.operationId.text = work.operationId ∧ o.idempotencyKey = work.idempotencyKey := by
  obtain ⟨q, hq, hqid, hqkey⟩ := hrefers
  have hparse := h.operationId
  rw [hid, ← hqid, Uuid.parse_text] at hparse
  obtain rfl := hids q hq o h.mem (Option.some.inj hparse)
  exact ⟨hqid, hqkey⟩

theorem parseBatchId_text {id : Uuid} {batchId : Option Uuid}
    (h : parseBatchId id.text = .ok batchId) : batchId = some id := by
  unfold parseBatchId at h
  rw [if_neg (trim_uuid_text id), Uuid.parse_text] at h
  exact (Except.ok.inj h).symm

theorem reports_of_update {work : Work} {request : UpdateSettlementOperationRequest}
    {operation : SettlementOperationStatus} {t : Transport} (hids : DistinctIds db)
    (hrefers : Refers db work) (hid : request.operationId = work.operationId)
    (h : (t.carry db (updateSettlementOperation request db)).1 = .ok operation) :
    operation.state = request.state ∧
      ∀ o ∈ (t.carry db (updateSettlementOperation request db)).2.settlementOperation.rows,
        o.operationId.text = work.operationId → operation = operationStatus o := by
  have hcarry := carry_eq_ok h
  rw [hcarry] at h ⊢
  rcases updateSettlementOperation_cases request db with ⟨e, he⟩ | ⟨batchId, o, hfound, he⟩
  · rw [he] at h
    cases h
  · rw [he] at h ⊢
    obtain rfl := Except.ok.inj h
    refine ⟨rfl, ?_⟩
    intro q' hq' hqid
    obtain ⟨q, hq, rfl⟩ := (Table.mem_modify _ _ (updatedOperation request batchId)
      (fun _ => rfl) q').1 hq'
    obtain ⟨hoid, _⟩ := updated_refers hids hrefers hid hfound
    have hqid' : q.operationId.text = work.operationId := by
      split_ifs at hqid <;> exact hqid
    obtain rfl := hids q hq o hfound.mem (Uuid.text_injective (hqid'.trans hoid.symm))
    have hk : Keyed.key q = q.idempotencyKey := rfl
    rw [if_pos hk]

theorem reports_of_status {work : Work} {operation : SettlementOperationStatus}
    (hterminal : isTerminalOperation operation.state = true)
    (h : ∀ o ∈ db.settlementOperation.rows, o.operationId.text = work.operationId →
      operation = operationStatus o) : Reports db work operation := by
  refine ⟨hterminal, fun o ho hid => ?_⟩
  rw [h o ho hid]
  exact ⟨rfl, fun _ _ => rfl⟩

end Steps

section Publishers

variable {db : Db}

theorem publisher_change (event : Event) {p : Publisher} :
    Change db (publisherStep event p db).2.1 := by
  unfold publisherStep
  cases p.phase with
  | queueing => exact change_of_carry _ (change_of_queue _ _ _)
  | publishing => exact .refl db
  | failing e =>
    refine change_of_carry _ (change_of_update _ ?_)
    intro batchId o _ hstate
    cases hstate
  | returned r => exact .refl db
  | crashed => exact .refl db

theorem publisher_ok (event : Event) {p : Publisher} (h : PublisherOk db p) :
    PublisherOk (publisherStep event p db).2.1 (publisherStep event p db).1 := by
  unfold publisherStep
  cases hp : p.phase with
  | queueing =>
    dsimp only
    cases hr : (event.transport.carry db
        (queueSettlementOperation event.now event.newId (queueRequest p.work) db)).1 with
    | error e => trivial
    | ok operation =>
      unfold afterQueue
      dsimp only
      split_ifs
      · trivial
      · have hcarry := carry_eq_ok hr
        rw [hcarry] at hr ⊢
        rcases queueSettlementOperation_cases event.now event.newId (queueRequest p.work) db with
          ⟨e, hq⟩ | ⟨o, ho, hkey, hq⟩ | ⟨operations, hinsert, _, hq⟩ <;> rw [hq] at hr ⊢
        · cases hr
        · obtain rfl := Except.ok.inj hr
          exact ⟨o, ho, rfl, hkey⟩
        · obtain rfl := Except.ok.inj hr
          exact ⟨_, (Table.mem_insert hinsert).2 (.inr rfl), rfl, rfl⟩
  | publishing =>
    unfold PublisherOk at h
    rw [hp] at h
    cases event.publication with
    | error e => exact h
    | ok id => trivial
  | failing e =>
    dsimp only
    cases (event.transport.carry db
        (updateSettlementOperation (publicationFailed p.work.operationId) db)).1 <;> trivial
  | returned r =>
    unfold PublisherOk
    rw [hp]
    trivial
  | crashed =>
    unfold PublisherOk
    rw [hp]
    trivial

theorem publisher_messages (event : Event) {p : Publisher} (h : PublisherOk db p) :
    ∀ work ∈ (publisherStep event p db).2.2, Refers db work := by
  intro work hwork
  unfold publisherStep at hwork
  unfold PublisherOk at h
  cases hp : p.phase <;> rw [hp] at hwork h <;> try cases hwork
  dsimp only at hwork
  split_ifs at hwork
  · rw [List.mem_singleton.1 hwork]
    exact h
  · cases hwork

end Publishers

section Workers

variable (ext : External) {db : Db}

theorem worker_change (event : Event) {x : Worker} (hinv : RowsInv db) (h : WorkerOk db x) :
    Change db (workerStep ext event x db).2.1 := by
  obtain ⟨hrefers, h⟩ := h
  unfold workerStep
  cases hp : x.phase with
  | loading =>
    dsimp only
    split_ifs
    · exact .refl db
    · exact change_of_carry _ (.refl db)
  | marking =>
    refine change_of_carry _ (change_of_update _ ?_)
    intro batchId o _ hstate
    cases hstate
  | executing =>
    rw [hp] at h
    unfold executeWork
    cases hrequest : toProtoRequest ext event.now x.work with
    | error e => exact .refl db
    | ok request =>
      refine change_of_carry _ ?_
      obtain rfl := toProtoRequest_eq_ok hrequest
      rcases executeSettlementBatch_cases ext event.env event.now (requestOf x.work) db with
        ⟨hops, hrecords, _⟩ | ⟨id, heffect, _⟩
      · exact .same hops hrecords
      · exact .executed x.work id hrefers h heffect
  | failing status =>
    refine change_of_carry _ (change_of_update _ ?_)
    intro batchId o _ hstate
    cases hstate
  | succeeding settlementBatchId =>
    rw [hp] at h
    obtain ⟨id, hcompleted, rfl⟩ := h
    refine change_of_carry _ (change_of_update _ ?_)
    intro batchId o hfound _ htrim
    have hkey := (updated_refers hinv.distinct hrefers rfl hfound).2
    obtain rfl := parseBatchId_text hfound.batchId
    rw [← hkey, htrim] at hcompleted
    exact ⟨id, hcompleted, rfl⟩
  | publishing operation => exact .refl db
  | confirming operation =>
    rw [hp] at h
    refine change_of_carry _ (change_of_update _ ?_)
    intro batchId o hfound hstate htrim
    obtain ⟨hsame, hbatch⟩ := h.2 o hfound.mem (updated_refers hinv.distinct hrefers rfl hfound).1
    have hs : o.operationState = .succeeded := hsame.trans hstate
    obtain ⟨id, hcompleted, hid⟩ := (hinv.agrees o hfound.mem htrim).1 hs
    have htext := hbatch hs htrim
    rw [hid] at htext
    have hparse : parseBatchId id.text = .ok batchId := by
      have := hfound.batchId
      change parseBatchId operation.settlementBatchId = _ at this
      rwa [htext] at this
    obtain rfl := parseBatchId_text hparse
    exact ⟨id, hcompleted, rfl⟩
  | returned e => exact .refl db
  | crashed => exact .refl db

theorem worker_ok (event : Event) {x : Worker} (hinv : RowsInv db) (h : WorkerOk db x) :
    WorkerOk (workerStep ext event x db).2.1 ⟨x.work, (workerStep ext event x db).1⟩ := by
  have hchange := worker_change ext event hinv h
  obtain ⟨hrefers, h⟩ := h
  refine ⟨hchange.refers hrefers, ?_⟩
  clear hchange
  unfold workerStep
  cases hp : x.phase with
  | loading =>
    dsimp only
    split_ifs
    · trivial
    · cases hr : (event.transport.carry db (getSettlementOperation x.work.operationId db, db)).1 with
      | error e => trivial
      | ok operation =>
        unfold afterLoad
        dsimp only
        split_ifs with hterminal hpublished
        · trivial
        · have hcarry := carry_eq_ok hr
          rw [hcarry] at hr ⊢
          obtain ⟨o, ho, hparse, rfl⟩ := getSettlementOperation_eq_ok hr
          refine reports_of_status hterminal fun q hq hqid => ?_
          rw [← hqid, Uuid.parse_text] at hparse
          rw [hinv.unique hq ho (Option.some.inj hparse)]
        · trivial
  | marking =>
    unfold update
    dsimp only
    cases hr : (event.transport.carry db
        (updateSettlementOperation (markProcessing x.work.operationId) db)).1 with
    | error e => trivial
    | ok operation =>
      obtain ⟨hstate, hrow⟩ := reports_of_update hinv.distinct hrefers rfl hr
      intro o ho hid
      have := hrow o ho hid
      rw [this] at hstate
      exact .inl hstate
  | executing =>
    unfold executeWork
    cases hrequest : toProtoRequest ext event.now x.work with
    | error e => trivial
    | ok request =>
      dsimp only
      obtain rfl := toProtoRequest_eq_ok hrequest
      cases hr : (event.transport.carry db
          (executeSettlementBatch ext event.env event.now (requestOf x.work) db)).1 with
      | error e =>
        unfold afterExecute
        dsimp only
        split_ifs <;> trivial
      | ok response =>
        have hcarry := carry_eq_ok hr
        rw [hcarry] at hr ⊢
        rcases executeSettlementBatch_cases ext event.env event.now (requestOf x.work) db with
          ⟨_, _, e, he⟩ | ⟨id, heffect, hid⟩
        · rw [he] at hr
          cases hr
        · exact ⟨id, heffect.completed, (hid response hr).symm⟩
  | failing status =>
    unfold update
    dsimp only
    cases hr : (event.transport.carry db
        (updateSettlementOperation (markFailed x.work.operationId status) db)).1 with
    | error e => trivial
    | ok operation =>
      obtain ⟨hstate, hrow⟩ := reports_of_update hinv.distinct hrefers rfl hr
      exact reports_of_status (by rw [hstate]; rfl) hrow
  | succeeding settlementBatchId =>
    unfold update
    dsimp only
    cases hr : (event.transport.carry db
        (updateSettlementOperation (markSucceeded x.work.operationId settlementBatchId) db)).1 with
    | error e => trivial
    | ok operation =>
      obtain ⟨hstate, hrow⟩ := reports_of_update hinv.distinct hrefers rfl hr
      exact reports_of_status (by rw [hstate]; rfl) hrow
  | publishing operation =>
    rw [hp] at h
    cases event.publication with
    | error e => trivial
    | ok id => exact h
  | confirming operation =>
    unfold update
    dsimp only
    cases (event.transport.carry db
        (updateSettlementOperation (markPublished x.work.operationId operation) db)).1 <;> trivial
  | returned e => trivial
  | crashed => trivial

end Workers

section Runs

variable {ext : External}

theorem Inv.initial (db : Db) : Inv (initial db) where
  rows := ⟨fun _ h => absurd h (List.not_mem_nil), fun _ h => absurd h (List.not_mem_nil),
    fun _ h => absurd h (List.not_mem_nil)⟩
  topic := fun _ h => absurd h (List.not_mem_nil)
  publishers := fun _ h => absurd h (List.not_mem_nil)
  workers := fun _ h => absurd h (List.not_mem_nil)

theorem Inv.of_change {w w' : World} (h : Inv w) (hc : Change w.db w'.db) (ho : Orderly w w') :
    RowsInv w'.db ∧ (∀ work, Refers w.db work → Refers w'.db work) ∧
      (∀ p ∈ w.publishers, PublisherOk w'.db p) ∧ ∀ x ∈ w.workers, WorkerOk w'.db x := by
  have hrows := hc.rowsInv h.rows ho.2
  refine ⟨hrows, fun _ => hc.refers, fun p hp => (h.publishers p hp).mono fun _ => hc.refers, ?_⟩
  intro x hx
  refine (h.workers x hx).of_change h.rows hrows hc ?_
  intro o hmem hu hq hexec
  exact ho.1 o hmem hu hq x hx hexec

theorem Inv.of_step {w w' : World} (h : Inv w) (hs : Step ext w w') (ho : Orderly w w') : Inv w' := by
  cases hs with
  | idle => exact h
  | submitted work =>
    refine ⟨h.rows, h.topic, ?_, h.workers⟩
    intro p hp
    rcases List.mem_append.1 hp with hp | hp
    · exact h.publishers p hp
    · rw [List.mem_singleton.1 hp]
      trivial
  | delivered work sent =>
    refine ⟨h.rows, h.topic, h.publishers, ?_⟩
    intro x hx
    rcases List.mem_append.1 hx with hx | hx
    · exact h.workers x hx
    · rw [List.mem_singleton.1 hx]
      exact ⟨h.topic work sent, trivial⟩
  | published i event p mem =>
    have hok := h.publishers p mem
    obtain ⟨hrows, hrefers, hpublishers, hworkers⟩ := h.of_change (publisher_change event) ho
    refine ⟨hrows, ?_, ?_, hworkers⟩
    · intro work hwork
      rcases List.mem_append.1 hwork with hold | hnew
      · exact hrefers work (h.topic work hold)
      · exact hrefers work (publisher_messages event hok work hnew)
    · intro q hq
      rcases List.mem_or_eq_of_mem_set hq with hold | rfl
      · exact hpublishers q hold
      · exact publisher_ok event hok
  | worked i event x mem =>
    have hok := h.workers x mem
    obtain ⟨hrows, hrefers, hpublishers, hworkers⟩ :=
      h.of_change (worker_change ext event h.rows hok) ho
    refine ⟨hrows, fun work hwork => hrefers work (h.topic work hwork), hpublishers, ?_⟩
    intro y hy
    rcases List.mem_or_eq_of_mem_set hy with hold | rfl
    · exact hworkers y hold
    · exact worker_ok ext event h.rows hok
  | publisherCrashed i p mem =>
    refine ⟨h.rows, h.topic, ?_, h.workers⟩
    intro q hq
    rcases List.mem_or_eq_of_mem_set hq with hold | rfl
    · exact h.publishers q hold
    · trivial
  | workerCrashed i x mem =>
    refine ⟨h.rows, h.topic, h.publishers, ?_⟩
    intro y hy
    rcases List.mem_or_eq_of_mem_set hy with hold | rfl
    · exact h.workers y hold
    · exact ⟨(h.workers x mem).1, trivial⟩

theorem Inv.of_run (as : List Action) {w : World} (h : Inv w) (ho : OrderlyRun ext as w) :
    Inv (run ext as w) := by
  induction as generalizing w with
  | nil => exact h
  | cons a as ih => exact ih (h.of_step (perform_step ext a w) ho.1) ho.2

theorem Inv.agreement {w : World} (h : Inv w) : Agreement w.db := by
  intro o ho htrim
  obtain ⟨hs, hn⟩ := h.rows.agrees o ho htrim
  refine ⟨fun hu => hn ?_, hs⟩
  rcases hu with hu | hu | hu <;> rw [hu] <;> decide

/-- Along every orderly run of publishers, workers and the settlement service, durable operations
agree with idempotency records. -/
theorem orderly_run_agrees (ext : External) (db : Db) (actions : List Action)
    (h : OrderlyRun ext actions (initial db)) : Agreement (run ext actions (initial db)).db :=
  ((Inv.initial db).of_run actions h).agreement

end Runs

section Witnesses

def issueWork : Work where
  operationId := ""
  queuedAt := 0
  intent := intentIssue
  idempotencyKey := "issue-1"
  requestFingerprint := "market.issue_trade_instance.sha256:1"
  externalRequestId := "external-1"
  causedByCapsuleerId := sellerId
  createdByService := "market"
  requestId := ""
  operations := [
    .createNewTradeInstanceRow ⟨(Uuid.ofNat 100).text, "SELL", "OPEN", sellerId, 34, 60003760,
      10, 25, none⟩,
    .transferQuantityFromItemStackToItemStackEscrow ⟨sourceStackId.text, (Uuid.ofNat 101).text,
      (Uuid.ofNat 100).text, 10⟩]

def quietEvent : Event where
  transport := .delivered
  now := 0
  newId := .ofNat 200
  env := quietEnv 300
  publication := .ok "message-1"
  reaches := true

def settledOnce : List Action := [.submit issueWork] ++
  List.replicate 2 (.publisher 0 quietEvent) ++ [.deliver 0] ++
  List.replicate 6 (.worker 0 quietEvent)

theorem orderly_run_agrees_issue :
    OrderlyRun transparent settledOnce (initial (localDevWorld transparent)) ∧
      Agreement (run transparent settledOnce (initial (localDevWorld transparent))).db :=
  have h : OrderlyRun transparent settledOnce (initial (localDevWorld transparent)) := by
    decide +kernel
  ⟨h, orderly_run_agrees transparent _ _ h⟩

/-- A publication that is reported as failed although its message arrived: the worker has marked the
operation when the publisher marks it as failed, and executes it after that. -/
def lostPublication : List Action := [
  .submit issueWork,
  .publisher 0 quietEvent,
  .publisher 0 { quietEvent with publication := .error "connection reset" },
  .deliver 0,
  .worker 0 quietEvent,
  .worker 0 quietEvent,
  .publisher 0 quietEvent,
  .worker 0 quietEvent]

theorem lost_publication_disagrees :
    ¬ Agreement (run transparent lostPublication (initial (localDevWorld transparent))).db := by
  have h : ∃ o ∈ (run transparent lostPublication
      (initial (localDevWorld transparent))).db.settlementOperation.rows,
      trim o.idempotencyKey = o.idempotencyKey ∧ Unsettled o.operationState ∧
        IsCompleted (run transparent lostPublication (initial (localDevWorld transparent))).db
          o.idempotencyKey := by
    decide +kernel
  obtain ⟨o, ho, htrim, hu, hc⟩ := h
  intro hagree
  exact (hagree o ho htrim).1 hu hc

end Witnesses

end EveTrade.SettlementAgreement
