import EveTrade.SettlementAgreement

set_option autoImplicit false

/-!
# The life of a durable operation

What the calls of publishers and workers may do to the row of an operation, whatever else happens in
between: the shape every row keeps, and what a worker that holds an operation's status may rely on.
-/
namespace EveTrade.SettlementLifecycle

open KeyedTable FieldText UuidText SettlementTypes SettlementSchema SettlementExecutor
  SettlementWork SettlementService SettlementDelivery SettlementOperationChanges SettlementAgreement

section Rows

/-- What publishers and workers ask of the operation of a key. -/
inductive Asked (db : Db) (key : String) (r : UpdateSettlementOperationRequest) : Prop
  | processing (state : r.state = .processing) (batch : r.settlementBatchId = "")
      (failure : r.failureCode = "") (published : r.resultPublished = false)
  | failed (state : r.state = .failed) (batch : r.settlementBatchId = "")
  | succeeded (id : Uuid) (state : r.state = .succeeded) (batch : r.settlementBatchId = id.text)
      (failure : r.failureCode = "") (completed : Completed db (trim key) (some id))

/-- The row of an operation: only a settled one names a batch, that of the record of its key, and
only a failed one has a failure code. -/
inductive Shaped (db : Db) (o : SettlementOperationRow) : Prop
  | pending (state : o.operationState = .queued ∨ o.operationState = .processing)
      (batch : o.settlementBatchId = none) (failure : o.failureCode = none)
      (published : o.resultPublished = false)
  | failed (state : o.operationState = .failed) (batch : o.settlementBatchId = none)
  | succeeded (id : Uuid) (state : o.operationState = .succeeded)
      (batch : o.settlementBatchId = some id) (failure : o.failureCode = none)
      (completed : Completed db (trim o.idempotencyKey) (some id))

/-- What one call may make of a row; `db` is what the call leaves. -/
inductive Moves (db : Db) (o : SettlementOperationRow) : SettlementOperationRow → Prop
  | kept : Moves db o o
  | updated (r : UpdateSettlementOperationRequest) (batchId : Option Uuid)
      (parsed : parseBatchId r.settlementBatchId = .ok batchId)
      (transition : validOperationTransition o.operationState r.state = true)
      (asked : Asked db o.idempotencyKey r) : Moves db o (updatedOperation r batchId o)
  | succeeded (id : Uuid) (completed : Completed db (trim o.idempotencyKey) (some id)) :
      Moves db o (succeedOperation id o)

variable {db db' : Db} {o o' : SettlementOperationRow} {r : UpdateSettlementOperationRequest}

theorem Asked.mono {key : String} (h : Asked db key r)
    (hrecords : ∀ k batchId, Completed db k batchId → Completed db' k batchId) :
    Asked db' key r := by
  cases h with
  | processing state batch failure published => exact .processing state batch failure published
  | failed state batch => exact .failed state batch
  | succeeded id state batch failure completed =>
    exact .succeeded id state batch failure (hrecords _ _ completed)

theorem Shaped.mono (h : Shaped db o)
    (hrecords : ∀ k batchId, Completed db k batchId → Completed db' k batchId) : Shaped db' o := by
  cases h with
  | pending state batch failure published => exact .pending state batch failure published
  | failed state batch => exact .failed state batch
  | succeeded id state batch failure completed =>
    exact .succeeded id state batch failure (hrecords _ _ completed)

theorem Moves.operationId (h : Moves db o o') : o'.operationId = o.operationId := by
  cases h with
  | kept => rfl
  | updated r batchId _ _ _ => rfl
  | succeeded id _ => exact (succeedOperation_move id o).operationId

theorem Moves.idempotencyKey (h : Moves db o o') : o'.idempotencyKey = o.idempotencyKey := by
  cases h with
  | kept => rfl
  | updated r batchId _ _ _ => rfl
  | succeeded id _ => exact succeedOperation_key id o

theorem Moves.resultPublished (h : Moves db o o') (hp : o.resultPublished = true) :
    o'.resultPublished = true := by
  cases h with
  | kept => exact hp
  | updated r batchId _ _ _ =>
    dsimp only [updatedOperation]
    rw [hp, Bool.true_or]
  | succeeded id _ =>
    unfold succeedOperation
    split_ifs <;> exact hp

theorem parseBatchId_empty {batchId : Option Uuid} (h : parseBatchId "" = .ok batchId) :
    batchId = none := by
  have : parseBatchId "" = .ok none := by decide
  exact (Except.ok.inj (this.symm.trans h)).symm

theorem Moves.operationState (h : Moves db o o')
    (hend : isTerminalOperation o.operationState = true) :
    o'.operationState = o.operationState := by
  cases h with
  | kept => rfl
  | updated r batchId _ transition _ => exact transition_of_terminal transition hend
  | succeeded id _ => exact (succeedOperation_move id o).terminal hend

theorem updated_shaped {batchId : Option Uuid} (hshape : Shaped db o)
    (parsed : parseBatchId r.settlementBatchId = .ok batchId)
    (transition : validOperationTransition o.operationState r.state = true)
    (asked : Asked db o.idempotencyKey r) : Shaped db (updatedOperation r batchId o) := by
  cases asked with
  | processing state batch failure published =>
    rw [batch] at parsed
    obtain rfl := parseBatchId_empty parsed
    rw [state] at transition
    cases hshape with
    | pending _ hbatch _ hpublished =>
      refine .pending (.inr state) hbatch ?_ ?_
      · dsimp only [updatedOperation]
        rw [failure]
        rfl
      · dsimp only [updatedOperation]
        rw [hpublished, published]
        rfl
    | failed hstate _ =>
      rw [hstate] at transition
      cases transition
    | succeeded _ hstate _ _ _ =>
      rw [hstate] at transition
      cases transition
  | failed state batch =>
    rw [batch] at parsed
    obtain rfl := parseBatchId_empty parsed
    rw [state] at transition
    cases hshape with
    | pending _ hbatch _ _ => exact .failed state hbatch
    | failed _ hbatch => exact .failed state hbatch
    | succeeded _ hstate _ _ _ =>
      rw [hstate] at transition
      cases transition
  | succeeded id state batch failure completed =>
    rw [batch] at parsed
    obtain rfl := parseBatchId_text parsed
    refine .succeeded id state rfl ?_ completed
    dsimp only [updatedOperation]
    rw [failure]
    rfl

theorem succeeded_shaped {id : Uuid} (hshape : Shaped db o)
    (completed : Completed db (trim o.idempotencyKey) (some id)) :
    Shaped db (succeedOperation id o) := by
  cases hshape with
  | pending state batch failure published =>
    have hstate : o.operationState = .queued ∨ o.operationState = .processing ∨
        o.operationState = .succeeded := by
      rcases state with h | h
      · exact .inl h
      · exact .inr (.inl h)
    unfold succeedOperation
    rw [if_pos hstate]
    exact .succeeded id rfl rfl failure completed
  | failed state batch =>
    unfold succeedOperation
    rw [if_neg (by rw [state]; decide)]
    exact .failed state batch
  | succeeded _ state _ failure _ =>
    unfold succeedOperation
    rw [if_pos (.inr (.inr state))]
    exact .succeeded id rfl rfl failure completed

theorem Moves.shaped (h : Moves db o o') (hshape : Shaped db o) : Shaped db o' := by
  cases h with
  | kept => exact hshape
  | updated r batchId parsed transition asked => exact updated_shaped hshape parsed transition asked
  | succeeded id completed => exact succeeded_shaped hshape completed

theorem Moves.settlementBatchId (h : Moves db o o') (hshape : Shaped db o)
    (hend : isTerminalOperation o.operationState = true) :
    o'.settlementBatchId = o.settlementBatchId := by
  have hstate := h.operationState hend
  have hkey := h.idempotencyKey
  have hshape' := h.shaped hshape
  cases hshape with
  | pending state _ _ _ =>
    rcases state with hs | hs <;> rw [hs] at hend <;> cases hend
  | failed state batch =>
    rw [state] at hstate
    cases hshape' with
    | pending state' _ _ _ =>
      rw [hstate] at state'
      rcases state' with hs | hs <;> cases hs
    | failed _ batch' => rw [batch, batch']
    | succeeded _ state' _ _ _ =>
      rw [hstate] at state'
      cases state'
  | succeeded id state batch _ completed =>
    rw [state] at hstate
    cases hshape' with
    | pending state' _ _ _ =>
      rw [hstate] at state'
      rcases state' with hs | hs <;> cases hs
    | failed state' _ =>
      rw [hstate] at state'
      cases state'
    | succeeded id' _ batch' _ completed' =>
      rw [hkey] at completed'
      rw [batch, batch', completed'.unique completed]

theorem Shaped.published (h : Shaped db o) (hp : o.resultPublished = true) :
    isTerminalOperation o.operationState = true := by
  cases h with
  | pending _ _ _ published =>
    rw [hp] at published
    cases published
  | failed state _ =>
    rw [state]
    rfl
  | succeeded _ state _ _ _ =>
    rw [state]
    rfl

end Rows

section Calls

/-- The operation has just been queued, under an id of its own. -/
structure Added (db : Db) (o : SettlementOperationRow) : Prop where
  queued : ∃ now id request, o = queuedOperation now id request
  fresh : ∀ q ∈ db.settlementOperation.rows, q.operationId ≠ o.operationId

/-- What one call may do to the operations, whatever the other parties have done. -/
structure Evolution (db db' : Db) : Prop where
  records : ∀ k batchId, Completed db k batchId → Completed db' k batchId
  forward : ∀ o ∈ db.settlementOperation.rows, ∃ o' ∈ db'.settlementOperation.rows, Moves db' o o'
  backward : ∀ o' ∈ db'.settlementOperation.rows,
    (∃ o ∈ db.settlementOperation.rows, Moves db' o o') ∨ Added db o'
  once : ∀ o ∈ db'.settlementOperation.rows, ∀ q ∈ db'.settlementOperation.rows,
    Added db o → Added db q → o = q

variable {db db' : Db}

theorem evolution_of_kept (hoperations : db'.settlementOperation = db.settlementOperation)
    (hrecords : ∀ k batchId, Completed db k batchId → Completed db' k batchId) :
    Evolution db db' := by
  refine ⟨hrecords, ?_, ?_, ?_⟩ <;> rw [hoperations]
  · exact fun o ho => ⟨o, ho, .kept⟩
  · exact fun o ho => .inl ⟨o, ho, .kept⟩
  · exact fun o ho _ _ hadded => absurd rfl (hadded.fresh o ho)

theorem Evolution.refl (db : Db) : Evolution db db := evolution_of_kept rfl fun _ _ => id

theorem evolution_of_modify {key : String} {f : SettlementOperationRow → SettlementOperationRow}
    (hf : ∀ o, (f o).idempotencyKey = o.idempotencyKey)
    (hoperations : db'.settlementOperation = db.settlementOperation.modify key f)
    (hrecords : ∀ k batchId, Completed db k batchId → Completed db' k batchId)
    (hmoves : ∀ o ∈ db.settlementOperation.rows, o.idempotencyKey = key → Moves db' o (f o)) :
    Evolution db db' := by
  have hmoved : ∀ o ∈ db.settlementOperation.rows,
      Moves db' o (if Keyed.key o = key then f o else o) := by
    intro o ho
    split_ifs with hk
    · exact hmoves o ho hk
    · exact .kept
  have horigin : ∀ o' ∈ (db.settlementOperation.modify key f).rows,
      ∃ o ∈ db.settlementOperation.rows, Moves db' o o' := by
    intro o' ho'
    obtain ⟨o, ho, rfl⟩ := (Table.mem_modify _ key f hf o').1 ho'
    exact ⟨o, ho, hmoved o ho⟩
  refine ⟨hrecords, ?_, ?_, ?_⟩ <;> rw [hoperations]
  · intro o ho
    exact ⟨_, (Table.mem_modify _ key f hf _).2 ⟨o, ho, rfl⟩, hmoved o ho⟩
  · exact fun o' ho' => .inl (horigin o' ho')
  · intro o' ho' _ _ hadded
    obtain ⟨o, ho, hm⟩ := horigin o' ho'
    exact absurd hm.operationId.symm (hadded.fresh o ho)

theorem evolution_of_queue (now : DateTime) (id : Uuid)
    (request : QueueSettlementOperationRequest) :
    Evolution db (queueSettlementOperation now id request db).2 := by
  rcases queueSettlementOperation_cases now id request db with
    ⟨e, h⟩ | ⟨o, _, _, h⟩ | ⟨operations, hinsert, hfresh, h⟩ <;> rw [h]
  · exact .refl db
  · exact .refl db
  · refine ⟨fun _ _ h => h, ?_, ?_, ?_⟩
    · intro o ho
      exact ⟨o, (Table.mem_insert hinsert).2 (.inl ho), .kept⟩
    · intro o' ho'
      rcases (Table.mem_insert hinsert).1 ho' with hold | rfl
      · exact .inl ⟨o', hold, .kept⟩
      · exact .inr ⟨⟨now, id, request, rfl⟩, hfresh⟩
    · intro o ho q hq hadded hadded'
      rcases (Table.mem_insert hinsert).1 ho with hold | rfl
      · exact absurd rfl (hadded.fresh o hold)
      · rcases (Table.mem_insert hinsert).1 hq with hold | rfl
        · exact absurd rfl (hadded'.fresh q hold)
        · rfl

theorem evolution_of_update (request : UpdateSettlementOperationRequest)
    (hasked : ∀ batchId o, Updated request db batchId o → Asked db o.idempotencyKey request) :
    Evolution db (updateSettlementOperation request db).2 := by
  rcases updateSettlementOperation_cases request db with ⟨e, h⟩ | ⟨batchId, o, hfound, h⟩ <;> rw [h]
  · exact .refl db
  · refine evolution_of_modify (f := updatedOperation request batchId) (fun _ => rfl) rfl
      (fun _ _ => id) ?_
    intro q hq hk
    obtain rfl := updated_unique hfound hq hk
    exact .updated request batchId hfound.batchId hfound.transition
      ((hasked batchId q hfound).mono fun _ _ h => h)

theorem evolution_of_execute (ext : External) (env : ExecEnv) (now : DateTime)
    (request : ExecuteSettlementBatchRequest) :
    Evolution db (executeSettlementBatch ext env now request db).2 := by
  rcases executeSettlementBatch_cases ext env now request db with
    ⟨hoperations, hrecords, _⟩ | ⟨id, heffect, _⟩
  · exact evolution_of_kept hoperations fun k batchId => (hrecords k batchId).2
  · refine evolution_of_modify (succeedOperation_key id) heffect.operations ?_ ?_
    · intro k batchId hc
      by_cases hk : k = trim request.idempotencyKey
      · subst hk
        rw [heffect.kept batchId hc]
        exact heffect.completed
      · exact (heffect.others k batchId hk).2 hc
    · intro o _ hk
      refine .succeeded id ?_
      rw [hk, trim_trim]
      exact heffect.completed

theorem evolution_of_carry {α : Type} (t : Transport) {call : Except Status α × Db}
    (h : Evolution db call.2) : Evolution db (t.carry db call).2 := by
  rcases carry_db db t call with hdb | hdb <;> rw [hdb]
  · exact .refl db
  · exact h

theorem Evolution.refers (h : Evolution db db') {work : Work} (hr : Refers db work) :
    Refers db' work := by
  obtain ⟨o, ho, hid, hkey⟩ := hr
  obtain ⟨o', ho', hm⟩ := h.forward o ho
  exact ⟨o', ho', by rw [hm.operationId, hid], by rw [hm.idempotencyKey, hkey]⟩

theorem Evolution.distinct (h : Evolution db db') (hids : DistinctIds db) : DistinctIds db' := by
  intro o' ho' q' hq' he
  rcases h.backward o' ho' with ⟨o, ho, mo⟩ | hadded
  · rcases h.backward q' hq' with ⟨q, hq, mq⟩ | hadded
    · have hsame : o = q := hids o ho q hq (by rw [← mo.operationId, ← mq.operationId, he])
      apply Table.mem_unique ho' hq'
      change o'.idempotencyKey = q'.idempotencyKey
      rw [mo.idempotencyKey, mq.idempotencyKey, hsame]
    · exact absurd (mo.operationId.symm.trans he) (hadded.fresh o ho)
  · rcases h.backward q' hq' with ⟨q, hq, mq⟩ | hadded'
    · exact absurd (mq.operationId.symm.trans he.symm) (hadded.fresh q hq)
    · exact h.once o' ho' q' hq' hadded hadded'

theorem Evolution.shaped (h : Evolution db db')
    (hrows : ∀ o ∈ db.settlementOperation.rows, Shaped db o) :
    ∀ o ∈ db'.settlementOperation.rows, Shaped db' o := by
  intro o' ho'
  rcases h.backward o' ho' with ⟨o, ho, hm⟩ | ⟨⟨now, id, request, rfl⟩, _⟩
  · exact hm.shaped ((hrows o ho).mono h.records)
  · exact .pending (.inl rfl) rfl rfl rfl

end Calls

section Parties

variable {db db' : Db}
variable {operation : SettlementOperationStatus} {work : Work} {x : Worker}

/-- The status of an operation of the key that has ended. -/
inductive Ended (db : Db) (key : String) (operation : SettlementOperationStatus) : Prop
  | failed (state : operation.state = .failed) (batch : operation.settlementBatchId = "")
  | succeeded (id : Uuid) (state : operation.state = .succeeded)
      (batch : operation.settlementBatchId = id.text) (failure : operation.failureCode = "")
      (completed : Completed db (trim key) (some id))

theorem Ended.mono {key : String} (h : Ended db key operation)
    (hrecords : ∀ k batchId, Completed db k batchId → Completed db' k batchId) :
    Ended db' key operation := by
  cases h with
  | failed state batch => exact .failed state batch
  | succeeded id state batch failure completed =>
    exact .succeeded id state batch failure (hrecords _ _ completed)

theorem Ended.terminal {key : String}
    (h : Ended db key operation) : isTerminalOperation operation.state = true := by
  cases h with
  | failed state _ =>
    rw [state]
    rfl
  | succeeded _ state _ _ _ =>
    rw [state]
    rfl

theorem Shaped.ended {o : SettlementOperationRow} (h : Shaped db o)
    (hend : isTerminalOperation o.operationState = true) :
    Ended db o.idempotencyKey (operationStatus o) := by
  cases h with
  | pending state _ _ _ =>
    rcases state with hs | hs <;> rw [hs] at hend <;> cases hend
  | failed state batch =>
    refine .failed state ?_
    dsimp only [operationStatus]
    rw [batch]
    rfl
  | succeeded id state batch failure completed =>
    refine .succeeded id state ?_ ?_ completed
    · dsimp only [operationStatus]
      rw [batch]
      rfl
    · dsimp only [operationStatus]
      rw [failure]
      rfl

def Held (db : Db) (work : Work) (operation : SettlementOperationStatus) : Prop :=
  Ended db work.idempotencyKey operation ∧
    ∀ o ∈ db.settlementOperation.rows, o.operationId.text = work.operationId →
      o.operationState = operation.state

def Tracks (db : Db) (x : Worker) : Prop :=
  Refers db x.work ∧
    match x.phase with
    | .succeeding settlementBatchId =>
      ∃ id, Completed db (trim x.work.idempotencyKey) (some id) ∧ id.text = settlementBatchId
    | .publishing operation => Held db x.work operation
    | .confirming operation => Held db x.work operation
    | _ => True

structure Tracked (w : World) : Prop where
  ids : DistinctIds w.db
  rows : ∀ o ∈ w.db.settlementOperation.rows, Shaped w.db o
  topic : ∀ work ∈ w.topic, Refers w.db work
  publishers : ∀ p ∈ w.publishers, PublisherOk w.db p
  workers : ∀ x ∈ w.workers, Tracks w.db x

theorem Evolution.row {o' : SettlementOperationRow} (h : Evolution db db')
    (hrefers : Refers db work) (ho' : o' ∈ db'.settlementOperation.rows)
    (hid : o'.operationId.text = work.operationId) :
    ∃ o ∈ db.settlementOperation.rows, o.operationId.text = work.operationId ∧ Moves db' o o' := by
  rcases h.backward o' ho' with ⟨o, ho, hm⟩ | hadded
  · exact ⟨o, ho, by rw [← hm.operationId, hid], hm⟩
  · obtain ⟨q, hq, hqid, _⟩ := hrefers
    exact absurd (Uuid.text_injective (hqid.trans hid.symm)) (hadded.fresh q hq)

theorem Held.evolve
    (h : Held db work operation) (hrefers : Refers db work) (hev : Evolution db db') :
    Held db' work operation := by
  refine ⟨h.1.mono hev.records, ?_⟩
  intro o' ho' hid
  obtain ⟨o, ho, hoid, hm⟩ := hev.row hrefers ho' hid
  have hstate := h.2 o ho hoid
  rw [hm.operationState (by rw [hstate]; exact h.1.terminal), hstate]

theorem Tracks.evolve (h : Tracks db x) (hev : Evolution db db') : Tracks db' x := by
  obtain ⟨hrefers, h⟩ := h
  refine ⟨hev.refers hrefers, ?_⟩
  cases hp : x.phase with
  | succeeding settlementBatchId =>
    rw [hp] at h
    obtain ⟨id, hc, hid⟩ := h
    exact ⟨id, hev.records _ _ hc, hid⟩
  | publishing operation =>
    rw [hp] at h
    exact h.evolve hrefers hev
  | confirming operation =>
    rw [hp] at h
    exact h.evolve hrefers hev
  | loading => trivial
  | marking => trivial
  | executing => trivial
  | failing e => trivial
  | returned e => trivial
  | crashed => trivial

def publisherUpdate (p : Publisher) : Option UpdateSettlementOperationRequest :=
  match p.phase with
  | .failing _ => some (publicationFailed p.work.operationId)
  | _ => none

def workerUpdate (x : Worker) : Option UpdateSettlementOperationRequest :=
  match x.phase with
  | .marking => some (markProcessing x.work.operationId)
  | .failing status => some (markFailed x.work.operationId status)
  | .succeeding settlementBatchId => some (markSucceeded x.work.operationId settlementBatchId)
  | .confirming operation => some (markPublished x.work.operationId operation)
  | _ => none

/-- A request that some work makes of its own operation. -/
structure Made (db : Db) (work : Work) (r : UpdateSettlementOperationRequest) : Prop where
  refers : Refers db work
  operationId : r.operationId = work.operationId
  asked : Asked db work.idempotencyKey r

theorem publisherUpdate_made {p : Publisher} {r : UpdateSettlementOperationRequest}
    (h : PublisherOk db p) (hr : publisherUpdate p = some r) : Made db p.work r := by
  unfold publisherUpdate at hr
  unfold PublisherOk at h
  cases hp : p.phase <;> rw [hp] at hr h <;> cases hr
  exact ⟨h, rfl, .failed rfl rfl⟩

theorem workerUpdate_made {r : UpdateSettlementOperationRequest} (h : Tracks db x)
    (hr : workerUpdate x = some r) : Made db x.work r := by
  obtain ⟨hrefers, h⟩ := h
  unfold workerUpdate at hr
  cases hp : x.phase with
  | marking =>
    rw [hp] at hr
    obtain rfl := Option.some.inj hr
    exact ⟨hrefers, rfl, .processing rfl rfl rfl rfl⟩
  | failing status =>
    rw [hp] at hr
    obtain rfl := Option.some.inj hr
    exact ⟨hrefers, rfl, .failed rfl rfl⟩
  | succeeding settlementBatchId =>
    rw [hp] at hr h
    obtain rfl := Option.some.inj hr
    obtain ⟨id, hcompleted, rfl⟩ := h
    exact ⟨hrefers, rfl, .succeeded id rfl rfl rfl hcompleted⟩
  | confirming operation =>
    rw [hp] at hr h
    obtain rfl := Option.some.inj hr
    refine ⟨hrefers, rfl, ?_⟩
    cases h.1 with
    | failed state batch => exact .failed state batch
    | succeeded id state batch failure completed =>
      exact .succeeded id state batch failure completed
  | loading => rw [hp] at hr; cases hr
  | executing => rw [hp] at hr; cases hr
  | publishing operation => rw [hp] at hr; cases hr
  | returned e => rw [hp] at hr; cases hr
  | crashed => rw [hp] at hr; cases hr

theorem Made.evolution {r : UpdateSettlementOperationRequest} (hids : DistinctIds db)
    (h : Made db work r) : Evolution db (updateSettlementOperation r db).2 := by
  refine evolution_of_update r fun batchId o hfound => ?_
  rw [(updated_refers hids h.refers h.operationId hfound).2]
  exact h.asked

theorem publisher_evolution (event : Event) {p : Publisher} (hids : DistinctIds db)
    (h : PublisherOk db p) : Evolution db (publisherStep event p db).2.1 := by
  unfold publisherStep
  cases hp : p.phase with
  | queueing => exact evolution_of_carry _ (evolution_of_queue _ _ _)
  | publishing => exact .refl db
  | failing e =>
    refine evolution_of_carry _ (Made.evolution hids (publisherUpdate_made h ?_))
    rw [publisherUpdate, hp]
  | returned r => exact .refl db
  | crashed => exact .refl db

variable (ext : External)

theorem worker_evolution (event : Event) (hids : DistinctIds db) (h : Tracks db x) :
    Evolution db (workerStep ext event x db).2.1 := by
  have hupdate : ∀ r, workerUpdate x = some r →
      Evolution db (event.transport.carry db (updateSettlementOperation r db)).2 :=
    fun r hr => evolution_of_carry _ ((workerUpdate_made h hr).evolution hids)
  unfold workerStep
  unfold workerUpdate at hupdate
  cases hp : x.phase with
  | loading =>
    dsimp only
    split_ifs
    · exact .refl db
    · exact evolution_of_carry _ (.refl db)
  | marking => exact hupdate _ (by rw [hp])
  | executing =>
    unfold executeWork
    cases toProtoRequest ext event.now x.work with
    | error e => exact .refl db
    | ok request => exact evolution_of_carry _ (evolution_of_execute ext _ _ request)
  | failing status => exact hupdate _ (by rw [hp])
  | succeeding settlementBatchId => exact hupdate _ (by rw [hp])
  | publishing operation => exact .refl db
  | confirming operation => exact hupdate _ (by rw [hp])
  | returned e => exact .refl db
  | crashed => exact .refl db

theorem held_of_status (hrows : ∀ o ∈ db.settlementOperation.rows, Shaped db o)
    (hrefers : Refers db work) (hend : isTerminalOperation operation.state = true)
    (h : ∀ o ∈ db.settlementOperation.rows, o.operationId.text = work.operationId →
      operation = operationStatus o) : Held db work operation := by
  refine ⟨?_, fun o ho hid => by rw [h o ho hid]; rfl⟩
  obtain ⟨o, ho, hid, hkey⟩ := hrefers
  rw [h o ho hid] at hend ⊢
  rw [← hkey]
  exact (hrows o ho).ended hend

theorem loaded_status
    (hids : DistinctIds db) (h : getSettlementOperation work.operationId db = .ok operation) :
    ∀ o ∈ db.settlementOperation.rows, o.operationId.text = work.operationId →
      operation = operationStatus o := by
  obtain ⟨q, hq, hparse, rfl⟩ := getSettlementOperation_eq_ok h
  intro o ho hid
  rw [← hid, Uuid.parse_text] at hparse
  rw [hids o ho q hq (Option.some.inj hparse)]

/-- Everything a step of a worker can come to. -/
inductive Progress (event : Event) (x : Worker) (db : Db) :
    WorkerPhase → Db → List SettlementResult → Prop
  | stopped (e : String) (db' : Db) : Progress event x db (.returned (some e)) db' []
  | acknowledged (operation : SettlementOperationStatus) (phase : x.phase = .loading)
      (loaded : getSettlementOperation x.work.operationId db = .ok operation)
      (ended : isTerminalOperation operation.state = true)
      (published : operation.resultPublished = true) : Progress event x db (.returned none) db []
  | resumed (operation : SettlementOperationStatus) (phase : x.phase = .loading)
      (loaded : getSettlementOperation x.work.operationId db = .ok operation)
      (ended : isTerminalOperation operation.state = true) :
      Progress event x db (.publishing operation) db []
  | opened (operation : SettlementOperationStatus) (phase : x.phase = .loading)
      (loaded : getSettlementOperation x.work.operationId db = .ok operation)
      (pending : isTerminalOperation operation.state = false) : Progress event x db .marking db []
  | marked (operation : SettlementOperationStatus) (phase : x.phase = .marking)
      (updated : (updateSettlementOperation (markProcessing x.work.operationId) db).1 =
        .ok operation) :
      Progress event x db .executing
        (updateSettlementOperation (markProcessing x.work.operationId) db).2 []
  | executed (response : ExecuteSettlementBatchResponse) (phase : x.phase = .executing)
      (answered : (executeSettlementBatch ext event.env event.now (requestOf x.work) db).1 =
        .ok response) :
      Progress event x db (.succeeding response.settlementBatchId)
        (executeSettlementBatch ext event.env event.now (requestOf x.work) db).2 []
  | refused (status : Status) (db' : Db) (phase : x.phase = .executing)
      (permanent : isPermanentError status.code = true) :
      Progress event x db (.failing status) db' []
  | recorded (r : UpdateSettlementOperationRequest) (operation : SettlementOperationStatus)
      (update : workerUpdate x = some r) (ended : isTerminalOperation r.state = true)
      (updated : (updateSettlementOperation r db).1 = .ok operation) :
      Progress event x db (.publishing operation) (updateSettlementOperation r db).2 []
  | unsent (e : String) (operation : SettlementOperationStatus)
      (phase : x.phase = .publishing operation) (failed : event.publication = .error e) :
      Progress event x db (.returned (some e)) db
        (if event.reaches then [resultOf x.work operation] else [])
  | sent (message : String) (operation : SettlementOperationStatus)
      (phase : x.phase = .publishing operation) (reported : event.publication = .ok message) :
      Progress event x db (.confirming operation) db
        (if event.reaches then [resultOf x.work operation] else [])
  | confirmed (operation status : SettlementOperationStatus)
      (phase : x.phase = .confirming operation)
      (updated : (updateSettlementOperation (markPublished x.work.operationId operation) db).1 =
        .ok status) :
      Progress event x db (.returned none)
        (updateSettlementOperation (markPublished x.work.operationId operation) db).2 []
  | returned (e : Option String) (phase : x.phase = .returned e) :
      Progress event x db (.returned e) db []
  | crashed (phase : x.phase = .crashed) : Progress event x db .crashed db []

theorem progress_of_load (event : Event) (hp : x.phase = .loading) :
    Progress ext event x db (workerStep ext event x db).1 (workerStep ext event x db).2.1
      (workerStep ext event x db).2.2 := by
  unfold workerStep
  rw [hp]
  dsimp only
  split_ifs
  · exact .stopped _ _
  · cases hr : (event.transport.carry db (getSettlementOperation x.work.operationId db, db)).1 with
    | error e => exact .stopped _ _
    | ok operation =>
      have hcarry := carry_eq_ok hr
      rw [hcarry] at hr ⊢
      dsimp only [afterLoad]
      split_ifs with hend hpublished
      · exact .acknowledged operation hp hr hend hpublished
      · exact .resumed operation hp hr hend
      · exact .opened operation hp hr (Bool.eq_false_iff.2 hend)

theorem progress_of_execute (event : Event) (hp : x.phase = .executing) :
    Progress ext event x db (workerStep ext event x db).1 (workerStep ext event x db).2.1
      (workerStep ext event x db).2.2 := by
  unfold workerStep
  rw [hp]
  dsimp only [executeWork]
  cases hrequest : toProtoRequest ext event.now x.work with
  | error e => exact .stopped _ _
  | ok request =>
    obtain rfl := toProtoRequest_eq_ok hrequest
    dsimp only
    cases hr : (event.transport.carry db
        (executeSettlementBatch ext event.env event.now (requestOf x.work) db)).1 with
    | error e =>
      dsimp only [afterExecute]
      split_ifs with hpermanent
      · exact .refused e _ hp hpermanent
      · exact .stopped _ _
    | ok response =>
      have hcarry := carry_eq_ok hr
      rw [hcarry] at hr ⊢
      exact .executed response hp hr

theorem progress_of_record (event : Event) {r : UpdateSettlementOperationRequest}
    {what : String} (hr : workerUpdate x = some r) (hend : isTerminalOperation r.state = true) :
    Progress ext event x db (update event r (afterRecord what) db).1
      (update event r (afterRecord what) db).2 [] := by
  dsimp only [update]
  cases ha : (event.transport.carry db (updateSettlementOperation r db)).1 with
  | error e => exact .stopped _ _
  | ok operation =>
    have hcarry := carry_eq_ok ha
    rw [hcarry] at ha ⊢
    exact .recorded r operation hr hend ha

theorem workerStep_progress (event : Event) (x : Worker) (db : Db) :
    Progress ext event x db (workerStep ext event x db).1 (workerStep ext event x db).2.1
      (workerStep ext event x db).2.2 := by
  cases hp : x.phase with
  | loading => exact progress_of_load ext event hp
  | executing => exact progress_of_execute ext event hp
  | marking =>
    unfold workerStep
    rw [hp]
    dsimp only [update]
    cases hr : (event.transport.carry db
        (updateSettlementOperation (markProcessing x.work.operationId) db)).1 with
    | error e => exact .stopped _ _
    | ok operation =>
      have hcarry := carry_eq_ok hr
      rw [hcarry] at hr ⊢
      exact .marked operation hp hr
  | failing status =>
    unfold workerStep
    rw [hp]
    exact progress_of_record ext event (by rw [workerUpdate, hp]) rfl
  | succeeding settlementBatchId =>
    unfold workerStep
    rw [hp]
    exact progress_of_record ext event (by rw [workerUpdate, hp]) rfl
  | publishing operation =>
    unfold workerStep
    rw [hp]
    dsimp only
    cases hr : event.publication with
    | error e => exact .unsent e operation hp hr
    | ok message => exact .sent message operation hp hr
  | confirming operation =>
    unfold workerStep
    rw [hp]
    dsimp only [update]
    cases hr : (event.transport.carry db
        (updateSettlementOperation (markPublished x.work.operationId operation) db)).1 with
    | error e => exact .stopped _ _
    | ok status =>
      have hcarry := carry_eq_ok hr
      rw [hcarry] at hr ⊢
      exact .confirmed operation status hp hr
  | returned e =>
    unfold workerStep
    rw [hp]
    exact .returned e hp
  | crashed =>
    unfold workerStep
    rw [hp]
    exact .crashed hp

theorem Made.answered {r : UpdateSettlementOperationRequest}
    (hids : DistinctIds db) (h : Made db work r)
    (hr : (updateSettlementOperation r db).1 = .ok operation) :
    operation.state = r.state ∧
      ∀ o ∈ (updateSettlementOperation r db).2.settlementOperation.rows,
        o.operationId.text = work.operationId → operation = operationStatus o :=
  reports_of_update (t := .delivered) hids h.refers h.operationId hr

theorem worker_tracks (event : Event) (hids : DistinctIds db)
    (hrows : ∀ o ∈ db.settlementOperation.rows, Shaped db o) (h : Tracks db x) :
    Tracks (workerStep ext event x db).2.1 ⟨x.work, (workerStep ext event x db).1⟩ := by
  have hev := worker_evolution ext event hids h
  have hprogress := workerStep_progress ext event x db
  generalize (workerStep ext event x db).1 = phase at *
  generalize (workerStep ext event x db).2.1 = db' at *
  generalize (workerStep ext event x db).2.2 = results at *
  refine ⟨hev.refers h.1, ?_⟩
  cases hprogress with
  | resumed operation _ loaded ended =>
    exact held_of_status hrows h.1 ended (loaded_status hids loaded)
  | executed response _ answered =>
    rcases executeSettlementBatch_cases ext event.env event.now (requestOf x.work) db with
      ⟨_, _, e, he⟩ | ⟨id, heffect, hid⟩
    · rw [he] at answered
      cases answered
    · exact ⟨id, heffect.completed, (hid response answered).symm⟩
  | recorded r operation hr ended updated =>
    obtain ⟨hstate, hrow⟩ := (workerUpdate_made h hr).answered hids updated
    exact held_of_status (hev.shaped hrows) (hev.refers h.1) (hstate ▸ ended) hrow
  | sent message operation phase _ =>
    have hheld := h.2
    rw [phase] at hheld
    exact hheld
  | stopped e _ => trivial
  | acknowledged operation _ _ _ _ => trivial
  | opened operation _ _ _ => trivial
  | marked operation _ _ => trivial
  | refused status _ _ _ => trivial
  | unsent e operation _ _ => trivial
  | confirmed operation status _ _ => trivial
  | returned e _ => trivial
  | crashed _ => trivial

def acknowledged (x : Worker) : Bool :=
  match x.phase with
  | .returned none => true
  | _ => false

theorem phase_of_acknowledged (h : acknowledged x = true) :
    x.phase = .returned none := by
  unfold acknowledged at h
  split at h
  · assumption
  · cases h

def HasEnded (db : Db) (operationId : String) : Prop :=
  ∃ o ∈ db.settlementOperation.rows, o.operationId.text = operationId ∧
    isTerminalOperation o.operationState = true

def Finishing : WorkerPhase → Prop
  | .publishing _ => True
  | .confirming _ => True
  | .returned _ => True
  | .crashed => True
  | _ => False

theorem finishing_step (event : Event) (h : Finishing x.phase) :
    Finishing (workerStep ext event x db).1 := by
  have hprogress := workerStep_progress ext event x db
  generalize (workerStep ext event x db).1 = phase at *
  generalize (workerStep ext event x db).2.1 = db' at *
  generalize (workerStep ext event x db).2.2 = results at *
  cases hprogress <;> try trivial
  case opened operation phase _ _ =>
    rw [phase] at h
    exact h.elim
  case marked operation phase _ =>
    rw [phase] at h
    exact h.elim
  case executed response phase _ =>
    rw [phase] at h
    exact h.elim
  case refused status phase _ =>
    rw [phase] at h
    exact h.elim

theorem finishing_of_load (event : Event) (hids : DistinctIds db)
    (hended : HasEnded db x.work.operationId) (hp : x.phase = .loading) :
    Finishing (workerStep ext event x db).1 := by
  have hprogress := workerStep_progress ext event x db
  generalize (workerStep ext event x db).1 = phase at *
  generalize (workerStep ext event x db).2.1 = db' at *
  generalize (workerStep ext event x db).2.2 = results at *
  cases hprogress <;> try trivial
  case opened operation _ loaded pending =>
    obtain ⟨o, ho, hid, hend⟩ := hended
    rw [loaded_status hids loaded o ho hid] at pending
    exact absurd hend (Bool.eq_false_iff.1 pending)
  case marked operation phase _ =>
    rw [hp] at phase
    cases phase
  case executed response phase _ =>
    rw [hp] at phase
    cases phase
  case refused status phase _ =>
    rw [hp] at phase
    cases phase

end Parties

section Runs

variable {ext : External}

theorem Tracked.initial (db : Db) : Tracked (initial db) where
  ids := fun _ h => absurd h (List.not_mem_nil)
  rows := fun _ h => absurd h (List.not_mem_nil)
  topic := fun _ h => absurd h (List.not_mem_nil)
  publishers := fun _ h => absurd h (List.not_mem_nil)
  workers := fun _ h => absurd h (List.not_mem_nil)

theorem Step.evolution {w w' : World} (h : Step ext w w') (hw : Tracked w) :
    Evolution w.db w'.db := by
  cases h with
  | idle => exact .refl w.db
  | submitted work => exact .refl w.db
  | delivered work sent => exact .refl w.db
  | published i event p mem => exact publisher_evolution event hw.ids (hw.publishers p mem)
  | worked i event x mem => exact worker_evolution ext event hw.ids (hw.workers x mem)
  | publisherCrashed i p mem => exact .refl w.db
  | workerCrashed i x mem => exact .refl w.db

theorem Tracked.of_step {w w' : World} (h : Tracked w) (hs : Step ext w w') : Tracked w' := by
  have hev := Step.evolution hs h
  have hids := hev.distinct h.ids
  have hrows := hev.shaped h.rows
  have htopic : ∀ work ∈ w.topic, Refers w'.db work :=
    fun work hwork => hev.refers (h.topic work hwork)
  have hpublishers : ∀ p ∈ w.publishers, PublisherOk w'.db p :=
    fun p hp => (h.publishers p hp).mono fun _ => hev.refers
  have hworkers : ∀ x ∈ w.workers, Tracks w'.db x := fun x hx => (h.workers x hx).evolve hev
  cases hs with
  | idle => exact h
  | submitted work =>
    refine ⟨hids, hrows, htopic, ?_, hworkers⟩
    intro p hp
    rcases List.mem_append.1 hp with hp | hp
    · exact hpublishers p hp
    · rw [List.mem_singleton.1 hp]
      trivial
  | delivered work sent =>
    refine ⟨hids, hrows, htopic, hpublishers, ?_⟩
    intro x hx
    rcases List.mem_append.1 hx with hx | hx
    · exact hworkers x hx
    · rw [List.mem_singleton.1 hx]
      exact ⟨htopic work sent, trivial⟩
  | published i event p mem =>
    have hok := h.publishers p mem
    refine ⟨hids, hrows, ?_, ?_, hworkers⟩
    · intro work hwork
      rcases List.mem_append.1 hwork with hold | hnew
      · exact htopic work hold
      · exact hev.refers (publisher_messages event hok work hnew)
    · intro q hq
      rcases List.mem_or_eq_of_mem_set hq with hold | rfl
      · exact hpublishers q hold
      · exact publisher_ok event hok
  | worked i event x mem =>
    refine ⟨hids, hrows, htopic, hpublishers, ?_⟩
    intro y hy
    rcases List.mem_or_eq_of_mem_set hy with hold | rfl
    · exact hworkers y hold
    · exact worker_tracks ext event h.ids h.rows (h.workers x mem)
  | publisherCrashed i p mem =>
    refine ⟨hids, hrows, htopic, ?_, hworkers⟩
    intro q hq
    rcases List.mem_or_eq_of_mem_set hq with hold | rfl
    · exact hpublishers q hold
    · trivial
  | workerCrashed i x mem =>
    refine ⟨hids, hrows, htopic, hpublishers, ?_⟩
    intro y hy
    rcases List.mem_or_eq_of_mem_set hy with hold | rfl
    · exact hworkers y hold
    · exact ⟨(hworkers x mem).1, trivial⟩

theorem run_tracked (as : List Action) {w : World} (h : Tracked w) : Tracked (run ext as w) := by
  induction as generalizing w with
  | nil => exact h
  | cons a as ih => exact ih (h.of_step (perform_step ext a w))

end Runs

end EveTrade.SettlementLifecycle
