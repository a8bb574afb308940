import EveTrade.SettlementService

set_option autoImplicit false

/-!
# Publishers, workers and the settlement service

A publisher queues a durable operation and publishes its work; a worker that receives work marks the
operation, executes the batch, records how it ended and publishes the result. Each makes its calls one
at a time. A call may be lost before or after it took effect, a message may reach its topic although
its publication is reported as failed, any message may be delivered again at any time, and a publisher
or a worker may crash between two calls.
-/
namespace EveTrade.SettlementDelivery

open KeyedTable FieldText UuidText SettlementTypes SettlementCommands SettlementSchema
  SettlementExecutor SettlementWork SettlementService

inductive Transport where
  | delivered
  | requestLost (status : Status)
  | responseLost (status : Status)

/-- What a caller sees of a call, and the rows the call leaves. -/
def Transport.carry {α : Type} (t : Transport) (db : Db) (call : Except Status α × Db) :
    Except Status α × Db :=
  match t with
  | delivered => call
  | requestLost status => (.error status, db)
  | responseLost status => (.error status, call.2)

/-- What one step takes from outside. A publication may reach its topic whatever it reports. -/
structure Event where
  transport : Transport
  now : DateTime
  newId : Uuid
  env : ExecEnv
  publication : Except String String
  reaches : Bool

structure SettlementPublication where
  messageId : String
  operationId : String
  queuedAt : DateTime
deriving DecidableEq

structure SettlementResult where
  operationId : String
  idempotencyKey : String
  requestId : String
  settlementBatchId : String
  batchState : OperationState
  failureCode : String
  failureDescription : String
deriving DecidableEq

section Publisher

inductive PublisherPhase where
  | queueing
  | publishing
  | failing (publishError : String)
  | returned (answer : Except String SettlementPublication)
  | crashed

structure Publisher where
  work : Work
  phase : PublisherPhase

def queueRequest (work : Work) : QueueSettlementOperationRequest where
  idempotencyKey := work.idempotencyKey
  requestFingerprint := work.requestFingerprint
  intent := settlementIntent work.intent
  causedByCapsuleerId := work.causedByCapsuleerId
  externalRequestId := work.externalRequestId

/-- Work that carries its operation, whose id is also its request id. -/
def queuedWork (work : Work) (operation : SettlementOperationStatus) : Work :=
  { work with
    operationId := operation.operationId
    queuedAt := operation.queuedAt
    requestId := operation.operationId }

def publicationFailed (operationId : String) : UpdateSettlementOperationRequest where
  operationId := operationId
  state := .failed
  settlementBatchId := ""
  failureCode := "WORK_PUBLICATION_FAILED"
  failureDescription := "settlement work could not be published"
  resultPublished := false

def afterQueue (work : Work) : Except Status SettlementOperationStatus → Publisher
  | .error e =>
    ⟨work, .returned (.error s!"queue durable settlement operation: {e.text}")⟩
  | .ok operation =>
    if operation.operationId = "" then
      ⟨work, .returned (.error "queue durable settlement operation returned incomplete status")⟩
    else ⟨queuedWork work operation, .publishing⟩

def afterPublish (work : Work) : Except String String → Publisher
  | .error e => ⟨work, .failing s!"publish settlement work: {e}"⟩
  | .ok messageId => ⟨work, .returned (.ok ⟨messageId, work.operationId, work.queuedAt⟩)⟩

def afterMark (work : Work) (publishError : String) :
    Except Status SettlementOperationStatus → Publisher
  | .error e =>
    ⟨work, .returned (.error
      (publishError ++ "\n" ++ s!"mark settlement publication failed: {e.text}"))⟩
  | .ok _ => ⟨work, .returned (.error publishError)⟩

/-- `PublishSettlementWork`, one call at a time: the publisher, the rows and the messages sent. -/
def publisherStep (event : Event) (p : Publisher) (db : Db) : Publisher × Db × List Work :=
  match p.phase with
  | .queueing =>
    let r := event.transport.carry db
      (queueSettlementOperation event.now event.newId (queueRequest p.work) db)
    (afterQueue p.work r.1, r.2, [])
  | .publishing =>
    (afterPublish p.work event.publication, db, if event.reaches then [p.work] else [])
  | .failing publishError =>
    let r := event.transport.carry db
      (updateSettlementOperation (publicationFailed p.work.operationId) db)
    (afterMark p.work publishError r.1, r.2, [])
  | .returned _ => (p, db, [])
  | .crashed => (p, db, [])

end Publisher

section Worker

inductive WorkerPhase where
  | loading
  | marking
  | executing
  | failing (status : Status)
  | succeeding (settlementBatchId : String)
  | publishing (operation : SettlementOperationStatus)
  | confirming (operation : SettlementOperationStatus)
  | returned (error : Option String)
  | crashed

structure Worker where
  work : Work
  phase : WorkerPhase

def isTerminalOperation (state : OperationState) : Bool :=
  [OperationState.succeeded, .failed, .cancelled, .expired].contains state

def isPermanentError : GrpcCode → Bool
  | .invalidArgument | .permissionDenied | .failedPrecondition | .notFound => true
  | _ => false

def markProcessing (operationId : String) : UpdateSettlementOperationRequest where
  operationId := operationId
  state := .processing
  settlementBatchId := ""
  failureCode := ""
  failureDescription := ""
  resultPublished := false

def markFailed (operationId : String) (status : Status) : UpdateSettlementOperationRequest where
  operationId := operationId
  state := .failed
  settlementBatchId := ""
  failureCode := status.code.text
  failureDescription := status.text
  resultPublished := false

def markSucceeded (operationId settlementBatchId : String) : UpdateSettlementOperationRequest where
  operationId := operationId
  state := .succeeded
  settlementBatchId := settlementBatchId
  failureCode := ""
  failureDescription := ""
  resultPublished := false

def markPublished (operationId : String) (operation : SettlementOperationStatus) :
    UpdateSettlementOperationRequest where
  operationId := operationId
  state := operation.state
  settlementBatchId := operation.settlementBatchId
  failureCode := operation.failureCode
  failureDescription := operation.failureDescription
  resultPublished := true

def resultOf (work : Work) (operation : SettlementOperationStatus) : SettlementResult where
  operationId := work.operationId
  idempotencyKey := work.idempotencyKey
  requestId := work.requestId
  settlementBatchId := operation.settlementBatchId
  batchState := operation.state
  failureCode := operation.failureCode
  failureDescription := operation.failureDescription

def afterLoad (work : Work) : Except Status SettlementOperationStatus → WorkerPhase
  | .error e => .returned (some s!"load settlement operation {work.operationId}: {e.text}")
  | .ok operation =>
    if isTerminalOperation operation.state then
      if operation.resultPublished then .returned none else .publishing operation
    else .marking

def afterProcessing : Except Status SettlementOperationStatus → WorkerPhase
  | .error e => .returned (some s!"mark settlement operation processing: {e.text}")
  | .ok _ => .executing

def afterExecute : Except Status ExecuteSettlementBatchResponse → WorkerPhase
  | .error e => if isPermanentError e.code then .failing e else .returned (some e.text)
  | .ok response => .succeeding response.settlementBatchId

/-- After the operation's end has been recorded; `what` names the record for the error. -/
def afterRecord (what : String) : Except Status SettlementOperationStatus → WorkerPhase
  | .error e => .returned (some (what ++ ": " ++ e.text))
  | .ok operation => .publishing operation

def afterResult (operation : SettlementOperationStatus) : Except String String → WorkerPhase
  | .error e => .returned (some e)
  | .ok _ => .confirming operation

def afterConfirm : Except Status SettlementOperationStatus → WorkerPhase
  | .error e => .returned (some s!"mark settlement result published: {e.text}")
  | .ok _ => .returned none

variable (ext : External)

/-- The call of `ExecuteSettlementBatch`, if the request built from the work passes its rules. -/
def executeWork (event : Event) (work : Work) (db : Db) : WorkerPhase × Db :=
  match toProtoRequest ext event.now work with
  | .error e => (.returned (some e), db)
  | .ok request =>
    let r := event.transport.carry db (executeSettlementBatch ext event.env event.now request db)
    (afterExecute r.1, r.2)

def update (event : Event) (request : UpdateSettlementOperationRequest)
    (next : Except Status SettlementOperationStatus → WorkerPhase) (db : Db) : WorkerPhase × Db :=
  let r := event.transport.carry db (updateSettlementOperation request db)
  (next r.1, r.2)

/-- `HandleSettlementWork`, one call at a time: the next phase, the rows and the results sent. -/
def workerStep (event : Event) (x : Worker) (db : Db) : WorkerPhase × Db × List SettlementResult :=
  match x.phase with
  | .loading =>
    if x.work.operationId = "" then
      (.returned (some "settlement work operation_id is required"), db, [])
    else
      let r := event.transport.carry db (getSettlementOperation x.work.operationId db, db)
      (afterLoad x.work r.1, r.2, [])
  | .marking =>
    let r := update event (markProcessing x.work.operationId) afterProcessing db
    (r.1, r.2, [])
  | .executing =>
    let r := executeWork ext event x.work db
    (r.1, r.2, [])
  | .failing status =>
    let r := update event (markFailed x.work.operationId status)
      (afterRecord "persist permanent settlement failure") db
    (r.1, r.2, [])
  | .succeeding settlementBatchId =>
    let r := update event (markSucceeded x.work.operationId settlementBatchId)
      (afterRecord "persist successful settlement result") db
    (r.1, r.2, [])
  | .publishing operation =>
    (afterResult operation event.publication, db,
      if event.reaches then [resultOf x.work operation] else [])
  | .confirming operation =>
    let r := update event (markPublished x.work.operationId operation) afterConfirm db
    (r.1, r.2, [])
  | .returned e => (.returned e, db, [])
  | .crashed => (.crashed, db, [])

end Worker

structure World where
  db : Db
  topic : List Work
  results : List SettlementResult
  publishers : List Publisher
  workers : List Worker

inductive Action where
  | submit (work : Work)
  | deliver (message : ℕ)
  | publisher (i : ℕ) (event : Event)
  | worker (i : ℕ) (event : Event)
  | crashPublisher (i : ℕ)
  | crashWorker (i : ℕ)

section Runs

variable (ext : External)

def perform (a : Action) (w : World) : World :=
  match a with
  | .submit work => { w with publishers := w.publishers ++ [⟨work, .queueing⟩] }
  | .deliver message =>
    match w.topic[message]? with
    | none => w
    | some work => { w with workers := w.workers ++ [⟨work, .loading⟩] }
  | .publisher i event =>
    match w.publishers[i]? with
    | none => w
    | some p =>
      let r := publisherStep event p w.db
      { w with db := r.2.1, topic := w.topic ++ r.2.2, publishers := w.publishers.set i r.1 }
  | .worker i event =>
    match w.workers[i]? with
    | none => w
    | some x =>
      let r := workerStep ext event x w.db
      { w with
        db := r.2.1, results := w.results ++ r.2.2,
        workers := w.workers.set i ⟨x.work, r.1⟩ }
  | .crashPublisher i =>
    match w.publishers[i]? with
    | none => w
    | some p => { w with publishers := w.publishers.set i ⟨p.work, .crashed⟩ }
  | .crashWorker i =>
    match w.workers[i]? with
    | none => w
    | some x => { w with workers := w.workers.set i ⟨x.work, .crashed⟩ }

/-- Everything one action can do. -/
inductive Step (w : World) : World → Prop
  | idle : Step w w
  | submitted (work : Work) :
      Step w { w with publishers := w.publishers ++ [⟨work, .queueing⟩] }
  | delivered (work : Work) (sent : work ∈ w.topic) :
      Step w { w with workers := w.workers ++ [⟨work, .loading⟩] }
  | published (i : ℕ) (event : Event) (p : Publisher) (mem : p ∈ w.publishers) :
      Step w { w with
        db := (publisherStep event p w.db).2.1,
        topic := w.topic ++ (publisherStep event p w.db).2.2,
        publishers := w.publishers.set i (publisherStep event p w.db).1 }
  | worked (i : ℕ) (event : Event) (x : Worker) (mem : x ∈ w.workers) :
      Step w { w with
        db := (workerStep ext event x w.db).2.1,
        results := w.results ++ (workerStep ext event x w.db).2.2,
        workers := w.workers.set i ⟨x.work, (workerStep ext event x w.db).1⟩ }
  | publisherCrashed (i : ℕ) (p : Publisher) (mem : p ∈ w.publishers) :
      Step w { w with publishers := w.publishers.set i ⟨p.work, .crashed⟩ }
  | workerCrashed (i : ℕ) (x : Worker) (mem : x ∈ w.workers) :
      Step w { w with workers := w.workers.set i ⟨x.work, .crashed⟩ }

theorem perform_step (a : Action) (w : World) : Step ext w (perform ext a w) := by
  cases a with
  | submit work => exact .submitted work
  | deliver message =>
    cases h : w.topic[message]? with
    | none => simpa only [perform, h] using Step.idle
    | some work => simpa only [perform, h] using Step.delivered work (List.mem_of_getElem? h)
  | publisher i event =>
    cases h : w.publishers[i]? with
    | none => simpa only [perform, h] using Step.idle
    | some p => simpa only [perform, h] using Step.published i event p (List.mem_of_getElem? h)
  | worker i event =>
    cases h : w.workers[i]? with
    | none => simpa only [perform, h] using Step.idle
    | some x => simpa only [perform, h] using Step.worked i event x (List.mem_of_getElem? h)
  | crashPublisher i =>
    cases h : w.publishers[i]? with
    | none => simpa only [perform, h] using Step.idle
    | some p => simpa only [perform, h] using Step.publisherCrashed i p (List.mem_of_getElem? h)
  | crashWorker i =>
    cases h : w.workers[i]? with
    | none => simpa only [perform, h] using Step.idle
    | some x => simpa only [perform, h] using Step.workerCrashed i x (List.mem_of_getElem? h)

def run : List Action → World → World
  | [], w => w
  | a :: as, w => run as (perform ext a w)

def initial (db : Db) : World := ⟨{ db with settlementOperation := .empty }, [], [], [], []⟩

end Runs

end EveTrade.SettlementDelivery
