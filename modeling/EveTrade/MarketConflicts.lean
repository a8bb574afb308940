import EveTrade.GatewayResponses
import EveTrade.MarketFingerprints
import EveTrade.MarketResubmission

set_option autoImplicit false

/-!
# Two requests under one key

A key that names another request is noticed in two places. The market finds the completed settlement
of the key before it plans; the settlement service finds the operation of the key when the planned
work is queued. Both refuse with `aborted`, but `executePlan` reports every failure to publish as
`unavailable`, so that only the first refusal reaches the client as it was given.
-/
namespace EveTrade.MarketConflicts

open KeyedTable UuidText TransactionMonad FieldText SettlementTypes SettlementSchema SettlementWork
  SettlementService
open EveTrade.SettlementDelivery (Event Publisher PublisherPhase SettlementPublication Transport
  afterQueue publisherStep queueRequest)
open GameTrade MarketRequests MarketReplay MarketRepository MarketHandler MarketResubmission
  MarketFingerprints GatewayResponses

section Codes

def errsCode : ErrCode → ErrsCode
  | .invalidArgument => .invalidArgument
  | .permissionDenied => .permissionDenied
  | .failedPrecondition => .failedPrecondition
  | .aborted => .aborted
  | .unavailable => .unavailable

def clientCode (e : ApiError) : String := stableDownstreamCode (.errs (errsCode e.code) e.message)

theorem clientCode_unavailable (text : String) :
    clientCode ⟨.unavailable, text⟩ = "downstream_unavailable" := rfl

end Codes

section Outcomes

def publish : List (Event × Db) → Publisher → Publisher × List Work
  | [], p => (p, [])
  | (event, db) :: calls, p =>
    let r := publisherStep event p db
    let later := publish calls r.1
    (later.1, r.2.2 ++ later.2)

/-- What has become of a request: its answer, unless the publisher is still at work, and the
messages that were sent for it. -/
structure Outcome where
  answer : Option (Except ApiError Unit)
  sent : List Work

def concluded {ρ : Type} (submission : Submission ρ) : PublisherPhase → Option (Except ApiError Unit)
  | .returned published => some ((submission.conclude published).map fun _ => ())
  | _ => none

/-- `executePlan` on what a handler has decided. -/
def executePlan {ρ : Type} (calls : List (Event × Db)) :
    Except ApiError (Submission ρ) → Outcome
  | .error e => ⟨some (.error e), []⟩
  | .ok (.replayed _) => ⟨some (.ok ()), []⟩
  | .ok (.planned work respond) =>
    let r := publish calls ⟨work, .queueing⟩
    ⟨concluded (.planned work respond) r.1.phase, r.2⟩

variable (ext : External) (now : DateTime) (db : Db)

def requestOutcome (calls : List (Event × Db)) : Request → Outcome
  | .issue m => executePlan calls (issueTradeInstance ext now db m)
  | .accept m => executePlan calls (acceptTradeInstance ext now db m)
  | .cancel m => executePlan calls (cancelTradeInstance ext db m)

/-- The work that a request could be planned as, were there no completed settlement of its key. -/
def plannable : Request → Option Work
  | .issue m => planned (submit ext (m.violations now) (.ok (none : Option Unit))
      (planIssue ext now db m) fun _ _ => ())
  | .accept m => planned (submit ext m.violations (.ok (none : Option Unit))
      (planAccept ext now db m) fun _ _ => ())
  | .cancel m => planned (submit ext m.violations (.ok (none : Option Unit))
      (planCancel ext db m) fun _ _ => ())

end Outcomes

section Operations

/-- The operation that was queued for a request. Its state, its batch and its failure may be any. -/
structure OperationOf (ext : External) (request : Request) (o : SettlementOperationRow) : Prop where
  key : o.idempotencyKey = request.idempotencyKey
  fingerprint : o.requestFingerprint = requestFingerprint ext request
  intent : o.intent = settlementIntent request.intent
  actor : o.causedByCapsuleerId = request.actor

variable {ext : External} {now : DateTime} {db : Db} {request : Request} {work : Work}

/-- What a plan of a request carries of it. -/
structure PlanOf (ext : External) (request : Request) (plan : SettlementPlan) : Prop where
  key : plan.idempotencyKey = request.idempotencyKey
  fingerprint : plan.requestFingerprint = requestFingerprint ext request
  intent : plan.intent = request.intent
  actor : plan.causedByCapsuleerId = request.actor

theorem planIssue_of {m : IssueTradeInstanceRequest} {plan : SettlementPlan}
    (h : planIssue ext now db m = .ok plan) : PlanOf ext (.issue m) plan := by
  obtain ⟨input, _, _, hkey, _, hactor, rfl⟩ := planIssue_eq_ok h
  exact ⟨hkey, rfl, rfl, hactor⟩

theorem planAccept_of {m : AcceptTradeInstanceRequest} {plan : SettlementPlan}
    (h : planAccept ext now db m = .ok plan) : PlanOf ext (.accept m) plan := by
  obtain ⟨_, _, _, _, _, _, rfl⟩ := planAccept_eq_ok h
  exact ⟨rfl, rfl, rfl, rfl⟩

theorem planCancel_of {m : CancelTradeInstanceRequest} {plan : SettlementPlan}
    (h : planCancel ext db m = .ok plan) : PlanOf ext (.cancel m) plan := by
  obtain ⟨input, hkey, _, hactor, rfl⟩ := planCancel_eq_ok h
  exact ⟨hkey, rfl, rfl, hactor⟩

theorem requestKind_eq_of_intent {a b : Request}
    (h : settlementIntent a.intent = settlementIntent b.intent) : requestKind a = requestKind b := by
  cases a <;> cases b <;> first | rfl | exact absurd h (by simp only [Request.intent]; decide)

theorem sameOperation_eq_false {first second : Request} {o : SettlementOperationRow}
    {plan : SettlementPlan} (ofFirst : OperationOf ext first o) (ofSecond : PlanOf ext second plan)
    (differ : second ≠ first)
    (noCollision : ext.sha256Hex (digested second) = ext.sha256Hex (digested first) →
      digested second = digested first) :
    sameOperation o (queueRequest (planWork plan)) = false := by
  by_contra hsame
  simp only [sameOperation, Bool.not_eq_false, Bool.and_eq_true, decide_eq_true_eq] at hsame
  obtain ⟨⟨hfingerprint, hintent⟩, _⟩ := hsame
  rw [ofFirst.intent] at hintent
  rw [ofFirst.fingerprint] at hfingerprint
  have hkind : requestKind second = requestKind first := by
    apply requestKind_eq_of_intent
    rw [← ofSecond.intent]
    exact hintent.symm
  apply differ
  apply request_eq_of_fingerprint hkind noCollision
  rw [← ofSecond.fingerprint]
  exact hfingerprint.symm

theorem queue_conflicts {request : QueueSettlementOperationRequest} {o : SettlementOperationRow}
    (hfind : db.settlementOperation.find? request.idempotencyKey = some o)
    (hother : sameOperation o request = false) (now : DateTime) (id : Uuid) :
    ∃ e, queueSettlementOperation now id request db = (.error e, db) := by
  unfold queueSettlementOperation
  cases intentName request.intent with
  | error e => exact ⟨e, rfl⟩
  | ok _ =>
    dsimp only
    split_ifs with hblank
    · exact ⟨_, rfl⟩
    · unfold findOrInsertOperation
      rw [hfind]
      dsimp only
      rw [hother]
      exact ⟨_, rfl⟩

theorem publisherStep_conflicts {o : SettlementOperationRow}
    (hfind : db.settlementOperation.find? work.idempotencyKey = some o)
    (hother : sameOperation o (queueRequest work) = false) (event : Event) :
    ∃ text db', publisherStep event ⟨work, .queueing⟩ db =
      (⟨work, .returned (.error text)⟩, db', []) := by
  have hkey : (queueRequest work).idempotencyKey = work.idempotencyKey := rfl
  rw [← hkey] at hfind
  obtain ⟨e, he⟩ := queue_conflicts hfind hother event.now event.newId
  simp only [publisherStep, he]
  cases event.transport with
  | delivered => exact ⟨_, _, rfl⟩
  | requestLost status => exact ⟨_, _, rfl⟩
  | responseLost status => exact ⟨_, _, rfl⟩

theorem publish_returned (calls : List (Event × Db)) (work : Work)
    (result : Except String SettlementPublication) :
    publish calls ⟨work, .returned result⟩ = (⟨work, .returned result⟩, []) := by
  induction calls with
  | nil => rfl
  | cons call calls ih =>
    simp only [publish, publisherStep, ih]
    rfl

end Operations

section Answers

variable {ext : External} {now : DateTime} {db : Db} {work : Work} {ρ : Type}
  {violations : List Violation} {plan : Except ApiError SettlementPlan}
  {respond : SettlementPlan → SettlementPublication → ρ}

theorem submit_of_plannable
    (h : planned (submit ext violations (.ok (none : Option Unit)) plan fun _ _ => ()) = some work)
    (replay : Except ApiError (Option ρ)) (respond : SettlementPlan → SettlementPublication → ρ) :
    violations = [] ∧ (∀ e, replay = .error e →
      submit ext violations replay plan respond = .error e) ∧
    ∃ p, plan = .ok p ∧ work = planWork p ∧ (replay = .ok none →
      submit ext violations replay plan respond = .ok (.planned work (respond p))) := by
  obtain ⟨hvalid, _, p, hp, rfl⟩ := planned_submit h
  subst hvalid hp
  refine ⟨rfl, ?_, p, rfl, rfl, ?_⟩
  · rintro e rfl
    rfl
  · rintro rfl
    have hsettle : settleTradeInstance p = .ok (planWork p) := by
      cases hs : settleTradeInstance p with
      | ok w => rw [settleTradeInstance_eq_ok hs]
      | error e =>
        change planned (apiError .invalidArgument (settleTradeInstance p) >>= fun work =>
          pure (.planned work fun _ => ())) = _ at h
        rw [hs] at h
        cases h
    change (apiError .invalidArgument (settleTradeInstance p) >>= fun work =>
      pure (Submission.planned work (respond p))) = _
    rw [hsettle]
    rfl

theorem replayRequest_eq_none {kind : RequestKind} {key body : String}
    {answer : IdempotencyReplay → Option ρ} (h : ¬ CompletedUnder db key) :
    replayRequest ext db kind key body answer = .ok none := by
  have hbatch : completedBatch db key = none := by
    cases hrecord : db.idempotencyRecord.find? key with
    | none => simp [completedBatch, hrecord]
    | some record =>
      have hstate : record.idempotencyState ≠ .completed := fun hstate => h ⟨record, hrecord, hstate⟩
      simp [completedBatch, hrecord, hstate]
  unfold replayRequest loadReplay loadCompletedIdempotencyReplay
  rw [hbatch]
  split_ifs
  · rfl
  · rfl

/-- A request that could be planned is answered with the conflict if its key has a completed
settlement, and is turned into work otherwise. -/
theorem executePlan_of_plannable (h : ExecutorRows ext db) {kind : RequestKind} {key body : String}
    {answer : IdempotencyReplay → Option ρ} (hkey : violations = [] → key ≠ "")
    (hplan : planned (submit ext violations (.ok (none : Option Unit)) plan fun _ _ => ()) =
      some work) (calls : List (Event × Db)) :
    (CompletedUnder db key →
      executePlan calls (submit ext violations (replayRequest ext db kind key body answer) plan
        respond) = ⟨some (.error (idempotencyConflict key)), []⟩) ∧
    ∃ p, plan = .ok p ∧ work = planWork p ∧ (¬ CompletedUnder db key →
      executePlan calls (submit ext violations (replayRequest ext db kind key body answer) plan
        respond) = executePlan calls (.ok (.planned work (respond p)))) := by
  obtain ⟨hvalid, herror, p, hp, hwork, hnone⟩ := submit_of_plannable hplan
    (replayRequest ext db kind key body answer) respond
  refine ⟨fun completed => ?_, p, hp, hwork, fun incomplete => ?_⟩
  · rw [herror _ (replayRequest_conflicts h (hkey hvalid) completed)]
    rfl
  · rw [hnone (replayRequest_eq_none incomplete)]

theorem executePlan_refused {o : SettlementOperationRow}
    (hfind : db.settlementOperation.find? work.idempotencyKey = some o)
    (hother : sameOperation o (queueRequest work) = false) (event : Event)
    (calls : List (Event × Db)) (respond : SettlementPublication → ρ) :
    ∃ text, executePlan ((event, db) :: calls) (.ok (.planned work respond)) =
      ⟨some (.error ⟨.unavailable, text⟩), []⟩ := by
  obtain ⟨text, db', hstep⟩ := publisherStep_conflicts hfind hother event
  simp only [executePlan, publish, hstep, publish_returned]
  exact ⟨_, rfl⟩

theorem requestOutcome_of_plannable (h : ExecutorRows ext db) {request : Request}
    (hplan : plannable ext now db request = some work) (calls : List (Event × Db)) :
    (CompletedUnder db request.idempotencyKey →
      requestOutcome ext now db calls request =
        ⟨some (.error (idempotencyConflict request.idempotencyKey)), []⟩) ∧
    ∃ p, PlanOf ext request p ∧ work = planWork p ∧ (¬ CompletedUnder db request.idempotencyKey →
      ∃ (τ : Type) (respond : SettlementPublication → τ),
        requestOutcome ext now db calls request =
          executePlan calls (.ok (.planned work respond))) := by
  have hkey : requestViolations now request = [] → request.idempotencyKey ≠ "" := key_ne_empty
  cases request with
  | issue m =>
    obtain ⟨hconflict, p, hp, hwork, hplanned⟩ := executePlan_of_plannable h hkey hplan calls
    exact ⟨hconflict, p, planIssue_of hp, hwork, fun hn => ⟨_, _, hplanned hn⟩⟩
  | accept m =>
    obtain ⟨hconflict, p, hp, hwork, hplanned⟩ := executePlan_of_plannable h hkey hplan calls
    exact ⟨hconflict, p, planAccept_of hp, hwork, fun hn => ⟨_, _, hplanned hn⟩⟩
  | cancel m =>
    obtain ⟨hconflict, p, hp, hwork, hplanned⟩ := executePlan_of_plannable h hkey hplan calls
    exact ⟨hconflict, p, planCancel_of hp, hwork, fun hn => ⟨_, _, hplanned hn⟩⟩

end Answers

section Claim

/-- A second request under the key of another sends no work, whatever the state of the operation of
the first. It is refused with a code that is not retryable exactly if the settlement of the key has
completed when the market looks for it; otherwise the client is told to try again. -/
theorem conflict_aborted_iff_completed (ext : External) (now : DateTime) (db : Db)
    (rows : ExecutorRows ext db) (first second : Request)
    (sameKey : second.idempotencyKey = first.idempotencyKey) (differ : second ≠ first)
    (noCollision : ext.sha256Hex (digested second) = ext.sha256Hex (digested first) →
      digested second = digested first)
    (canPlan : (plannable ext now db second).isSome = true)
    (event : Event) (queued : Db) (calls : List (Event × Db)) (o : SettlementOperationRow)
    (found : queued.settlementOperation.find? first.idempotencyKey = some o)
    (ofFirst : OperationOf ext first o) :
    (requestOutcome ext now db ((event, queued) :: calls) second).sent = [] ∧
    ∃ e, (requestOutcome ext now db ((event, queued) :: calls) second).answer = some (.error e) ∧
      (clientCode e = "aborted" ↔ CompletedUnder db second.idempotencyKey) ∧
      (isRetryableDownstreamCode (clientCode e) = false ↔
        CompletedUnder db second.idempotencyKey) := by
  obtain ⟨work, hplan⟩ := Option.isSome_iff_exists.1 canPlan
  obtain ⟨hconflict, p, hp, hwork, hplanned⟩ :=
    requestOutcome_of_plannable rows hplan ((event, queued) :: calls)
  by_cases completed : CompletedUnder db second.idempotencyKey
  · rw [hconflict completed]
    refine ⟨rfl, _, rfl, ?_, ?_⟩
    · exact iff_of_true rfl completed
    · exact iff_of_true rfl completed
  · obtain ⟨τ, respond, houtcome⟩ := hplanned completed
    have hfind : queued.settlementOperation.find? work.idempotencyKey = some o := by
      rw [hwork, ← found, ← sameKey, ← hp.key]
      rfl
    have hother : sameOperation o (queueRequest work) = false := by
      rw [hwork]
      exact sameOperation_eq_false ofFirst hp differ noCollision
    obtain ⟨text, hrefused⟩ := executePlan_refused hfind hother event calls respond
    rw [houtcome, hrefused]
    refine ⟨rfl, _, rfl, ?_, ?_⟩
    · exact iff_of_false (by rw [clientCode_unavailable]; decide) completed
    · exact iff_of_false (by rw [clientCode_unavailable]; decide) completed

end Claim

section Seeded

open LocalDevWorld
open EveTrade.MarketPlanning (offer)

def otherOffer : Request := .issue {
  idempotencyKey := "issue"
  externalRequestId := "issue"
  issuedByCapsuleerId := sellerId
  itemStack := some ⟨sourceStackId.text, sellerId, 34, 60003760, 100⟩
  quantity := 20
  unitPriceIsk := 25
  expiresAt := none }

theorem queuedOffer_operation : ∀ o ∈ queuedOffer.db.settlementOperation.rows,
    OperationOf hexadecimal offer o := by
  have h : ∀ o ∈ queuedOffer.db.settlementOperation.rows,
      o.idempotencyKey = offer.idempotencyKey ∧
      o.requestFingerprint = requestFingerprint hexadecimal offer ∧
      o.intent = settlementIntent offer.intent ∧ o.causedByCapsuleerId = offer.actor := by
    decide +kernel
  intro o ho
  obtain ⟨hkey, hfingerprint, hintent, hactor⟩ := h o ho
  exact ⟨hkey, hfingerprint, hintent, hactor⟩

def secondCall : Event := ⟨.delivered, 1, .ofNat 0x52, quietEnv 200, .ok "message", true⟩

def answeredCode (outcome : Outcome) : Option String :=
  match outcome.answer with
  | some (.error e) => some (clientCode e)
  | _ => none

/-- The first offer is queued, and the seller sends another under its key. -/
theorem otherOffer_retryable :
    otherOffer.idempotencyKey = offer.idempotencyKey ∧
    queuedOffer.db.settlementOperation.rows.map (fun o => (o.idempotencyKey, o.operationState)) =
      [(offer.idempotencyKey, .queued)] ∧
    (plannable hexadecimal 1 queuedOffer.db otherOffer).isSome = true ∧
    answeredCode (requestOutcome hexadecimal 1 queuedOffer.db [(secondCall, queuedOffer.db)]
      otherOffer) = some "downstream_unavailable" ∧
    isRetryableDownstreamCode "downstream_unavailable" = true := by decide +kernel

theorem conflict_aborted_iff_completed_otherOffer : ∃ e,
    (requestOutcome hexadecimal 1 queuedOffer.db [(secondCall, queuedOffer.db)] otherOffer).answer =
      some (.error e) ∧
    (clientCode e = "aborted" ↔ CompletedUnder queuedOffer.db otherOffer.idempotencyKey) := by
  have hfound : (queuedOffer.db.settlementOperation.find? offer.idempotencyKey).isSome = true := by
    decide +kernel
  obtain ⟨o, ho⟩ := Option.isSome_iff_exists.1 hfound
  have hdigests : hexadecimal.sha256Hex (digested otherOffer) ≠ hexadecimal.sha256Hex (digested offer) := by
    decide +kernel
  have hdiffer : otherOffer ≠ offer := by
    intro h
    exact hdigests (by rw [h])
  have hconflict := conflict_aborted_iff_completed hexadecimal 1 queuedOffer.db
    (run_executorRows _ localDevWorld_executorRows) offer otherOffer rfl hdiffer
    (fun h => absurd h hdigests) (by decide +kernel) secondCall queuedOffer.db [] o ho
    (queuedOffer_operation o (Table.find?_some_mem ho))
  obtain ⟨_, e, he, haborted, _⟩ := hconflict
  exact ⟨e, he, haborted⟩

end Seeded

end EveTrade.MarketConflicts
