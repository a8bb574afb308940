import EveTrade.LocalDevWorld
import EveTrade.TradeFrames

set_option autoImplicit false

/-!
# Calls on the book of trades

A call with an intent either commits, and then does to the rows what its intent says, or leaves
them as they are.
-/
namespace EveTrade.TradeCalls

open KeyedTable UuidText SettlementTypes SettlementCommands SettlementSchema SettlementPlan
  SettlementExecutor SettlementOutcome SettlementRecords SettlementAuthorizationSpecs TradeBook
  TradeFrames

def commits : Except SettlementError BatchExecutionResult → Bool
  | .ok r => !r.idempotentReplay
  | .error _ => false

/-- What a committed plan does: the rows it moves are those of its intent, and no row of a
capsuleer who takes no part in it is touched. -/
inductive Moved (command : ExecuteBatchCommand) (actor : Int) (b b' : Business) : Prop
  | issue (p : IssuePlan) (intent : command.intent = .issue)
      (operations : command.operations = p.operations)
      (issued : Issued actor p.escrow.tradeInstanceId p.escrow.quantity b b')
      (others : ∀ capsuleer, actor ≠ capsuleer → Untouched capsuleer b b')
  | accept (p : AcceptPlan) (t : TradeInstanceRow) (intent : command.intent = .accept)
      (operations : command.operations = p.operations)
      (accepted : Accepted actor p.debit.tradeInstanceId p.delivery.quantity b t b')
      (left : LeftIn b' p.debit.tradeInstanceId (leavesTrade p))
      (others : ∀ capsuleer, actor ≠ capsuleer → t.issuerId ≠ capsuleer → Untouched capsuleer b b')
  | cancel (p : CancelPlan) (t : TradeInstanceRow) (intent : command.intent = .cancel)
      (operations : command.operations = p.operations)
      (cancelled : Cancelled actor p.state.tradeInstanceId b t b')
      (others : ∀ capsuleer, actor ≠ capsuleer → Untouched capsuleer b b')

variable {ext : External} {env : ExecEnv} {i : ℕ} {command : ExecuteBatchCommand} {actor : Int}
  {b b' : Business} {checks : List DeferredCheck} {os : List OperationOutput} {db : Db}

theorem Moved.book (hb : Book b) (h : Moved command actor b b') : Book b' := by
  cases h with
  | issue p intent operations issued others => exact issued.book hb
  | accept p t intent operations accepted left others => exact accepted.book hb
  | cancel p t intent operations cancelled others => exact cancelled.book hb

/-- A plan that gives back to the previous owner less than the escrow holds. -/
def returnsPart (command : ExecuteBatchCommand) (b : Business) : Bool :=
  command.operations.any fun
    | .transferQuantityFromItemStackEscrowToItemStackWithPreviousOwner r =>
      (b.itemStackEscrow.find? r.itemStackEscrowId).any fun e => r.quantity < e.quantity
    | _ => false

theorem returnsPart_issue {p : IssuePlan} (operations : command.operations = p.operations) :
    returnsPart command b = false := by
  simp [returnsPart, operations, IssuePlan.operations]

theorem returnsPart_accept {p : AcceptPlan} (operations : command.operations = p.operations) :
    returnsPart command b = false := by
  obtain ⟨_ | d, debit, delivery, credit, _ | completion⟩ := p <;>
    simp [returnsPart, operations, AcceptPlan.operations]

theorem returnsPart_cancel {p : CancelPlan} (operations : command.operations = p.operations) :
    returnsPart command b = true ↔ ∃ r ∈ p.itemReturn, ∃ e,
      b.itemStackEscrow.find? r.itemStackEscrowId = some e ∧ r.quantity < e.quantity := by
  obtain ⟨_ | r, _ | refund, state⟩ := p <;>
    simp [returnsPart, operations, CancelPlan.operations, Option.any_eq_true]

theorem moved_of_whole (hb : Book b) (h : Licensed actor b command)
    (hrun : StepsRun ext env i command.operations b b' checks os)
    (hwhole : returnsPart command b = false) : Moved command actor b b' := by
  cases h with
  | issue p intent operations granted =>
    rw [operations] at hrun
    have issued := issued_of_run hb granted hrun
    exact .issue p intent operations issued fun c hc => issued.untouched hc
  | accept p t e intent operations granted =>
    rw [operations] at hrun
    obtain ⟨accepted, left⟩ := accepted_of_run hb granted hrun
    exact .accept p t intent operations accepted left fun c hc hi => accepted.untouched hb hc hi
  | cancel p t intent operations granted =>
    rw [operations] at hrun
    rw [Bool.eq_false_iff, ne_eq, returnsPart_cancel operations] at hwhole
    have whole : ∀ r ∈ p.itemReturn, r.quantity = t.remainingQuantity := by
      intro r hr
      obtain ⟨e, _, _, _, _, _, range, hescrow, _, _, held, _⟩ := return_of_run hb granted hr hrun
      have hnot : ¬ r.quantity < e.quantity := fun hless => hwhole ⟨r, hr, e, hescrow, hless⟩
      have hall := range.1
      omega
    have cancelled := cancelled_of_run hb granted hrun whole
    exact .cancel p t intent operations cancelled fun c hc => cancelled.untouched hb hc

theorem whole_of_constraints (hb : Book b) (h : Licensed actor b command)
    (hrun : StepsRun ext env i command.operations b b' checks os)
    (constraints : ∀ d ∈ checks, d.run b' = .ok ()) : returnsPart command b = false := by
  cases h with
  | issue p intent operations granted => exact returnsPart_issue operations
  | accept p t e intent operations granted => exact returnsPart_accept operations
  | cancel p t intent operations granted =>
    rw [operations] at hrun
    rw [Bool.eq_false_iff, ne_eq, returnsPart_cancel operations]
    rintro ⟨r, hr, e, he, hless⟩
    have hwhole := returns_whole hb granted hrun constraints r hr
    obtain ⟨e₁, _, _, _, _, _, _, hescrow, _, _, held, _⟩ := return_of_run hb granted hr hrun
    obtain rfl := Option.some.inj (hescrow.symm.trans he)
    omega

theorem moved_of_licensed (hb : Book b) (h : Licensed actor b command)
    (hrun : StepsRun ext env i command.operations b b' checks os)
    (constraints : ∀ d ∈ checks, d.run b' = .ok ()) : Moved command actor b b' :=
  moved_of_whole hb h hrun (whole_of_constraints hb h hrun constraints)

/-- A call either leaves the business rows, or has run its operations to the end and kept every
constraint. -/
theorem executeBatch_outcome (ext : External) (env : ExecEnv) (command : ExecuteBatchCommand)
    (db : Db) :
    (commits (executeBatch ext env command db).1 = false ∧
      (executeBatch ext env command db).2.business = db.business) ∨
    (commits (executeBatch ext env command db).1 = true ∧
      ∃ checks outputs, validatePlan command = .ok () ∧
        (command.intent ≠ .unspecified → Authorized command db.business) ∧
        StepsRun ext env 0 command.operations db.business
          (executeBatch ext env command db).2.business checks outputs ∧
        ∀ d ∈ checks, d.run (executeBatch ext env command db).2.business = .ok ()) := by
  rcases executeBatch_cases ext env command db with ⟨e, he⟩ | ⟨fp, st, db', hprep, hsettled, he⟩
  · rw [he]
    exact .inl ⟨rfl, rfl⟩
  · rw [he]
    cases hsettled with
    | refused e => exact .inl ⟨rfl, rfl⟩
    | replaying r batchId _ _ _ _ _ =>
      refine .inl ⟨?_, rfl⟩
      dsimp only [finishReplay, replayAnswer]
      cases loadReplayedSteps env batchId (operationCompleted command.idempotencyKey batchId db) with
      | error e => rfl
      | ok results => rfl
    | failed record number _ _ attempted e _ hbusiness _ => exact .inl ⟨rfl, hbusiness⟩
    | completed record number _ opened checks outputs run constraints _ _ =>
      exact .inr ⟨rfl, checks, outputs, (prepare_eq_ok hprep).2.1, opened.authorized, run,
        constraints⟩

/-- A call with an intent either commits and moves the rows of its plan, or leaves them all. -/
theorem executeBatch_moves (ext : External) (env : ExecEnv) (hb : Book db.business)
    (hintent : command.intent ≠ .unspecified) :
    (commits (executeBatch ext env command db).1 = false ∧
      (executeBatch ext env command db).2.business = db.business) ∨
    (commits (executeBatch ext env command db).1 = true ∧
      ∃ actor, command.causedByCapsuleerId = some actor ∧
        Moved command actor db.business (executeBatch ext env command db).2.business) := by
  rcases executeBatch_outcome ext env command db with
    h | ⟨committed, checks, outputs, hplan, authorized, run, constraints⟩
  · exact .inl h
  · obtain ⟨actor, hactor, hlicensed⟩ := licensed_of_authorized hintent hplan (authorized hintent)
    exact .inr ⟨committed, actor, hactor, moved_of_licensed hb hlicensed run constraints⟩

theorem executeBatch_book (ext : External) (env : ExecEnv) (hb : Book db.business)
    (hintent : command.intent ≠ .unspecified) :
    Book (executeBatch ext env command db).2.business := by
  rcases executeBatch_moves ext env hb hintent with ⟨_, hsame⟩ | ⟨_, actor, _, hmoved⟩
  · rw [hsame]
    exact hb
  · exact hmoved.book hb

theorem runCalls_book (ext : External) {calls : List (ExecEnv × ExecuteBatchCommand)}
    (hb : Book db.business) (hintents : ∀ call ∈ calls, call.2.intent ≠ .unspecified) :
    Book (runCalls ext calls db).business := by
  induction calls generalizing db with
  | nil => exact hb
  | cons call calls ih =>
    obtain ⟨hintent, hintents⟩ := List.forall_mem_cons.1 hintents
    exact ih (executeBatch_book ext call.1 hb hintent) hintents

/-- A database in which nothing has been traded yet. -/
structure NoTrades (b : Business) : Prop where
  tradeInstance : b.tradeInstance.rows = []
  walletEscrow : b.walletEscrow.rows = []
  itemStackEscrow : b.itemStackEscrow.rows = []

theorem NoTrades.book (h : NoTrades b) : Book b := by
  constructor <;> simp [h.tradeInstance, h.walletEscrow, h.itemStackEscrow]

/-- In every state that calls with an intent can reach, a committed call moves exactly the rows of
its plan. -/
theorem committed_call_moves (ext : External) (calls : List (ExecEnv × ExecuteBatchCommand))
    (db : Db) (empty : NoTrades db.business)
    (intents : ∀ call ∈ calls, call.2.intent ≠ .unspecified) (env : ExecEnv)
    (command : ExecuteBatchCommand) (intent : command.intent ≠ .unspecified)
    (committed : commits (executeBatch ext env command (runCalls ext calls db)).1 = true) :
    ∃ actor, command.causedByCapsuleerId = some actor ∧
      Moved command actor (runCalls ext calls db).business
        (executeBatch ext env command (runCalls ext calls db)).2.business := by
  have hbook := runCalls_book ext empty.book intents
  rcases executeBatch_moves ext env hbook intent with ⟨hnot, _⟩ | ⟨_, hmoved⟩
  · rw [hnot] at committed
    cases committed
  · exact hmoved

section Seeded

open LocalDevWorld

def tradeId : Uuid := .ofNat 0x71
def escrowId : Uuid := .ofNat 0x72

def offerOfTen : List (ExecEnv × ExecuteBatchCommand) :=
  [(quietEnv 100, issueTradeCommand "issue" tradeId escrowId 10 none)]

def acceptFour : ExecuteBatchCommand :=
  acceptTradeCommand "accept" tradeId escrowId (.ofNat 0x73) 4 false none

theorem committed_call_moves_acceptFour :
    commits (executeBatch transparent (quietEnv 200) acceptFour
      (runCalls transparent offerOfTen (localDevWorld transparent))).1 = true ∧
    ∃ actor, acceptFour.causedByCapsuleerId = some actor ∧
      Moved acceptFour actor
        (runCalls transparent offerOfTen (localDevWorld transparent)).business
        (executeBatch transparent (quietEnv 200) acceptFour
          (runCalls transparent offerOfTen (localDevWorld transparent))).2.business :=
  have committed : commits (executeBatch transparent (quietEnv 200) acceptFour
      (runCalls transparent offerOfTen (localDevWorld transparent))).1 = true := by decide +kernel
  ⟨committed, committed_call_moves transparent offerOfTen (localDevWorld transparent)
    ⟨rfl, rfl, rfl⟩ (by decide) (quietEnv 200) acceptFour (by decide) committed⟩

end Seeded

end EveTrade.TradeCalls
