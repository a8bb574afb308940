import EveTrade.SettlementRecords

set_option autoImplicit false

/-!
# Concurrent settlement calls

A call prepares its request, reads and locks the idempotency record of its key, settles in one
atomic transaction, and, when it replays, reads the steps of the batch after its commit. Calls take
these steps in any order; each may crash before it has answered. The record of a key is locked by
at most one call, and a call that found no record holds no lock.
-/
namespace EveTrade.SettlementInterleaving

open KeyedTable TransactionMonad UuidText SettlementTypes SettlementCommands SettlementSchema
  SettlementExecutor SettlementOutcome SettlementRecords

inductive Phase where
  | started
  | looked (existing : Option IdempotencyRecordRow) (faults : List (Option DbError))
  | replaying (settlementBatchId : Uuid)
  | ended (answer : Except SettlementError BatchExecutionResult)
  | crashed

structure Call where
  env : ExecEnv
  command : ExecuteBatchCommand
  phase : Phase

structure World where
  db : Db
  calls : List Call

inductive Action where
  | start (env : ExecEnv) (command : ExecuteBatchCommand)
  | advance (call : ℕ)
  | crash (call : ℕ)

namespace Call

def key (c : Call) : String := c.command.idempotencyKey

def holdsRecord (c : Call) : Bool :=
  match c.phase with
  | .looked (some _) _ => true
  | _ => false

def locks (k : String) (c : Call) : Bool := decide (c.key = k) && c.holdsRecord

def withPhase (p : Phase) (c : Call) : Call := { c with phase := p }

def Committed (c : Call) (r : BatchExecutionResult) : Prop :=
  c.phase = .ended (.ok r) ∧ r.idempotentReplay = false

end Call

def afterSettle : Settlement → Phase
  | .answered r => .ended r
  | .replaying id => .replaying id

variable (ext : External)

def begin (env : ExecEnv) (command : ExecuteBatchCommand) : Call :=
  ⟨env, command, match prepare ext command with
    | .error e => .ended (.error e)
    | .ok _ => .started⟩

/-- The next phase of a call and the rows it leaves, given whether its key's record is locked. -/
def nextPhase (c : Call) (locked : Bool) (db : Db) : Phase × Db :=
  match c.phase with
  | .started =>
    if locked then (.started, db)
    else
      match lookup c.command ⟨db, [], c.env.faults⟩ with
      | .error e => (.ended (.error e), db)
      | .ok (existing, s) => (.looked existing s.faults, db)
  | .looked existing faults =>
    let r := settle ext c.env c.command (buildRequestFingerprint ext c.command) existing
      ⟨db, [], faults⟩
    (afterSettle r.1, r.2)
  | .replaying id => (.ended (replayAnswer c.env c.command id db), db)
  | .ended r => (.ended r, db)
  | .crashed => (.crashed, db)

def crashedPhase : Phase → Phase
  | .ended r => .ended r
  | _ => .crashed

def perform (a : Action) (w : World) : World :=
  match a with
  | .start env command => { w with calls := w.calls ++ [begin ext env command] }
  | .advance j =>
    match w.calls[j]? with
    | none => w
    | some c =>
      let r := nextPhase ext c (w.calls.any (Call.locks c.key)) w.db
      ⟨r.2, w.calls.set j (c.withPhase r.1)⟩
  | .crash j =>
    match w.calls[j]? with
    | none => w
    | some c => { w with calls := w.calls.set j (c.withPhase (crashedPhase c.phase)) }

def run : List Action → World → World
  | [], w => w
  | a :: as, w => run as (perform ext a w)

theorem perform_cases (a : Action) (w : World) :
    (∃ env command, a = .start env command ∧
      perform ext a w = ⟨w.db, w.calls ++ [begin ext env command]⟩) ∨
    perform ext a w = w ∨
    (∃ j c, a = .crash j ∧ w.calls[j]? = some c ∧
      perform ext a w = ⟨w.db, w.calls.set j (c.withPhase (crashedPhase c.phase))⟩) ∨
    ∃ j c, a = .advance j ∧ w.calls[j]? = some c ∧
      perform ext a w =
        ⟨(nextPhase ext c (w.calls.any (Call.locks c.key)) w.db).2, w.calls.set j
          (c.withPhase (nextPhase ext c (w.calls.any (Call.locks c.key)) w.db).1)⟩ := by
  cases a with
  | start env command => exact .inl ⟨env, command, rfl, rfl⟩
  | crash j =>
    cases hc : w.calls[j]? with
    | none => exact .inr (.inl (by simp [perform, hc]))
    | some c => exact .inr (.inr (.inl ⟨j, c, rfl, hc, by simp [perform, hc]⟩))
  | advance j =>
    cases hc : w.calls[j]? with
    | none => exact .inr (.inl (by simp [perform, hc]))
    | some c => exact .inr (.inr (.inr ⟨j, c, rfl, hc, by simp [perform, hc]⟩))

end EveTrade.SettlementInterleaving
