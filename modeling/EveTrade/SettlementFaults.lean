import EveTrade.SettlementExecutor
import EveTrade.TransactionLogic

set_option autoImplicit false

/-!
# Calls that the environment does not fail

An operation takes the failures it meets from those the environment holds for its transaction, so a
session that is to meet none stays so.
-/
namespace EveTrade.SettlementFaults

open TransactionMonad TransactionLogic UuidText SettlementTypes SettlementCommands SettlementSchema
  SettlementStatements SettlementOperations SettlementAuthorization SettlementExecutor

/-! Actions are taken apart into the statements, reads and guards they are built of, each of which
takes at most one failure. -/

theorem execute_consumes (f : Statement) : Consumes (execute f) := Consumes.statement _ _

theorem select_consumes {α : Type} (read : Business → α) : Consumes (select read) :=
  Consumes.query _ _

theorem executeSettlementCommand_consumes (ext : External) (ctx : StepContext)
    (c : SettlementCommand) : Consumes (executeSettlementCommand ext ctx c) := by
  cases c
  all_goals
    repeat' first
      | refine Consumes.bind ?_ fun _ => ?_
      | exact Consumes.ensure _ _
      | exact execute_consumes _
      | exact select_consumes _
      | exact Consumes.fromOption _ _
      | exact Consumes.pure _
      | exact Consumes.statement _ _
      | refine Consumes.when _ ?_
      | unfold ensureItemStackEscrowCompatible
      | unfold fundItemStackEscrow
      | unfold fundWalletEscrow
      | unfold releaseOrUpdateItemStackEscrow
      | unfold releaseOrUpdateWalletEscrow
      | split

theorem authorizeReturns_consumes (actor : Int) (id : Uuid) (operations : List SettlementCommand)
    (items wallets : ℕ) : Consumes (authorizeReturns actor id operations items wallets) := by
  induction operations generalizing items wallets with
  | nil => exact Consumes.pure _
  | cons operation rest ih =>
    cases operation
    all_goals
      repeat' first
        | exact ih _ _
        | refine Consumes.bind ?_ fun _ => ?_
        | exact Consumes.ensure _ _
        | exact select_consumes _
        | exact Consumes.fromOption _ _

theorem authorizePlan_consumes (command : ExecuteBatchCommand) :
    Consumes (authorizePlan command) := by
  repeat' first
    | exact authorizeReturns_consumes _ _ _ _ _
    | refine Consumes.bind ?_ fun _ => ?_
    | exact Consumes.ensure _ _
    | exact select_consumes _
    | exact Consumes.fromOption _ _
    | exact Consumes.fail _
    | refine Consumes.when _ ?_
    | unfold authorizeIssue
    | split

section Opening

variable {ext : External} {env : ExecEnv} {command : ExecuteBatchCommand}

theorem executeDb_consumes (f : Db → Except DbError Db) : Consumes (executeDb f) :=
  Consumes.statement _ _

theorem selectDb_consumes {α : Type} (read : Db → α) : Consumes (selectDb read) :=
  Consumes.query _ _

theorem lookup_consumes (command : ExecuteBatchCommand) : Consumes (lookup command) := by
  have hlocks : ∀ ids, Consumes (lockTradeInstances ids) := by
    intro ids
    induction ids with
    | nil => exact Consumes.pure _
    | cons id ids ih => exact (selectDb_consumes _).bind fun _ => ih
  exact (selectDb_consumes _).bind fun _ => (hlocks _).bind fun _ => selectDb_consumes _

theorem resolveIdempotency_consumes (fingerprint : String)
    (existing : Option IdempotencyRecordRow) :
    Consumes (resolveIdempotency command fingerprint existing) := by
  unfold resolveIdempotency
  repeat' first
    | refine Consumes.bind ?_ fun _ => ?_
    | exact Consumes.ensure _ _
    | exact Consumes.fromOption _ _
    | exact executeDb_consumes _
    | exact Consumes.pure _
    | exact Consumes.fail _
    | split

theorem insertSettlementSteps_consumes (i : ℕ) (operations : List SettlementCommand) :
    Consumes (insertSettlementSteps ext env i operations) := by
  induction operations generalizing i with
  | nil => exact Consumes.pure _
  | cons operation rest ih =>
    refine (Consumes.ensure _ _).bind fun _ => (executeDb_consumes _).bind fun _ => ?_
    exact (ih (i + 1)).bind fun _ => Consumes.pure _

theorem openBatch_consumes : Consumes (openBatch ext env command) := by
  refine (Consumes.when _ (authorizePlan_consumes command).zoom).bind fun _ => ?_
  refine (Consumes.statement _ _).bind fun _ => (executeDb_consumes _).bind fun _ => ?_
  refine (executeDb_consumes _).bind fun _ => (insertSettlementSteps_consumes _ _).bind fun _ => ?_
  exact (selectDb_consumes _).bind fun _ => Consumes.pure _

end Opening

end EveTrade.SettlementFaults
