import EveTrade.TradeLabels
import Mathlib.Data.List.Destutter

set_option autoImplicit false

/-!
# The trades a batch locks and the trades it writes

`execute_batch` takes an advisory lock for each trade that an operation names by itself. A delivery
names an escrow, and a debit its trade, which `trade_instance_id` does not return; so an acceptance
locks its trade only through its completion.
-/
namespace EveTrade.SettlementTradeLocks

open KeyedTable TransactionMonad UuidText SettlementTypes SettlementCommands SettlementSchema
  SettlementOperations SettlementEffects SettlementPlan SettlementExecutor SettlementOutcome
  SettlementAuthorizationSpecs TradeFrames TradeCalls TradeLabels

section Locks

theorem mem_destutter_ne {α : Type} [DecidableEq α] {x a : α} {l : List α} (h : x ∈ a :: l) :
    x ∈ l.destutter' (· ≠ ·) a := by
  induction l generalizing a with
  | nil => simpa using h
  | cons b l ih =>
    rw [List.destutter'_cons]
    split_ifs with hab
    · rcases List.mem_cons.1 h with rfl | h
      · exact List.mem_cons_self
      · exact List.mem_cons_of_mem _ (ih h)
    · obtain rfl : a = b := not_not.1 hab
      rcases List.mem_cons.1 h with rfl | h
      · exact ih List.mem_cons_self
      · exact ih h

theorem mem_advisoryLockIds {command : ExecuteBatchCommand} {id : Uuid} :
    id ∈ advisoryLockIds command ↔
      ∃ c ∈ command.operations, SettlementCommand.tradeInstanceId c = some id := by
  have hsorted : ∀ l : List Uuid, id ∈ l.destutter (· ≠ ·) ↔ id ∈ l := by
    intro l
    constructor
    · intro h
      exact (l.destutter_sublist _).subset h
    · intro h
      cases l with
      | nil => exact h
      | cons a l => exact mem_destutter_ne h
  unfold advisoryLockIds
  rw [hsorted, List.mem_insertionSort, List.mem_filterMap]

def changesState : SettlementCommand → Bool
  | .modifyTradeInstanceState _ => true
  | _ => false

def partialAccept (command : ExecuteBatchCommand) : Bool :=
  decide (command.intent = .accept) && !command.operations.any changesState

theorem AcceptPlan.any_changesState (p : AcceptPlan) :
    p.operations.any changesState = p.completion.isSome := by
  obtain ⟨_ | d, debit, delivery, credit, _ | s⟩ := p <;> rfl

theorem AcceptPlan.advisoryLockIds_eq_nil {p : AcceptPlan} (h : p.completion = none)
    {command : ExecuteBatchCommand} (operations : command.operations = p.operations) :
    advisoryLockIds command = [] := by
  unfold advisoryLockIds
  rw [operations]
  obtain ⟨_ | d, debit, delivery, credit, completion⟩ := p <;> subst h <;> rfl

end Locks

section Writes

variable {ext : External} {ctx : StepContext} {b b' : Business} {checks : List DeferredCheck}
  {c : SettlementCommand} {id trade : Uuid}

def writtenTrade (ctx : StepContext) (b : Business) : SettlementCommand → Option Uuid
  | .createNewTradeInstanceRow p => some (p.tradeInstanceId.getD ctx.newId)
  | .modifyTradeInstanceState p => some p.tradeInstanceId
  | .transferQuantityFromItemStackEscrowToItemStackWithNewOwner p =>
    (b.itemStackEscrow.find? p.itemStackEscrowId).map fun e => e.tradeInstanceId
  | .transferQuantityFromItemStackEscrowToItemStackWithPreviousOwner p =>
    (b.itemStackEscrow.find? p.itemStackEscrowId).map fun e => e.tradeInstanceId
  | _ => none

theorem itemRelease_trades {rule : EscrowOwnerRule}
    {p : TransferQuantityFromItemStackEscrowToItemStack}
    (h : ItemRelease ext ctx rule p b b' checks) :
    ∃ e t range, b.itemStackEscrow.find? p.itemStackEscrowId = some e ∧
      b.tradeInstance.find? e.tradeInstanceId = some t ∧ 0 < p.quantity ∧
      t.remainingQuantity = e.quantity ∧
      b'.tradeInstance = b.tradeInstance.set (t.withRemaining (e.quantity - p.quantity) range) := by
  cases h with
  | released e destination t b₁ c₁ positive escrow _ _ _ _ _ _ _ found _ remaining range posting =>
    refine ⟨e, t, range, escrow, found, positive, remaining, ?_⟩
    dsimp only
    rw [posting.tradeInstance]

theorem itemRelease_written {rule : EscrowOwnerRule}
    {p : TransferQuantityFromItemStackEscrowToItemStack}
    (h : ItemRelease ext ctx rule p b b' checks)
    (hne : b'.tradeInstance.find? id ≠ b.tradeInstance.find? id) :
    (b.itemStackEscrow.find? p.itemStackEscrowId).map (fun e => e.tradeInstanceId) = some id := by
  obtain ⟨e, t, range, hescrow, htrade, _, _, hset⟩ := itemRelease_trades h
  rw [hescrow, Option.map_some]
  by_contra hid
  apply hne
  rw [hset]
  apply Table.find?_set_ne
  have hkey : t.tradeInstanceId = e.tradeInstanceId := Table.find?_some_key htrade
  intro heq
  apply hid
  rw [← hkey]
  exact congrArg some heq

theorem effect_written (h : Effect ext ctx c b b' checks)
    (hne : b'.tradeInstance.find? id ≠ b.tradeInstance.find? id) :
    writtenTrade ctx b c = some id := by
  cases c with
  | createNewTradeInstanceRow p =>
    cases h with
    | created ht hp future trades inserted issuer itemType station =>
      by_contra hid
      apply hne
      dsimp only
      rw [Table.find?_insert inserted, if_neg]
      intro heq
      exact hid (congrArg some heq)
  | modifyTradeInstanceState p =>
    cases h with
    | changed t found opened state target closes kind kindText completes =>
      by_contra hid
      apply hne
      apply Table.find?_set_ne
      intro heq
      have hkey : t.tradeInstanceId = p.tradeInstanceId := Table.find?_some_key found
      exact hid (congrArg some (hkey.symm.trans heq))
  | createNewEmptyItemStack p =>
    cases h
    exact absurd rfl hne
  | transferQuantityFromItemStackToItemStackEscrow p =>
    cases h with
    | deposited t source b₁ b₂ c₁ c₂ _ _ _ _ _ _ _ _ posting funding =>
      exact absurd (by rw [funding.frame, posting.frame]) hne
  | transferQuantityFromItemStackEscrowToItemStackWithNewOwner p => exact itemRelease_written h hne
  | transferQuantityFromItemStackEscrowToItemStackWithPreviousOwner p =>
    exact itemRelease_written h hne
  | mergeItemStacksWithIdenticalItemTypeAndIdenticalOwner p =>
    cases h with
    | merged source destination b₁ b₂ c₁ c₂ _ _ _ _ _ _ _ _ credit debit =>
      exact absurd (by rw [debit.tradeInstance, credit.tradeInstance]) hne
  | createNewEmptyWalletEscrow p =>
    cases h
    exact absurd rfl hne
  | transferIskAmountFromWalletToWalletEscrow p =>
    cases h with
    | deposited source t b₁ b₂ c₂ _ _ _ _ _ _ _ _ _ posting funding =>
      exact absurd (by rw [funding.frame, posting.frame]) hne
  | transferIskAmountFromWalletEscrowToWalletWithNewOwner p =>
    cases h with
    | released e destination b₁ _ _ _ _ _ _ _ _ posting =>
      exact absurd (by dsimp only; rw [posting.frame]) hne
  | transferIskAmountFromWalletEscrowToWalletWithPreviousOwner p =>
    cases h with
    | released e destination b₁ _ _ _ _ _ _ _ _ posting =>
      exact absurd (by dsimp only; rw [posting.frame]) hne

end Writes

section Coverage

variable {ext : External} {env : ExecEnv} {i : ℕ} {cs : List SettlementCommand} {b b' : Business}
  {checks : List DeferredCheck} {os : List OperationOutput} {id trade : Uuid} {actor : Int}
  {command : ExecuteBatchCommand}

theorem stepsRun_written {P : Business → Prop}
    (keeps : ∀ c ∈ cs, ∀ ctx b b' checks, P b → Effect ext ctx c b b' checks → P b')
    (writes : ∀ c ∈ cs, ∀ ctx b, P b → ∀ id, writtenTrade ctx b c = some id → id = trade)
    (h : StepsRun ext env i cs b b' checks os) (hb : P b)
    (hne : b'.tradeInstance.find? id ≠ b.tradeInstance.find? id) : id = trade := by
  induction h with
  | nil => exact absurd rfl hne
  | @cons i c cs b b₁ b' first later o rest effect run ih =>
    obtain ⟨keepsHere, keepsLater⟩ := List.forall_mem_cons.1 keeps
    obtain ⟨writesHere, writesLater⟩ := List.forall_mem_cons.1 writes
    by_cases hhere : b₁.tradeInstance.find? id = b.tradeInstance.find? id
    · rw [← hhere] at hne
      exact ih keepsLater writesLater (keepsHere _ _ _ _ hb effect) hne
    · exact writesHere _ _ hb id (effect_written effect hhere)

theorem escrowTrade_of_within {e q : ItemStackEscrowRow} {escrowId : Uuid} {b₁ : Business}
    (hwithin : Table.Within escrowIdentity b.itemStackEscrow b₁.itemStackEscrow)
    (hfound : b.itemStackEscrow.find? escrowId = some e)
    (hq : b₁.itemStackEscrow.find? escrowId = some q) :
    q.tradeInstanceId = e.tradeInstanceId := by
  obtain ⟨r, hr, hidentity⟩ := hwithin q (Table.find?_some_mem hq)
  simp only [escrowIdentity, Prod.mk.injEq] at hidentity
  have hkey : r.itemStackEscrowId = e.itemStackEscrowId :=
    hidentity.1.trans ((Table.find?_some_key hq).trans (Table.find?_some_key hfound).symm)
  rw [← Table.mem_unique hr (Table.find?_some_mem hfound) hkey]
  exact hidentity.2.1.symm

theorem issue_written {p : IssuePlan} (hg : IssueAuthorized actor b p) {n : ℕ}
    (h : StepsRun ext env i (p.operations.take n) b b' checks os)
    (hne : b'.tradeInstance.find? id ≠ b.tradeInstance.find? id) : id = p.escrow.tradeInstanceId := by
  refine stepsRun_written (P := fun _ => True) (fun _ _ _ _ _ _ _ _ => trivial) ?_ h trivial hne
  intro c hc ctx b₁ _ id hwritten
  have hmem := List.mem_of_mem_take hc
  simp only [IssuePlan.operations, List.mem_cons, List.not_mem_nil, or_false] at hmem
  rcases hmem with rfl | rfl
  · simp only [writtenTrade, hg.identity, Option.getD_some, Option.some.injEq] at hwritten
    exact hwritten.symm
  · cases hwritten

theorem drawing_written (nodeposit : ∀ c ∈ cs, deposits c = false)
    (writes : ∀ c ∈ cs, ∀ ctx b₁,
      Table.Within escrowIdentity b.itemStackEscrow b₁.itemStackEscrow →
      ∀ id, writtenTrade ctx b₁ c = some id → id = trade) {n : ℕ}
    (h : StepsRun ext env i (cs.take n) b b' checks os)
    (hne : b'.tradeInstance.find? id ≠ b.tradeInstance.find? id) : id = trade := by
  refine stepsRun_written
    (P := fun b₁ => Table.Within escrowIdentity b.itemStackEscrow b₁.itemStackEscrow)
    ?_ ?_ h (.refl _ _) hne
  · intro c hc ctx b₁ b₂ checks hwithin effect
    exact hwithin.trans (effect_escrows effect (nodeposit c (List.mem_of_mem_take hc)))
  · intro c hc ctx b₁ hwithin id hwritten
    exact writes c (List.mem_of_mem_take hc) ctx b₁ hwithin id hwritten

theorem accept_written {p : AcceptPlan} {t : TradeInstanceRow} {e : ItemStackEscrowRow}
    (hg : AcceptAuthorized actor b p t e) {n : ℕ}
    (h : StepsRun ext env i (p.operations.take n) b b' checks os)
    (hne : b'.tradeInstance.find? id ≠ b.tradeInstance.find? id) : id = p.debit.tradeInstanceId := by
  refine drawing_written (AcceptPlan.no_deposit p) ?_ h hne
  intro c hc ctx b₁ hwithin id hwritten
  simp only [AcceptPlan.operations, List.mem_append, List.mem_map, Option.mem_toList, List.mem_cons,
    List.not_mem_nil, or_false] at hc
  rcases hc with ⟨d, _, rfl⟩ | (rfl | rfl | rfl) | ⟨s, hs, rfl⟩
  · cases hwritten
  · cases hwritten
  · obtain ⟨q, hq, rfl⟩ := Option.map_eq_some_iff.1 hwritten
    rw [escrowTrade_of_within hwithin hg.escrow hq, hg.escrowTrade]
  · cases hwritten
  · obtain rfl := Option.some.inj hwritten
    exact (hg.completion s hs).1

theorem cancel_written {p : CancelPlan} {t : TradeInstanceRow} (hg : CancelAuthorized actor b p t)
    {n : ℕ} (h : StepsRun ext env i (p.operations.take n) b b' checks os)
    (hne : b'.tradeInstance.find? id ≠ b.tradeInstance.find? id) : id = p.state.tradeInstanceId := by
  refine drawing_written (CancelPlan.no_deposit p) ?_ h hne
  intro c hc ctx b₁ hwithin id hwritten
  simp only [CancelPlan.operations, List.mem_append, List.mem_map, Option.mem_toList, List.mem_cons,
    List.not_mem_nil, or_false] at hc
  rcases hc with ⟨r, hr, rfl⟩ | ⟨r, _, rfl⟩ | rfl
  · obtain ⟨q, hq, rfl⟩ := Option.map_eq_some_iff.1 hwritten
    obtain ⟨⟨e, he, htrade, _⟩, _⟩ := hg.itemReturn r hr
    rw [escrowTrade_of_within hwithin he hq, htrade]
  · cases hwritten
  · exact (Option.some.inj hwritten).symm

/-- The steps of the batch, or the first of them, can write the row of the trade. -/
def CanWrite (ext : External) (command : ExecuteBatchCommand) (trade : Uuid) : Prop :=
  ∃ env n b b' checks os, Authorized command b ∧
    StepsRun ext env 0 (command.operations.take n) b b' checks os ∧
    b'.tradeInstance.find? trade ≠ b.tradeInstance.find? trade

/-- Every trade that the batch can write is one that it locks. -/
def Covered (ext : External) (command : ExecuteBatchCommand) : Prop :=
  ∀ trade, CanWrite ext command trade → trade ∈ advisoryLockIds command

theorem intent_specified (valid : validatePlanSemantics command = .ok ()) :
    command.intent ≠ .unspecified := by
  intro h
  unfold validatePlanSemantics at valid
  split at valid
  · cases valid
  · rw [h] at valid
    cases valid

theorem validatePlan_of_semantics (valid : validatePlanSemantics command = .ok ()) :
    validatePlan command = .ok () := by
  rw [validatePlan, if_pos (intent_specified valid)]
  exact valid

theorem covered_of_completing (valid : validatePlanSemantics command = .ok ())
    (completing : partialAccept command = false) : Covered ext command := by
  rintro trade ⟨env, n, b, b', checks, os, authorized, run, hne⟩
  obtain ⟨actor, _, licensed⟩ := licensed_of_authorized (intent_specified valid)
    (validatePlan_of_semantics valid) authorized
  rw [mem_advisoryLockIds]
  cases licensed with
  | issue p intent operations granted =>
    rw [operations] at run ⊢
    obtain rfl := issue_written granted run hne
    exact ⟨_, List.mem_cons_self, granted.identity⟩
  | cancel p t intent operations granted =>
    rw [operations] at run ⊢
    obtain rfl := cancel_written granted run hne
    refine ⟨.modifyTradeInstanceState p.state, ?_, rfl⟩
    simp [CancelPlan.operations]
  | accept p t e intent operations granted =>
    rw [operations] at run ⊢
    obtain rfl := accept_written granted run hne
    simp only [partialAccept, intent, operations, AcceptPlan.any_changesState, decide_true,
      Bool.true_and, Bool.not_eq_false'] at completing
    obtain ⟨s, hs⟩ := Option.isSome_iff_exists.1 completing
    refine ⟨.modifyTradeInstanceState s, ?_, congrArg some (granted.completion s hs).1⟩
    simp [AcceptPlan.operations, hs]

theorem partialAccept_unlocked (valid : validatePlanSemantics command = .ok ())
    (leftOpen : partialAccept command = true) : advisoryLockIds command = [] := by
  simp only [partialAccept, Bool.and_eq_true, decide_eq_true_eq] at leftOpen
  obtain ⟨hintent, hopen⟩ := leftOpen
  unfold validatePlanSemantics at valid
  split at valid
  · cases valid
  · rw [hintent] at valid
    obtain ⟨p, hops, _⟩ := validateAccept_eq_ok valid
    rw [hops, AcceptPlan.any_changesState] at hopen
    exact AcceptPlan.advisoryLockIds_eq_nil (by simpa using hopen) hops

theorem effect_keeps_trades {ctx : StepContext} {c : SettlementCommand}
    (h : Effect ext ctx c b b' checks) (hwritten : writtenTrade ctx b c = none) (id : Uuid) :
    b'.tradeInstance.find? id = b.tradeInstance.find? id := by
  by_contra hne
  rw [effect_written h hne] at hwritten
  cases hwritten

theorem accept_writes {p : AcceptPlan} (hopen : p.completion = none)
    (h : StepsRun ext env i p.operations b b' checks os) :
    ∃ trade, b'.tradeInstance.find? trade ≠ b.tradeInstance.find? trade := by
  obtain ⟨b₁, _, _, _, _, hdestination, hrest, _⟩ := StepsRun.of_append h
  rw [hopen] at hrest
  cases hrest with
  | cons debit hrest =>
    cases hrest with
    | cons delivery hrest =>
      cases hrest with
      | cons credit hrest =>
        cases hrest with
        | nil =>
          obtain ⟨e, t, range, _, htrade, positive, remaining, hset⟩ := itemRelease_trades delivery
          refine ⟨e.tradeInstanceId, ?_⟩
          have hkey : t.tradeInstanceId = e.tradeInstanceId := Table.find?_some_key htrade
          have hafter := effect_keeps_trades credit rfl e.tradeInstanceId
          have hbefore : b.tradeInstance.find? e.tradeInstanceId = some t := by
            rw [← htrade, effect_keeps_trades debit rfl]
            rcases StepsRun.of_optional hdestination with ⟨_, hsame, _⟩ | ⟨d, ctx, _, effect⟩
            · rw [hsame]
            · exact (effect_keeps_trades effect rfl _).symm
          have hself := Table.find?_set_self (r := t.withRemaining (e.quantity - p.delivery.quantity)
            range) (q := t) (by rw [← hkey] at htrade; exact htrade)
          rw [hafter, hset, hbefore, ← hkey]
          intro hsame
          have hrow := Option.some.inj (hself.symm.trans hsame)
          have hleft : e.quantity - p.delivery.quantity = t.remainingQuantity :=
            congrArg (fun row => row.remainingQuantity) hrow
          omega

theorem partialAccept_uncovered {db : Db} (valid : validatePlanSemantics command = .ok ())
    (leftOpen : partialAccept command = true)
    (committed : commits (executeBatch ext env command db).1 = true) : ¬ Covered ext command := by
  have hintent := intent_specified valid
  have hlocks := partialAccept_unlocked valid leftOpen
  rcases executeBatch_outcome ext env command db with
    ⟨uncommitted, _⟩ | ⟨_, checks, outputs, hplan, authorized, run, _⟩
  · rw [committed] at uncommitted
    cases uncommitted
  · obtain ⟨actor, _, licensed⟩ := licensed_of_authorized hintent hplan (authorized hintent)
    simp only [partialAccept, Bool.and_eq_true, decide_eq_true_eq] at leftOpen
    cases licensed with
    | issue p intent operations granted =>
      rw [intent] at leftOpen
      cases leftOpen.1
    | cancel p t intent operations granted =>
      rw [intent] at leftOpen
      cases leftOpen.1
    | accept p t e intent operations granted =>
      have hopen : p.completion = none := by
        have hnone := leftOpen.2
        rw [operations, AcceptPlan.any_changesState] at hnone
        simpa using hnone
      have hrun := run
      rw [operations] at hrun
      obtain ⟨trade, hne⟩ := accept_writes hopen hrun
      intro covered
      have hmem := covered trade ⟨env, command.operations.length, db.business, _, checks, outputs,
        authorized hintent, by rw [List.take_length]; exact run, hne⟩
      rw [hlocks] at hmem
      cases hmem

end Coverage

end EveTrade.SettlementTradeLocks
