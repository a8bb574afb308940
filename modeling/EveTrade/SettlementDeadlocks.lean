import EveTrade.LockSchedules
import EveTrade.SettlementRowLocks

set_option autoImplicit false

/-!
# Batches that wait for each other

An acceptance locks the wallet it debits before its trade, and the wallet it credits after it, so
two acceptances between the same capsuleers can each hold the wallet that the other one needs.
-/
namespace EveTrade.SettlementDeadlocks

open KeyedTable UuidText SettlementTypes SettlementCommands SettlementSchema SettlementPlan
  SettlementAuthorization SettlementAuthorizationSpecs SettlementExecutor SettlementTradeLocks
  SettlementRowLocks LockSchedules TradeCalls

section Conditions

def walletRefund? : SettlementCommand → Option TransferIskAmountFromWalletEscrowToWallet
  | .transferIskAmountFromWalletEscrowToWalletWithPreviousOwner p => some p
  | _ => none

def debitedWallets (command : ExecuteBatchCommand) : List Uuid :=
  (command.operations.filterMap walletDebit?).map fun p => p.sourceWalletId

def creditedWallets (command : ExecuteBatchCommand) : List Uuid :=
  (command.operations.filterMap sellerCredit?).map fun p => p.destinationWalletId

def fundedEscrow? : SettlementCommand → Option Uuid
  | .transferQuantityFromItemStackToItemStackEscrow p => p.itemStackEscrowId
  | _ => none

def drawnEscrow? : SettlementCommand → Option Uuid
  | .transferQuantityFromItemStackEscrowToItemStackWithNewOwner p => some p.itemStackEscrowId
  | .transferQuantityFromItemStackEscrowToItemStackWithPreviousOwner p => some p.itemStackEscrowId
  | _ => none

/-- No wallet is debited by one batch and credited by another, no batch puts items into an escrow
that one draws on, and nothing is refunded. -/
structure Apart (commands : List ExecuteBatchCommand) : Prop where
  wallets : ∀ c ∈ commands, ∀ c' ∈ commands, ∀ id ∈ debitedWallets c, id ∈ creditedWallets c' →
    id ∈ debitedWallets c'
  escrows : ∀ c ∈ commands, ∀ c' ∈ commands, ∀ id ∈ c.operations.filterMap fundedEscrow?,
    id ∉ c'.operations.filterMap drawnEscrow?
  refunds : ∀ c ∈ commands, c.operations.filterMap walletRefund? = []

/-- One order for all the locks of batches that are apart: debited wallets come before trades, and
the other wallets after. -/
def lockRank (commands : List ExecuteBatchCommand) : Lock → ℕ
  | .advisory _ => 0
  | .idempotencyRecord _ => 1
  | .wallet id => if commands.any fun c => (debitedWallets c).contains id then 2 else 5
  | .tradeInstance _ => 3
  | .itemStackEscrow id =>
    if commands.any fun c => (c.operations.filterMap drawnEscrow?).contains id then 4 else 8
  | .itemStack _ => 6
  | .newItemStack _ => 7
  | .walletEscrow _ => 9

variable {commands : List ExecuteBatchCommand} {command : ExecuteBatchCommand} {id : Uuid}

@[simp] theorem lockRank_tradeInstance : lockRank commands (.tradeInstance id) = 3 := rfl

@[simp] theorem lockRank_itemStack : lockRank commands (.itemStack id) = 6 := rfl

@[simp] theorem lockRank_newItemStack : lockRank commands (.newItemStack id) = 7 := rfl

@[simp] theorem lockRank_walletEscrow : lockRank commands (.walletEscrow id) = 9 := rfl

theorem lockRank_debited (h : command ∈ commands) (hid : id ∈ debitedWallets command) :
    lockRank commands (.wallet id) = 2 := by
  rw [lockRank, if_pos]
  exact List.any_eq_true.2 ⟨command, h, List.contains_iff_mem.2 hid⟩

theorem lockRank_drawn (h : command ∈ commands)
    (hid : id ∈ command.operations.filterMap drawnEscrow?) :
    lockRank commands (.itemStackEscrow id) = 4 := by
  rw [lockRank, if_pos]
  exact List.any_eq_true.2 ⟨command, h, List.contains_iff_mem.2 hid⟩

theorem Apart.rank_credited (apart : Apart commands) (h : command ∈ commands)
    (hid : id ∈ creditedWallets command) :
    id ∈ debitedWallets command ∨ lockRank commands (.wallet id) = 5 := by
  by_cases hdebited : commands.any fun c => (debitedWallets c).contains id
  · obtain ⟨c, hc, hcontains⟩ := List.any_eq_true.1 hdebited
    exact .inl (apart.wallets c hc command h id (List.contains_iff_mem.1 hcontains) hid)
  · right
    rw [lockRank, if_neg hdebited]

theorem Apart.rank_funded (apart : Apart commands) (h : command ∈ commands)
    (hid : id ∈ command.operations.filterMap fundedEscrow?) :
    lockRank commands (.itemStackEscrow id) = 8 := by
  rw [lockRank, if_neg]
  intro hdrawn
  obtain ⟨c, hc, hcontains⟩ := List.any_eq_true.1 hdrawn
  exact apart.escrows command h c hc id hid (List.contains_iff_mem.1 hcontains)

end Conditions

section Plans

variable {commands : List ExecuteBatchCommand} {command : ExecuteBatchCommand}
  {hash : Uuid → Int}

theorem lockSequence_climbs {trade : Uuid} (single : ∀ id ∈ advisoryLockIds command, id = trade)
    (rows : ∀ held, (∀ l ∈ held, lockRank commands l ≤ 1) →
      Climbs (lockRank commands) held
        (authorizationLocks command ++ executionLocks command.operations)) :
    Climbs (lockRank commands) [] (lockSequence hash command) := by
  have hadvisory : ∀ (ids : List Uuid) (held : List Lock), (∀ id ∈ ids, id = trade) →
      (∀ l ∈ held, l = .advisory (hash trade)) →
      Climbs (lockRank commands) held (ids.map fun id => .advisory (hash id)) := by
    intro ids
    induction ids with
    | nil => exact fun _ _ _ => trivial
    | cons id ids ih =>
      intro held hids hheld
      obtain ⟨rfl, hids⟩ := List.forall_mem_cons.1 hids
      refine ⟨?_, ih _ hids ?_⟩
      · cases held with
        | nil => exact .inr fun m hm => by cases hm
        | cons m held =>
          rw [hheld m List.mem_cons_self]
          exact .inl List.mem_cons_self
      · intro l hl
        rcases List.mem_cons.1 hl with rfl | hl
        · rfl
        · exact hheld l hl
  refine (hadvisory _ [] single (by simp)).append fun held hheld => ?_
  have hzero : ∀ l ∈ held, lockRank commands l = 0 := by
    intro l hl
    rcases (hheld l).1 hl with hl | hl
    · cases hl
    · obtain ⟨id, _, rfl⟩ := List.mem_map.1 hl
      rfl
  refine ⟨.inr fun m hm => ?_, rows _ fun l hl => ?_⟩
  · rw [hzero m hm]
    exact Nat.zero_lt_one
  · rcases List.mem_cons.1 hl with rfl | hl
    · exact le_refl 1
    · rw [hzero l hl]
      exact Nat.zero_le 1

theorem climbs_of_held {rank : Lock → ℕ} {held r : List Lock} (h : ∀ l ∈ r, l ∈ held) :
    Climbs rank held r := by
  induction r generalizing held with
  | nil => trivial
  | cons l r ih =>
    obtain ⟨hl, hr⟩ := List.forall_mem_cons.1 h
    exact ⟨.inl hl, ih fun m hm => List.mem_cons_of_mem _ (hr m hm)⟩

theorem issue_climbs {p : IssuePlan} {actor : Int} (apart : Apart commands)
    (hmem : command ∈ commands) (intent : command.intent = .issue)
    (caused : command.causedByCapsuleerId = some actor)
    (operations : command.operations = p.operations)
    (identity : p.create.tradeInstanceId = some p.escrow.tradeInstanceId) :
    Climbs (lockRank commands) [] (lockSequence hash command) := by
  have hsingle : ∀ id ∈ advisoryLockIds command, id = p.escrow.tradeInstanceId := by
    intro id hid
    obtain ⟨c, hc, htrade⟩ := mem_advisoryLockIds.1 hid
    rw [operations] at hc
    rcases List.mem_cons.1 hc with rfl | hc
    · rw [SettlementCommand.tradeInstanceId, identity] at htrade
      exact (Option.some.inj htrade).symm
    · obtain rfl := List.mem_singleton.1 hc
      exact (Option.some.inj htrade).symm
  refine lockSequence_climbs hsingle fun held hheld => ?_
  have hauthorization : authorizationLocks command = [.itemStack p.escrow.sourceItemStackId] := by
    simp [authorizationLocks, caused, intent, operations, issueLocks, IssuePlan.operations]
  have hexecution : executionLocks command.operations = .itemStack p.escrow.sourceItemStackId ::
      p.escrow.itemStackEscrowId.toList.map .itemStackEscrow := by
    rw [operations]
    cases hescrow : p.escrow.itemStackEscrowId <;>
      simp [executionLocks, IssuePlan.operations, stepLocks, createdRow, identity, hescrow]
  have hlow : ∀ m ∈ held, lockRank commands m < 6 := fun m hm => (hheld m hm).trans_lt (by decide)
  rw [hauthorization, hexecution]
  refine ⟨.inr hlow, .inl List.mem_cons_self, ?_⟩
  · cases hescrow : p.escrow.itemStackEscrowId with
    | none => trivial
    | some e =>
      have hfunded : e ∈ command.operations.filterMap fundedEscrow? := by
        simp [operations, IssuePlan.operations, fundedEscrow?, hescrow]
      refine ⟨.inr ?_, trivial⟩
      rw [apart.rank_funded hmem hfunded]
      have hbelow : ∀ m ∈ held, lockRank commands m < 8 := fun m hm => (hlow m hm).trans (by decide)
      simpa using hbelow

/-- The steps of an acceptance ask for its new stack, for the wallet escrow, and otherwise for rows
that its authorisation has locked. -/
theorem AcceptPlan.flatMap_stepLocks {p : AcceptPlan}
    (identity : p.debit.walletEscrowId = some p.credit.walletEscrowId) :
    p.operations.flatMap (stepLocks (planTrade p.operations)) =
      (p.destination.bind fun d => d.itemStackId).toList.map .newItemStack ++
        ([.wallet p.debit.sourceWalletId, .tradeInstance p.debit.tradeInstanceId,
          .walletEscrow p.credit.walletEscrowId, .itemStackEscrow p.delivery.itemStackEscrowId,
          .itemStack p.delivery.destinationItemStackId, .tradeInstance p.debit.tradeInstanceId,
          .walletEscrow p.credit.walletEscrowId, .wallet p.credit.destinationWalletId,
          .tradeInstance p.debit.tradeInstanceId] ++
        p.completion.toList.map fun s => .tradeInstance s.tradeInstanceId) := by
  rw [AcceptPlan.planTrade_eq]
  obtain ⟨_ | d, debit, delivery, credit, _ | s⟩ := p <;>
    dsimp only at identity <;>
    simp [AcceptPlan.operations, stepLocks, releaseLocks, identity]

theorem payment_climbs {granted completion : List Lock}
    {payer trade escrow stack walletEscrow seller : Uuid}
    (hpayer : .wallet payer ∈ granted) (htrade : .tradeInstance trade ∈ granted)
    (hescrow : .itemStackEscrow escrow ∈ granted) (hstack : .itemStack stack ∈ granted)
    (hseller : .wallet seller ∈ granted) (hcompletion : ∀ l ∈ completion, l ∈ granted)
    (hrank : ∀ l ∈ granted, lockRank commands l < 9) :
    Climbs (lockRank commands) granted
      ([.wallet payer, .tradeInstance trade, .walletEscrow walletEscrow, .itemStackEscrow escrow,
        .itemStack stack, .tradeInstance trade, .walletEscrow walletEscrow, .wallet seller,
        .tradeInstance trade] ++ completion) := by
  have hrest : ∀ l ∈ [.itemStackEscrow escrow, .itemStack stack, .tradeInstance trade,
      .walletEscrow walletEscrow, .wallet seller, .tradeInstance trade] ++ completion,
      l ∈ .walletEscrow walletEscrow :: .tradeInstance trade :: .wallet payer :: granted := by
    intro l hl
    simp only [List.mem_append, List.mem_cons, List.not_mem_nil, or_false] at hl ⊢
    rcases hl with (rfl | rfl | rfl | rfl | rfl | rfl) | hl
    all_goals tauto
  refine ⟨.inl hpayer, .inl (List.mem_cons_of_mem _ htrade), .inr ?_, climbs_of_held hrest⟩
  simpa using ⟨hrank _ hpayer, hrank⟩

theorem accept_climbs {p : AcceptPlan} {actor : Int} (apart : Apart commands)
    (hmem : command ∈ commands) (intent : command.intent = .accept)
    (caused : command.causedByCapsuleerId = some actor)
    (operations : command.operations = p.operations)
    (identity : p.debit.walletEscrowId = some p.credit.walletEscrowId)
    (completion : ∀ s ∈ p.completion, s.tradeInstanceId = p.debit.tradeInstanceId) :
    Climbs (lockRank commands) [] (lockSequence hash command) := by
  have hsingle : ∀ id ∈ advisoryLockIds command, id = p.debit.tradeInstanceId := by
    intro id hid
    obtain ⟨c, hc, htrade⟩ := mem_advisoryLockIds.1 hid
    rw [operations] at hc
    simp only [AcceptPlan.operations, List.mem_append, List.mem_map, Option.mem_toList,
      List.mem_cons, List.not_mem_nil, or_false] at hc
    rcases hc with ⟨d, _, rfl⟩ | (rfl | rfl | rfl) | ⟨s, hs, rfl⟩
    · cases htrade
    · cases htrade
    · cases htrade
    · cases htrade
    · obtain rfl := Option.some.inj htrade
      exact completion s hs
  refine lockSequence_climbs hsingle fun held hheld => ?_
  have hauthorization : authorizationLocks command =
      [.wallet p.debit.sourceWalletId, .tradeInstance p.debit.tradeInstanceId,
        .itemStackEscrow p.delivery.itemStackEscrowId, .wallet p.credit.destinationWalletId] ++
      if p.operations.any (createsDestination actor p.delivery.destinationItemStackId) then []
      else [.itemStack p.delivery.destinationItemStackId] := by
    simp only [authorizationLocks, caused, intent, acceptLocks, operations,
      AcceptPlan.findSome_walletDebit, AcceptPlan.findSome_itemDelivery,
      AcceptPlan.findSome_sellerCredit]
  have hdebit : lockRank commands (.wallet p.debit.sourceWalletId) = 2 := by
    apply lockRank_debited hmem
    obtain ⟨_ | d, debit, delivery, credit, _ | s⟩ := p <;>
      simp [debitedWallets, operations, AcceptPlan.operations, walletDebit?]
  have hescrow : lockRank commands (.itemStackEscrow p.delivery.itemStackEscrowId) = 4 := by
    apply lockRank_drawn hmem
    obtain ⟨_ | d, debit, delivery, credit, _ | s⟩ := p <;>
      simp [operations, AcceptPlan.operations, drawnEscrow?]
  have hcredit : p.debit.sourceWalletId = p.credit.destinationWalletId ∨
      lockRank commands (.wallet p.credit.destinationWalletId) = 5 := by
    have hcredited : p.credit.destinationWalletId ∈ creditedWallets command → _ :=
      apart.rank_credited hmem
    obtain ⟨_ | d, debit, delivery, credit, _ | s⟩ := p <;>
      simpa [debitedWallets, creditedWallets, operations, AcceptPlan.operations, walletDebit?,
        sellerCredit?, eq_comm] using hcredited
  have hlow : ∀ n, 1 < n → ∀ m ∈ held, lockRank commands m < n := fun n hn m hm =>
    (hheld m hm).trans_lt hn
  refine Climbs.append ?_ fun held' hheld' => ?_
  · rw [hauthorization]
    refine ⟨.inr ?_, .inr ?_, .inr ?_, ?_, ?_⟩
    · simpa [hdebit] using hlow 2 (by decide)
    · simpa [hdebit] using hlow 3 (by decide)
    · simpa [hdebit, hescrow] using hlow 4 (by decide)
    · rcases hcredit with hsame | hrank
      · left
        simp [hsame]
      · right
        simpa [hdebit, hescrow, hrank] using hlow 5 (by decide)
    · split_ifs with hcreates
      · trivial
      · refine ⟨.inr ?_, trivial⟩
        rcases hcredit with hsame | hrank
        · rw [← hsame]
          simpa [hdebit, hescrow] using hlow 6 (by decide)
        · simpa [hdebit, hescrow, hrank] using hlow 6 (by decide)
  · -- The destination is locked already, or it is the stack that the plan inserts.
    have hlocked : ∀ l ∈ authorizationLocks command, l ∈ held' := fun l hl => (hheld' l).2 (.inr hl)
    have hrank : ∀ l ∈ held', lockRank commands l < 7 := by
      intro l hl
      rcases (hheld' l).1 hl with hl | hl
      · exact hlow 7 (by decide) l hl
      · rw [hauthorization, List.mem_append] at hl
        rcases hl with hl | hl
        · simp only [List.mem_cons, List.not_mem_nil, or_false] at hl
          rcases hl with rfl | rfl | rfl | rfl
          · omega
          · simp
          · omega
          · rcases hcredit with hsame | hrank
            · rw [← hsame]
              omega
            · omega
        · split_ifs at hl
          · cases hl
          · obtain rfl := List.mem_singleton.1 hl
            simp
    have hfull : Climbs (lockRank commands) (.itemStack p.delivery.destinationItemStackId :: held')
        (command.operations.flatMap (stepLocks (planTrade command.operations))) := by
      have hwallet : .wallet p.debit.sourceWalletId ∈ held' := hlocked _ (by simp [hauthorization])
      have htrade : .tradeInstance p.debit.tradeInstanceId ∈ held' :=
        hlocked _ (by simp [hauthorization])
      have hdrawn : .itemStackEscrow p.delivery.itemStackEscrowId ∈ held' :=
        hlocked _ (by simp [hauthorization])
      have hseller : .wallet p.credit.destinationWalletId ∈ held' :=
        hlocked _ (by simp [hauthorization])
      rw [operations, AcceptPlan.flatMap_stepLocks identity]
      refine Climbs.append ?_ fun held'' hheld'' => payment_climbs ?_ ?_ ?_ ?_ ?_ ?_ ?_
      · cases p.destination.bind fun d => d.itemStackId with
        | none => trivial
        | some id =>
          refine ⟨.inr ?_, trivial⟩
          simpa using hrank
      · exact (hheld'' _).2 (.inl (List.mem_cons_of_mem _ hwallet))
      · exact (hheld'' _).2 (.inl (List.mem_cons_of_mem _ htrade))
      · exact (hheld'' _).2 (.inl (List.mem_cons_of_mem _ hdrawn))
      · exact (hheld'' _).2 (.inl List.mem_cons_self)
      · exact (hheld'' _).2 (.inl (List.mem_cons_of_mem _ hseller))
      · intro l hl
        obtain ⟨s, hs, rfl⟩ := List.mem_map.1 hl
        rw [completion s (Option.mem_toList.1 hs)]
        exact (hheld'' _).2 (.inl (List.mem_cons_of_mem _ htrade))
      · intro l hl
        rcases (hheld'' l).1 hl with hl | hl
        · rcases List.mem_cons.1 hl with rfl | hl
          · simp
          · exact (hrank l hl).trans (by decide)
        · obtain ⟨id, _, rfl⟩ := List.mem_map.1 hl
          simp
    refine hfull.filter _ (fun l hl => List.mem_cons_of_mem _ hl) fun l hl hkeep => ?_
    rcases List.mem_cons.1 hl with rfl | hl
    · by_cases hcreates :
          p.operations.any (createsDestination actor p.delivery.destinationItemStackId) = true
      · obtain ⟨c, hc, hcreated⟩ := List.any_eq_true.1 hcreates
        cases c with
        | createNewEmptyItemStack d =>
          have hid : d.itemStackId = some p.delivery.destinationItemStackId :=
            (of_decide_eq_true hcreated).1
          have hinserted : .itemStack p.delivery.destinationItemStackId ∈
              command.operations.filterMap createdRow := by
            rw [operations]
            exact List.mem_filterMap.2 ⟨_, hc, by rw [createdRow, hid]; rfl⟩
          simp [hinserted] at hkeep
        | _ => cases hcreated
      · refine hlocked _ ?_
        rw [hauthorization, if_neg hcreates]
        simp
    · exact hl

theorem cancel_climbs {p : CancelPlan} {actor : Int} (apart : Apart commands)
    (hmem : command ∈ commands) (intent : command.intent = .cancel)
    (caused : command.causedByCapsuleerId = some actor)
    (operations : command.operations = p.operations) :
    Climbs (lockRank commands) [] (lockSequence hash command) := by
  have hsingle : ∀ id ∈ advisoryLockIds command, id = p.state.tradeInstanceId := by
    intro id hid
    obtain ⟨c, hc, htrade⟩ := mem_advisoryLockIds.1 hid
    rw [operations] at hc
    simp only [CancelPlan.operations, List.mem_append, List.mem_map, Option.mem_toList,
      List.mem_singleton] at hc
    rcases hc with ⟨r, _, rfl⟩ | ⟨r, _, rfl⟩ | rfl
    · cases htrade
    · cases htrade
    · exact (Option.some.inj htrade).symm
  have hrefund : p.refund = none := by
    have hnone := apart.refunds command hmem
    rw [operations] at hnone
    obtain ⟨_ | r, _ | refund, state⟩ := p <;>
      simp [CancelPlan.operations, walletRefund?] at hnone ⊢
  refine lockSequence_climbs hsingle fun held hheld => ?_
  have hauthorization : authorizationLocks command = .tradeInstance p.state.tradeInstanceId ::
      p.itemReturn.toList.flatMap fun r =>
        [.itemStackEscrow r.itemStackEscrowId, .itemStack r.destinationItemStackId] := by
    simp only [authorizationLocks, caused, intent, cancelLocks, operations,
      CancelPlan.findSome_stateTransition]
    obtain ⟨_ | r, _ | refund, state⟩ := p <;>
      simp [CancelPlan.operations, returnLocks] at hrefund ⊢
  have hexecution : ∀ l ∈ executionLocks command.operations, l ∈ authorizationLocks command := by
    rw [hauthorization, operations]
    intro l hl
    have hlocked := (mem_executionLocks.1 hl).1
    rw [CancelPlan.planTrade_eq] at hlocked
    obtain ⟨_ | r, _ | refund, state⟩ := p <;>
      simp [CancelPlan.operations, stepLocks, releaseLocks] at hrefund hlocked ⊢ <;> tauto
  refine Climbs.append ?_ fun held' hheld' => climbs_of_held fun l hl =>
    (hheld' l).2 (.inr (hexecution l hl))
  have hlow : ∀ n, 1 < n → ∀ m ∈ held, lockRank commands m < n := fun n hn m hm =>
    (hheld m hm).trans_lt hn
  rw [hauthorization]
  refine ⟨.inr (hlow 3 (by decide)), ?_⟩
  cases hreturn : p.itemReturn with
  | none => trivial
  | some r =>
    have hdrawn : r.itemStackEscrowId ∈ command.operations.filterMap drawnEscrow? := by
      simp [operations, CancelPlan.operations, drawnEscrow?, hreturn]
    have hrank := lockRank_drawn hmem hdrawn
    refine ⟨.inr ?_, .inr ?_, trivial⟩
    · simpa [hrank] using hlow 4 (by decide)
    · simpa [hrank] using hlow 6 (by decide)

theorem valid_climbs (apart : Apart commands) (hmem : command ∈ commands)
    (valid : validatePlanSemantics command = .ok ()) :
    Climbs (lockRank commands) [] (lockSequence hash command) := by
  unfold validatePlanSemantics at valid
  cases hactor : command.causedByCapsuleerId with
  | none => simp [hactor] at valid
  | some actor =>
    cases hintent : command.intent with
    | unspecified => simp [hactor, hintent] at valid
    | issue =>
      simp only [hactor, hintent] at valid
      obtain ⟨p, operations, _, identity, _⟩ := validateIssue_eq_ok valid
      exact issue_climbs apart hmem hintent hactor operations identity
    | accept =>
      simp only [hactor, hintent] at valid
      obtain ⟨p, operations, _, identity, _, completion⟩ := validateAccept_eq_ok valid
      exact accept_climbs apart hmem hintent hactor operations identity fun s hs =>
        (completion s hs).1
    | cancel =>
      simp only [hactor, hintent] at valid
      obtain ⟨p, operations, _⟩ := validateCancel_eq_ok valid
      exact cancel_climbs apart hmem hintent hactor operations

end Plans

def batches (hash : Uuid → Int) (commands : List ExecuteBatchCommand) : List (Party Lock) :=
  start (commands.map (lockSequence hash))

/-- Batches can end up waiting for each other in a cycle exactly if their sequences of locks cross;
and they cannot if they are apart. -/
theorem batches_wait_iff (hash : Uuid → Int) (commands : List ExecuteBatchCommand)
    (valid : ∀ c ∈ commands, validatePlanSemantics c = .ok ()) :
    ((∀ schedule, ¬ Deadlocked (LockSchedules.run schedule (batches hash commands))) ↔
      ¬ Crossing (commands.map (lockSequence hash))) ∧
    (Apart commands →
      ∀ schedule, ¬ Deadlocked (LockSchedules.run schedule (batches hash commands))) := by
  have hiff := deadlock_free_iff (commands.map (lockSequence hash))
  refine ⟨hiff, fun apart => hiff.2 ?_⟩
  apply not_crossing_of_climbs (lockRank commands)
  intro r hr
  obtain ⟨c, hc, rfl⟩ := List.mem_map.1 hr
  exact valid_climbs apart hc (valid c hc)

section Seeded

open LocalDevWorld

def withdrawal : ExecuteBatchCommand := cancelTradeCommand "cancel" tradeId escrowId 10 none

theorem batches_wait_iff_withdrawal :
    Apart [acceptFour, withdrawal] ∧ ∀ schedule, ¬ Deadlocked
      (LockSchedules.run schedule (batches (fun id => id.value) [acceptFour, withdrawal])) :=
  have apart : Apart [acceptFour, withdrawal] := ⟨by decide, by decide, by decide⟩
  ⟨apart, (batches_wait_iff (fun id => id.value) [acceptFour, withdrawal] (by decide)).2 apart⟩

def returnTradeId : Uuid := .ofNat 0x81
def returnEscrowId : Uuid := .ofNat 0x82

def offerOfTwo : ExecuteBatchCommand where
  intent := .issue
  idempotencyKey := "issue back"
  requestFingerprint := none
  externalRequestId := none
  causedByCapsuleerId := some buyerId
  operations := [
    .createNewTradeInstanceRow ⟨some returnTradeId, "SELL", "OPEN", buyerId, 34, 60003760, 2, 25,
      none⟩,
    .transferQuantityFromItemStackToItemStackEscrow ⟨buyerStackId, some returnEscrowId,
      returnTradeId, 2⟩]
  createdByService := "market"
  requestId := none

def acceptBack : ExecuteBatchCommand where
  intent := .accept
  idempotencyKey := "accept back"
  requestFingerprint := none
  externalRequestId := none
  causedByCapsuleerId := some sellerId
  operations := [
    .transferIskAmountFromWalletToWalletEscrow ⟨sellerWalletId, some (.ofNat 0x83), returnTradeId,
      25⟩,
    .transferQuantityFromItemStackEscrowToItemStackWithNewOwner ⟨returnEscrowId, sourceStackId, 1⟩,
    .transferIskAmountFromWalletEscrowToWalletWithNewOwner ⟨.ofNat 0x83, buyerWalletId, 25⟩]
  createdByService := "market"
  requestId := none

def bothOffers : Db :=
  runCalls transparent (offerOfTen ++ [(quietEnv 150, offerOfTwo)]) (localDevWorld transparent)

/-- Each acceptance takes its record, the wallet it debits, its trade and its escrow. -/
def fourEach : List Event :=
  List.replicate 4 (.request 0) ++ List.replicate 4 (.request 1)

/-- Either acceptance commits alone, and together each waits for the wallet that the other debits. -/
theorem crossedAccepts_deadlock :
    acceptFour.idempotencyKey ≠ acceptBack.idempotencyKey ∧
    commits (executeBatch transparent (quietEnv 200) acceptFour bothOffers).1 = true ∧
    commits (executeBatch transparent (quietEnv 300) acceptBack bothOffers).1 = true ∧
    Deadlocked (LockSchedules.run fourEach
      (batches (fun id => id.value) [acceptFour, acceptBack])) := by
  refine ⟨by decide, by decide +kernel, by decide +kernel, 0, ?_⟩
  have hbuyer : Waits (LockSchedules.run fourEach
      (batches (fun id => id.value) [acceptFour, acceptBack])) 0 1 := by decide +kernel
  have hseller : Waits (LockSchedules.run fourEach
      (batches (fun id => id.value) [acceptFour, acceptBack])) 1 0 := by decide +kernel
  exact .tail (.single hbuyer) hseller

end Seeded

end EveTrade.SettlementDeadlocks
