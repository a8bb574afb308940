import EveTrade.TradeCalls

set_option autoImplicit false

/-!
# What a trade advertises

A trade row, an item escrow and an item stack each name an item type, a station and an owner. An
issue takes those of the trade from one operation and those of the escrow from the stack that another
operation names, and nothing compares them.
-/
namespace EveTrade.TradeLabels

open KeyedTable UuidText SettlementTypes SettlementCommands SettlementSchema SettlementStatements
  SettlementOperations SettlementEffects SettlementPlan SettlementExecutor SettlementOutcome
  SettlementRecords SettlementAuthorizationSpecs TradeBook TradeFrames TradeCalls

structure ItemLabel where
  itemTypeId : Int
  stationId : Int
  ownerId : Int
deriving DecidableEq

def stackLabel (s : ItemStackRow) : ItemLabel := ⟨s.itemTypeId, s.stationId, s.ownerId⟩

def escrowLabel (e : ItemStackEscrowRow) : ItemLabel := ⟨e.itemTypeId, e.stationId, e.ownerId⟩

def tradeLabel (t : TradeInstanceRow) : ItemLabel := ⟨t.itemTypeId, t.stationId, t.issuerId⟩

/-- Every escrow holds the item type that its trade advertises, at the station it advertises, for its
issuer. -/
def Truthful (b : Business) : Prop :=
  ∀ e ∈ b.itemStackEscrow.rows, ∃ t, b.tradeInstance.find? e.tradeInstanceId = some t ∧
    tradeLabel t = escrowLabel e

instance (b : Business) : Decidable (Truthful b) :=
  decidable_of_iff (∀ e ∈ b.itemStackEscrow.rows,
      (b.tradeInstance.find? e.tradeInstanceId).map tradeLabel = some (escrowLabel e)) (by
    unfold Truthful
    simp only [Option.map_eq_some_iff])

section Steps

variable {ext : External} {ctx : StepContext} {c : SettlementCommand} {b b' : Business}
  {checks : List DeferredCheck}

def escrowIdentity (e : ItemStackEscrowRow) : Uuid × Uuid × ItemLabel :=
  (e.itemStackEscrowId, e.tradeInstanceId, escrowLabel e)

/-- Trades and stacks that exist keep their labels. -/
structure Labelled (b b' : Business) : Prop where
  trades : Table.Keeps tradeLabel b.tradeInstance b'.tradeInstance
  itemStacks : Table.Keeps stackLabel b.itemStack b'.itemStack

theorem Labelled.refl (b : Business) : Labelled b b := ⟨.refl _ _, .refl _ _⟩

theorem Labelled.trans {b₁ b₂ b₃ : Business} (h : Labelled b₁ b₂) (h' : Labelled b₂ b₃) :
    Labelled b₁ b₃ := ⟨h.trades.trans h'.trades, h.itemStacks.trans h'.itemStacks⟩

theorem StackPosting.labelled {s : ItemStackRow} {kind : EntryKind} {delta : Int} {st : StackState}
    (h : StackPosting ext ctx s kind delta st b b' checks) : Labelled b b' := by
  cases h with
  | posted found valid nonneg l entry => exact ⟨.refl _ _, .set found rfl⟩

theorem WalletPosting.labelled {w : WalletRow} {kind : EntryKind} {delta : Int}
    (h : WalletPosting ext ctx w kind delta b b') : Labelled b b' := by
  cases h with
  | posted found valid nonneg => exact ⟨.refl _ _, .refl _ _⟩

theorem drawnItemEscrow_identity (ctx : StepContext) (e : ItemStackEscrowRow) (after : Int) (h : 0 ≤ after) :
    escrowIdentity (drawnItemEscrow ctx e after h) = escrowIdentity e := by
  unfold drawnItemEscrow
  split_ifs <;> rfl

theorem itemRelease_labelled {rule : EscrowOwnerRule}
    {p : TransferQuantityFromItemStackEscrowToItemStack}
    (h : ItemRelease ext ctx rule p b b' checks) : Labelled b b' := by
  obtain ⟨e, destination, t, b₁, c₁, positive, escrow, unreleased, h, destinationId, active,
    itemType, station, ownerRule, trade, paid, remaining, range, posting⟩ := h
  have htrade : b₁.tradeInstance.find? t.tradeInstanceId = some t := by
    rw [posting.tradeInstance, show t.tradeInstanceId = e.tradeInstanceId from
      Table.find?_some_key trade]
    exact trade
  refine (StackPosting.labelled posting).trans ⟨?_, .refl _ _⟩
  exact .set (r := t.withRemaining (e.quantity - p.quantity) range) htrade rfl

theorem iskRelease_labelled {rule : EscrowOwnerRule} {p : TransferIskAmountFromWalletEscrowToWallet}
    (h : IskRelease ext ctx rule p b b' checks) : Labelled b b' := by
  obtain ⟨e, destination, b₁, positive, escrow, unreleased, h, destinationId, active, ownerRule,
    live, posting⟩ := h
  exact (WalletPosting.labelled posting).trans ⟨.refl _ _, .refl _ _⟩

theorem effect_labelled (h : Effect ext ctx c b b' checks) : Labelled b b' := by
  cases c with
  | createNewTradeInstanceRow p =>
    obtain ⟨ht, hp, future, trades, inserted, _, _, _⟩ : TradeCreation ctx p b b' checks := h
    exact ⟨.insert inserted, .refl _ _⟩
  | modifyTradeInstanceState p =>
    obtain ⟨t, found, opened, state, target, closes, kind, kindText, completes⟩ :
      StateChange ctx p b b' checks := h
    have htrade : b.tradeInstance.find? t.tradeInstanceId = some t := by
      rw [show t.tradeInstanceId = p.tradeInstanceId from Table.find?_some_key found]
      exact found
    exact ⟨.set (r := t.withState state) htrade rfl, .refl _ _⟩
  | createNewEmptyItemStack p =>
    obtain ⟨id, hid, rows, inserted, owner, l, entry⟩ : StackCreation ext ctx p b b' checks := h
    exact ⟨.refl _ _, .insert inserted⟩
  | transferQuantityFromItemStackToItemStackEscrow p =>
    obtain ⟨t, source, b₁, b₂, c₁, c₂, _, _, _, _, _, _, _, _, posting, funding⟩ :
      ItemDeposit ext ctx p b b' checks := h
    refine (StackPosting.labelled posting).trans ?_
    rw [funding.frame]
    exact ⟨.refl _ _, .refl _ _⟩
  | transferQuantityFromItemStackEscrowToItemStackWithNewOwner p => exact itemRelease_labelled h
  | transferQuantityFromItemStackEscrowToItemStackWithPreviousOwner p => exact itemRelease_labelled h
  | mergeItemStacksWithIdenticalItemTypeAndIdenticalOwner p =>
    obtain ⟨source, destination, b₁, b₂, c₁, c₂, _, _, _, _, _, _, _, _, credit, debit⟩ :
      StackMerge ext ctx p b b' checks := h
    exact (StackPosting.labelled credit).trans (StackPosting.labelled debit)
  | createNewEmptyWalletEscrow p =>
    obtain ⟨w, _, _, _, escrows, _, _⟩ : WalletEscrowCreation ctx p b b' checks := h
    exact ⟨.refl _ _, .refl _ _⟩
  | transferIskAmountFromWalletToWalletEscrow p =>
    obtain ⟨source, t, b₁, b₂, c₂, _, _, _, _, _, _, _, _, _, posting, funding⟩ :
      IskDeposit ext ctx p b b' checks := h
    refine (WalletPosting.labelled posting).trans ?_
    rw [funding.frame]
    exact ⟨.refl _ _, .refl _ _⟩
  | transferIskAmountFromWalletEscrowToWalletWithNewOwner p => exact iskRelease_labelled h
  | transferIskAmountFromWalletEscrowToWalletWithPreviousOwner p => exact iskRelease_labelled h

def deposits : SettlementCommand → Bool
  | .transferQuantityFromItemStackToItemStackEscrow _ => true
  | _ => false

theorem itemRelease_escrows {rule : EscrowOwnerRule}
    {p : TransferQuantityFromItemStackEscrowToItemStack}
    (h : ItemRelease ext ctx rule p b b' checks) :
    Table.Within escrowIdentity b.itemStackEscrow b'.itemStackEscrow := by
  obtain ⟨e, destination, t, b₁, c₁, positive, escrow, unreleased, h, destinationId, active,
    itemType, station, ownerRule, trade, paid, remaining, range, posting⟩ := h
  have hidentity := drawnItemEscrow_identity ctx e (e.quantity - p.quantity) h
  have hescrow : b₁.itemStackEscrow.find?
      (drawnItemEscrow ctx e (e.quantity - p.quantity) h).itemStackEscrowId = some e := by
    rw [show (drawnItemEscrow ctx e (e.quantity - p.quantity) h).itemStackEscrowId =
        e.itemStackEscrowId from congrArg Prod.fst hidentity, posting.itemStackEscrow,
      show e.itemStackEscrowId = p.itemStackEscrowId from Table.find?_some_key escrow]
    exact escrow
  dsimp only
  rw [← posting.itemStackEscrow]
  exact .set hescrow hidentity

theorem effect_escrows (h : Effect ext ctx c b b' checks) (hc : deposits c = false) :
    Table.Within escrowIdentity b.itemStackEscrow b'.itemStackEscrow := by
  cases c with
  | createNewTradeInstanceRow p =>
    obtain ⟨_, _, _, trades, _, _, _, _⟩ : TradeCreation ctx p b b' checks := h
    exact .refl _ _
  | modifyTradeInstanceState p =>
    obtain ⟨t, _, _, state, _, _, kind, _, _⟩ : StateChange ctx p b b' checks := h
    exact .refl _ _
  | createNewEmptyItemStack p =>
    obtain ⟨id, _, rows, _, _, l, _⟩ : StackCreation ext ctx p b b' checks := h
    exact .refl _ _
  | transferQuantityFromItemStackToItemStackEscrow p => cases hc
  | transferQuantityFromItemStackEscrowToItemStackWithNewOwner p => exact itemRelease_escrows h
  | transferQuantityFromItemStackEscrowToItemStackWithPreviousOwner p => exact itemRelease_escrows h
  | mergeItemStacksWithIdenticalItemTypeAndIdenticalOwner p =>
    obtain ⟨source, destination, b₁, b₂, c₁, c₂, _, _, _, _, _, _, _, _, credit, debit⟩ :
      StackMerge ext ctx p b b' checks := h
    rw [debit.itemStackEscrow, credit.itemStackEscrow]
    exact .refl _ _
  | createNewEmptyWalletEscrow p =>
    obtain ⟨w, _, _, _, escrows, _, _⟩ : WalletEscrowCreation ctx p b b' checks := h
    exact .refl _ _
  | transferIskAmountFromWalletToWalletEscrow p =>
    obtain ⟨source, t, b₁, b₂, c₂, _, _, _, _, _, _, _, _, _, posting, funding⟩ :
      IskDeposit ext ctx p b b' checks := h
    rw [funding.frame, posting.frame]
    exact .refl _ _
  | transferIskAmountFromWalletEscrowToWalletWithNewOwner p =>
    obtain ⟨e, destination, b₁, _, _, _, h, _, _, _, _, posting⟩ :
      IskRelease ext ctx .newOwner p b b' checks := h
    rw [posting.frame]
    exact .refl _ _
  | transferIskAmountFromWalletEscrowToWalletWithPreviousOwner p =>
    obtain ⟨e, destination, b₁, _, _, _, h, _, _, _, _, posting⟩ :
      IskRelease ext ctx .previousOwner p b b' checks := h
    rw [posting.frame]
    exact .refl _ _

theorem Truthful.keeps (h : Truthful b) (labels : Labelled b b')
    (escrows : Table.Within escrowIdentity b.itemStackEscrow b'.itemStackEscrow) : Truthful b' := by
  intro e' he'
  obtain ⟨e, he, hidentity⟩ := escrows e' he'
  obtain ⟨t, ht, hlabel⟩ := h e he
  obtain ⟨t', ht', hkept⟩ := labels.trades e.tradeInstanceId t ht
  have htrade : e.tradeInstanceId = e'.tradeInstanceId := congrArg (fun x => x.2.1) hidentity
  have hsame : escrowLabel e = escrowLabel e' := congrArg (fun x => x.2.2) hidentity
  exact ⟨t', htrade ▸ ht', by rw [hkept, hlabel, hsame]⟩

end Steps

section Plans

variable {ext : External} {env : ExecEnv} {i : ℕ} {cs : List SettlementCommand} {b b' : Business}
  {checks : List DeferredCheck} {os : List OperationOutput} {actor : Int}

theorem stepsRun_labelled (h : StepsRun ext env i cs b b' checks os) : Labelled b b' := by
  induction h with
  | nil => exact .refl _
  | cons effect _ ih => exact (effect_labelled effect).trans ih

theorem stepsRun_escrows (h : StepsRun ext env i cs b b' checks os)
    (hcs : ∀ c ∈ cs, deposits c = false) :
    Table.Within escrowIdentity b.itemStackEscrow b'.itemStackEscrow := by
  induction h with
  | nil => exact .refl _ _
  | cons effect _ ih =>
    obtain ⟨hc, hcs⟩ := List.forall_mem_cons.1 hcs
    exact (effect_escrows effect hc).trans (ih hcs)

/-- The issue advertises what its source stack holds. -/
def AdvertisesSource (b : Business) (command : ExecuteBatchCommand) : Prop :=
  match command.operations with
  | [.createNewTradeInstanceRow create, .transferQuantityFromItemStackToItemStackEscrow escrow] =>
    ∀ s ∈ b.itemStack.find? escrow.sourceItemStackId,
      s.itemTypeId = create.itemTypeId ∧ s.stationId = create.stationId
  | _ => True

theorem issue_truthful_iff {p : IssuePlan} (hb : Book b) (hg : IssueAuthorized actor b p)
    (hrun : StepsRun ext env i p.operations b b' checks os) (h : Truthful b) :
    Truthful b' ↔ ∀ s ∈ b.itemStack.find? p.escrow.sourceItemStackId,
      s.itemTypeId = p.create.itemTypeId ∧ s.stationId = p.create.stationId := by
  have hlabelled := stepsRun_labelled hrun
  cases hrun with
  | cons creation run =>
  obtain ⟨ctx, deposit⟩ := StepsRun.of_singleton run
  obtain ⟨ht, hp, future, trades, inserted, issuer, itemType, station⟩ :
    TradeCreation _ p.create b _ _ := creation
  obtain ⟨t, source, b₁, b₂, c₁, c₂, positive, trade, opened, live, sourceId, active, owner,
    enough, posting, funding⟩ : ItemDeposit _ _ p.escrow _ _ _ := deposit
  rw [hg.identity, Option.getD_some] at inserted
  have hnew := Table.find?_insert_self inserted
  obtain rfl := Option.some.inj (trade.symm.trans hnew)
  obtain ⟨found, valid, nonneg, l, entry⟩ := posting
  have hsource : b.itemStack.find? p.escrow.sourceItemStackId = some source := sourceId ▸ found
  cases funding with
  | toppedUp e hfound unreleased htrade _ _ _ _ =>
    have hne := hb.escrowTrade_ne inserted (Table.find?_some_mem hfound)
    exact absurd htrade.symm hne
  | opened absent _ escrows newEscrow sole =>
    constructor
    · intro htruthful s hs
      obtain rfl := Option.some.inj (hsource.symm.trans hs)
      obtain ⟨t', ht', hlabel⟩ := htruthful _ ((Table.mem_insert newEscrow).2 (.inr rfl))
      obtain rfl := Option.some.inj (hnew.symm.trans ht')
      exact ⟨(congrArg ItemLabel.itemTypeId hlabel).symm, (congrArg ItemLabel.stationId hlabel).symm⟩
    · intro hadvertises e' he'
      rcases (Table.mem_insert newEscrow).1 he' with hold | rfl
      · obtain ⟨t, ht, hlabel⟩ := h e' hold
        obtain ⟨t', ht', hkept⟩ := hlabelled.trades _ t ht
        exact ⟨t', ht', hkept.trans hlabel⟩
      · obtain ⟨htype, hstation⟩ := hadvertises source hsource
        refine ⟨_, hnew, ?_⟩
        have howner : p.create.issuerId = source.ownerId := owner.symm
        simp only [tradeLabel, escrowLabel, newTradeInstance, newItemStackEscrow, htype, hstation,
          howner]

theorem AcceptPlan.no_deposit (p : AcceptPlan) : ∀ c ∈ p.operations, deposits c = false := by
  obtain ⟨_ | d, debit, delivery, credit, _ | completion⟩ := p <;>
    simp [AcceptPlan.operations, deposits]

theorem CancelPlan.no_deposit (p : CancelPlan) : ∀ c ∈ p.operations, deposits c = false := by
  obtain ⟨_ | itemReturn, _ | refund, state⟩ := p <;> simp [CancelPlan.operations, deposits]

theorem advertisesSource_issue {p : IssuePlan} {command : ExecuteBatchCommand}
    (operations : command.operations = p.operations) :
    AdvertisesSource b command ↔ ∀ s ∈ b.itemStack.find? p.escrow.sourceItemStackId,
      s.itemTypeId = p.create.itemTypeId ∧ s.stationId = p.create.stationId := by
  unfold AdvertisesSource
  rw [operations]
  rfl

theorem advertisesSource_accept {p : AcceptPlan} {command : ExecuteBatchCommand}
    (operations : command.operations = p.operations) : AdvertisesSource b command := by
  unfold AdvertisesSource
  rw [operations]
  obtain ⟨_ | d, debit, delivery, credit, _ | completion⟩ := p <;> trivial

theorem advertisesSource_cancel {p : CancelPlan} {command : ExecuteBatchCommand}
    (operations : command.operations = p.operations) : AdvertisesSource b command := by
  unfold AdvertisesSource
  rw [operations]
  obtain ⟨_ | itemReturn, _ | refund, state⟩ := p <;> trivial

theorem licensed_truthful_iff {command : ExecuteBatchCommand} (hb : Book b)
    (hl : Licensed actor b command)
    (hrun : StepsRun ext env i command.operations b b' checks os) (h : Truthful b) :
    Truthful b' ↔ AdvertisesSource b command := by
  cases hl with
  | issue p intent operations granted =>
    rw [advertisesSource_issue operations]
    rw [operations] at hrun
    exact issue_truthful_iff hb granted hrun h
  | accept p t e intent operations granted =>
    refine iff_of_true ?_ (advertisesSource_accept operations)
    rw [operations] at hrun
    exact h.keeps (stepsRun_labelled hrun) (stepsRun_escrows hrun (AcceptPlan.no_deposit p))
  | cancel p t intent operations granted =>
    refine iff_of_true ?_ (advertisesSource_cancel operations)
    rw [operations] at hrun
    exact h.keeps (stepsRun_labelled hrun) (stepsRun_escrows hrun (CancelPlan.no_deposit p))

theorem accept_delivers {p : AcceptPlan} {t : TradeInstanceRow} {e : ItemStackEscrowRow}
    (hg : AcceptAuthorized actor b p t e)
    (hrun : StepsRun ext env i p.operations b b' checks os) (h : Truthful b) :
    ∃ s, b'.itemStack.find? p.delivery.destinationItemStackId = some s ∧
      s.itemTypeId = t.itemTypeId ∧ s.stationId = t.stationId := by
  obtain ⟨b₁, c₁, c₂, o₁, o₂, creation, later, rfl⟩ := StepsRun.of_append hrun
  cases later with
  | cons debit run =>
  cases run with
  | cons delivery rest =>
  have hcreated : ∀ c ∈ p.destination.toList.map SettlementCommand.createNewEmptyItemStack,
      deposits c = false := by
    intro c hc
    obtain ⟨d, _, rfl⟩ := List.mem_map.1 hc
    rfl
  have hescrows := (stepsRun_escrows creation hcreated).trans (effect_escrows debit rfl)
  have hlater := (effect_labelled delivery).trans (stepsRun_labelled rest)
  obtain ⟨e₂, destination, t₂, b₃, c₃, positive, escrow, unreleased, _, destinationId, active,
    itemType, station, ownerRule, trade, paid, remaining, range, posting⟩ :
    ItemRelease _ _ .newOwner p.delivery _ _ _ := delivery
  obtain ⟨found, valid, nonneg, l, entry⟩ := posting
  -- the escrow drawn from is the one that was authorised
  obtain ⟨e₀, he₀, hidentity⟩ := hescrows e₂ (Table.find?_some_mem escrow)
  have hid : e₀.itemStackEscrowId = e.itemStackEscrowId := by
    have hkey : e₂.itemStackEscrowId = p.delivery.itemStackEscrowId := Table.find?_some_key escrow
    have hkey' : e.itemStackEscrowId = p.delivery.itemStackEscrowId := Table.find?_some_key hg.escrow
    rw [show e₀.itemStackEscrowId = e₂.itemStackEscrowId from congrArg Prod.fst hidentity, hkey,
      hkey']
  obtain rfl : e₀ = e := Table.mem_unique he₀ (Table.find?_some_mem hg.escrow) hid
  have hlabel : escrowLabel e₀ = escrowLabel e₂ := congrArg (fun x => x.2.2) hidentity
  obtain ⟨t₀, ht₀, htrade⟩ := h e₀ he₀
  rw [hg.escrowTrade] at ht₀
  obtain rfl := Option.some.inj (ht₀.symm.trans hg.trade)
  obtain ⟨s, hs, hstack⟩ := hlater.itemStacks _ destination found
  rw [destinationId] at hs
  have hsame : tradeLabel t₀ = escrowLabel e₂ := htrade.trans hlabel
  refine ⟨s, hs, ?_, ?_⟩
  · calc s.itemTypeId = destination.itemTypeId := congrArg ItemLabel.itemTypeId hstack
      _ = e₂.itemTypeId := itemType
      _ = t₀.itemTypeId := (congrArg ItemLabel.itemTypeId hsame).symm
  · calc s.stationId = destination.stationId := congrArg ItemLabel.stationId hstack
      _ = e₂.stationId := station
      _ = t₀.stationId := (congrArg ItemLabel.stationId hsame).symm

end Plans

section Calls

variable {ext : External} {env : ExecEnv} {command : ExecuteBatchCommand} {db : Db}

theorem committed_run (hintent : command.intent ≠ .unspecified)
    (committed : commits (executeBatch ext env command db).1 = true) :
    ∃ actor checks outputs, Licensed actor db.business command ∧
      StepsRun ext env 0 command.operations db.business
        (executeBatch ext env command db).2.business checks outputs := by
  rcases executeBatch_outcome ext env command db with
    ⟨uncommitted, _⟩ | ⟨_, checks, outputs, hplan, authorized, run, _⟩
  · rw [committed] at uncommitted
    cases uncommitted
  · obtain ⟨actor, _, hlicensed⟩ := licensed_of_authorized hintent hplan (authorized hintent)
    exact ⟨actor, checks, outputs, hlicensed, run⟩

/-- Every call of the run that commits an issue advertises its source. -/
def AdvertisesThroughout (ext : External) :
    List (ExecEnv × ExecuteBatchCommand) → Db → Prop
  | [], _ => True
  | call :: calls, db =>
    (commits (executeBatch ext call.1 call.2 db).1 = true → AdvertisesSource db.business call.2) ∧
      AdvertisesThroughout ext calls (executeBatch ext call.1 call.2 db).2

theorem executeBatch_truthful (hb : Book db.business) (hintent : command.intent ≠ .unspecified)
    (h : Truthful db.business)
    (advertises : commits (executeBatch ext env command db).1 = true →
      AdvertisesSource db.business command) :
    Truthful (executeBatch ext env command db).2.business := by
  rcases executeBatch_moves ext env hb hintent with ⟨_, hsame⟩ | ⟨committed, _⟩
  · rw [hsame]
    exact h
  · obtain ⟨actor, checks, outputs, hlicensed, hrun⟩ := committed_run hintent committed
    exact (licensed_truthful_iff hb hlicensed hrun h).2 (advertises committed)

theorem runCalls_truthful {calls : List (ExecEnv × ExecuteBatchCommand)} (hb : Book db.business)
    (hintents : ∀ call ∈ calls, call.2.intent ≠ .unspecified) (h : Truthful db.business)
    (advertises : AdvertisesThroughout ext calls db) :
    Truthful (runCalls ext calls db).business := by
  induction calls generalizing db with
  | nil => exact h
  | cons call calls ih =>
    obtain ⟨hintent, hintents⟩ := List.forall_mem_cons.1 hintents
    exact ih (executeBatch_book ext call.1 hb hintent) hintents
      (executeBatch_truthful hb hintent h advertises.1) advertises.2

/-- In every state that calls with an intent can reach, each escrow belongs to the issuer of its
trade. While every escrow has the item type and the station of its trade, a call that commits keeps
it so exactly when it is no issue of another item type or station than its source stack's; along a
run of such calls it stays so, and an acceptance delivers what its trade advertises. -/
theorem escrows_truthful_iff (ext : External) (calls : List (ExecEnv × ExecuteBatchCommand)) (db : Db)
    (empty : NoTrades db.business) (intents : ∀ call ∈ calls, call.2.intent ≠ .unspecified) :
    (∀ e ∈ (runCalls ext calls db).business.itemStackEscrow.rows, ∃ t,
      (runCalls ext calls db).business.tradeInstance.find? e.tradeInstanceId = some t ∧
        t.issuerId = e.ownerId) ∧
    (∀ env command, command.intent ≠ .unspecified →
      commits (executeBatch ext env command (runCalls ext calls db)).1 = true →
      Truthful (runCalls ext calls db).business →
      (Truthful (executeBatch ext env command (runCalls ext calls db)).2.business ↔
        AdvertisesSource (runCalls ext calls db).business command)) ∧
    (AdvertisesThroughout ext calls db →
      Truthful (runCalls ext calls db).business ∧
      ∀ env command, command.intent = .accept →
        commits (executeBatch ext env command (runCalls ext calls db)).1 = true →
        ∃ (p : AcceptPlan) (t : TradeInstanceRow) (s : ItemStackRow),
          command.operations = p.operations ∧
          (runCalls ext calls db).business.tradeInstance.find? p.debit.tradeInstanceId = some t ∧
          (executeBatch ext env command (runCalls ext calls db)).2.business.itemStack.find?
            p.delivery.destinationItemStackId = some s ∧
          s.itemTypeId = t.itemTypeId ∧ s.stationId = t.stationId) := by
  have hbook := runCalls_book ext empty.book intents
  refine ⟨hbook.escrowTrade, ?_, ?_⟩
  · intro env command hintent committed htruthful
    obtain ⟨actor, checks, outputs, hlicensed, hrun⟩ := committed_run hintent committed
    exact licensed_truthful_iff hbook hlicensed hrun htruthful
  · intro advertises
    have hstart : Truthful db.business := by
      intro e he
      rw [empty.itemStackEscrow] at he
      cases he
    have htruthful := runCalls_truthful empty.book intents hstart advertises
    refine ⟨htruthful, fun env command hintent committed => ?_⟩
    have hspecified : command.intent ≠ .unspecified := by
      rw [hintent]
      decide
    obtain ⟨actor, checks, outputs, hlicensed, hrun⟩ := committed_run hspecified committed
    cases hlicensed with
    | issue p intent _ _ =>
      rw [hintent] at intent
      cases intent
    | cancel p t intent _ _ =>
      rw [hintent] at intent
      cases intent
    | accept p t e intent operations granted =>
      rw [operations] at hrun
      obtain ⟨s, hs, htype, hstation⟩ := accept_delivers granted hrun htruthful
      exact ⟨p, t, s, operations, granted.trade, hs, htype, hstation⟩

end Calls

section Seeded

open LocalDevWorld

instance (b : Business) (command : ExecuteBatchCommand) : Decidable (AdvertisesSource b command) := by
  unfold AdvertisesSource
  split <;> infer_instance

instance decidableAdvertisesThroughout (ext : External) :
    ∀ (calls : List (ExecEnv × ExecuteBatchCommand)) (db : Db),
      Decidable (AdvertisesThroughout ext calls db)
  | [], _ => isTrue trivial
  | _ :: calls, _ =>
    haveI := decidableAdvertisesThroughout ext calls
    inferInstanceAs (Decidable (_ ∧ _))

theorem escrows_truthful_offerOfTen :
    AdvertisesThroughout transparent offerOfTen (localDevWorld transparent) ∧
      Truthful (runCalls transparent offerOfTen (localDevWorld transparent)).business :=
  have h : AdvertisesThroughout transparent offerOfTen (localDevWorld transparent) := by
    decide +kernel
  ⟨h, ((escrows_truthful_iff transparent offerOfTen (localDevWorld transparent) ⟨rfl, rfl, rfl⟩
    (by decide)).2.2 h).1⟩

/-- The seller offers ten of item type 34 and deposits ten of their stack of item type 35. -/
def mislabelledOffer : ExecuteBatchCommand :=
  { issueTradeCommand "issue" tradeId escrowId 10 none with
    operations := [
      .createNewTradeInstanceRow ⟨some tradeId, "SELL", "OPEN", sellerId, 34, 60003760, 10, 25, none⟩,
      .transferQuantityFromItemStackToItemStackEscrow ⟨pyeriteStackId, some escrowId, tradeId, 10⟩] }

theorem mislabelledOffer_commits :
    commits (executeBatch transparent (quietEnv 100) mislabelledOffer
      (localDevWorld transparent)).1 = true ∧
    ((executeBatch transparent (quietEnv 100) mislabelledOffer
      (localDevWorld transparent)).2.business.tradeInstance.rows.map TradeInstanceRow.itemTypeId) =
        [34] ∧
    ((executeBatch transparent (quietEnv 100) mislabelledOffer
      (localDevWorld transparent)).2.business.itemStackEscrow.rows.map
        ItemStackEscrowRow.itemTypeId) = [35] ∧
    ¬ Truthful (executeBatch transparent (quietEnv 100) mislabelledOffer
      (localDevWorld transparent)).2.business := by
  decide +kernel

end Seeded

end EveTrade.TradeLabels
