import EveTrade.LocalDevWorld
import EveTrade.PlanConversion
import EveTrade.UuidFields

set_option autoImplicit false

/-!
# The command that a plan becomes

A plan of the market crosses the settlement work, the worker's request and the service's conversion.
The command at the end has the plan's intent, actor and operations, one for one, with ids read from
their texts and texts trimmed.
-/
namespace EveTrade.PlanRefinement

open UuidText FieldText UuidFields TransactionMonad ValidationRules SettlementTypes
  SettlementCommands SettlementPlan SettlementWork GameTrade LocalDevWorld

section Fields

variable {s : String}

def SameId (s : String) (u : Uuid) : Prop := u.text = lowerCase s

def SameOptionalId (s : String) : Option Uuid → Prop
  | none => s = ""
  | some u => SameId s u

theorem SameId.unique {u v : Uuid} (hu : SameId s u) (hv : SameId s v) : u = v := by
  unfold SameId at hu hv
  exact Uuid.text_injective (hu.trans hv.symm)

theorem SameOptionalId.eq_some {o : Option Uuid} {u : Uuid} (h : SameOptionalId s o)
    (hu : SameId s u) (hs : isUuidText s = true) : o = some u := by
  cases o with
  | none => exact absurd h (ne_empty_of_isUuidText hs)
  | some v => exact congrArg some (SameId.unique h hu)

theorem requiredUuid_of_isUuidText (h : isUuidText s = true) (fieldName : String) :
    ∃ u, requiredUuid s fieldName = .ok u ∧ SameId s u := by
  obtain ⟨u, hparse, htext⟩ := parse_of_isUuidText h
  refine ⟨u, ?_, htext⟩
  have hstring : requiredString s fieldName = .ok s := by
    rw [requiredString, trim_of_isUuidText h, if_neg (ne_empty_of_isUuidText h)]
  rw [requiredUuid, hstring]
  simp only [bind, Except.bind, hparse]

theorem optionalUuid_of_holds (h : optionalUuidString.holds s = true)
    (fieldName : String) : ∃ o, optionalUuid s fieldName = .ok o ∧ SameOptionalId s o := by
  unfold optionalUuid
  rcases Bool.or_eq_true _ _ ▸ h with hs | hs
  · obtain rfl := beq_iff_eq.1 hs
    refine ⟨none, ?_, rfl⟩
    rw [if_pos (by decide)]
  · obtain ⟨u, hu, hsame⟩ := requiredUuid_of_isUuidText hs fieldName
    refine ⟨some u, ?_, hsame⟩
    rw [trim_of_isUuidText hs, if_neg (ne_empty_of_isUuidText hs), hu]
    rfl

theorem requiredString_of_trim (h : trim s ≠ "") (fieldName : String) :
    requiredString s fieldName = .ok (trim s) := by
  rw [requiredString, if_neg h]

end Fields

section Operations

def SameRelease (p : SettlementWork.TransferQuantityFromItemStackEscrowToItemStack)
    (c : SettlementCommands.TransferQuantityFromItemStackEscrowToItemStack) : Prop :=
  SameId p.itemStackEscrowId c.itemStackEscrowId ∧
  SameId p.destinationItemStackId c.destinationItemStackId ∧ c.quantity = p.quantity

def SameWalletRelease (p : SettlementWork.TransferIskAmountFromWalletEscrowToWallet)
    (c : SettlementCommands.TransferIskAmountFromWalletEscrowToWallet) : Prop :=
  SameId p.walletEscrowId c.walletEscrowId ∧
  SameId p.destinationWalletId c.destinationWalletId ∧ c.iskAmount = p.iskAmount

/-- A command of the same kind with the same value in every field. -/
inductive Represents : Operation → SettlementCommand → Prop
  | createNewTradeInstanceRow {p c} :
    SameOptionalId p.tradeInstanceId c.tradeInstanceId → c.tradeKind = trim p.tradeKind →
    c.tradeState = trim p.tradeState → c.issuerId = p.issuerId → c.itemTypeId = p.itemTypeId →
    c.stationId = p.stationId → c.totalQuantity = p.totalQuantity →
    c.unitPriceIsk = p.unitPriceIsk → c.expiresAt = p.expiresAt →
    Represents (.createNewTradeInstanceRow p) (.createNewTradeInstanceRow c)
  | modifyTradeInstanceState {p c} :
    SameId p.tradeInstanceId c.tradeInstanceId → c.toTradeState = trim p.toTradeState →
    c.tradeStateChangeKind = trim p.tradeStateChangeKind →
    c.changedByService = trim p.changedByService →
    Represents (.modifyTradeInstanceState p) (.modifyTradeInstanceState c)
  | createNewEmptyItemStack {p c} :
    SameOptionalId p.itemStackId c.itemStackId → c.ownerId = p.ownerId →
    c.itemTypeId = p.itemTypeId → c.stationId = p.stationId →
    Represents (.createNewEmptyItemStack p) (.createNewEmptyItemStack c)
  | transferQuantityFromItemStackToItemStackEscrow {p c} :
    SameId p.sourceItemStackId c.sourceItemStackId →
    SameOptionalId p.itemStackEscrowId c.itemStackEscrowId →
    SameId p.tradeInstanceId c.tradeInstanceId → c.quantity = p.quantity →
    Represents (.transferQuantityFromItemStackToItemStackEscrow p)
      (.transferQuantityFromItemStackToItemStackEscrow c)
  | transferQuantityFromItemStackEscrowToItemStackWithNewOwner {p c} :
    SameRelease p c →
    Represents (.transferQuantityFromItemStackEscrowToItemStackWithNewOwner p)
      (.transferQuantityFromItemStackEscrowToItemStackWithNewOwner c)
  | transferQuantityFromItemStackEscrowToItemStackWithPreviousOwner {p c} :
    SameRelease p c →
    Represents (.transferQuantityFromItemStackEscrowToItemStackWithPreviousOwner p)
      (.transferQuantityFromItemStackEscrowToItemStackWithPreviousOwner c)
  | mergeItemStacksWithIdenticalItemTypeAndIdenticalOwner {p c} :
    SameId p.sourceItemStackId c.sourceItemStackId →
    SameId p.destinationItemStackId c.destinationItemStackId →
    Represents (.mergeItemStacksWithIdenticalItemTypeAndIdenticalOwner p)
      (.mergeItemStacksWithIdenticalItemTypeAndIdenticalOwner c)
  | createNewEmptyWalletEscrow {p c} :
    SameOptionalId p.walletEscrowId c.walletEscrowId → SameId p.tradeInstanceId c.tradeInstanceId →
    c.ownerId = p.ownerId → SameId p.sourceWalletId c.sourceWalletId →
    Represents (.createNewEmptyWalletEscrow p) (.createNewEmptyWalletEscrow c)
  | transferIskAmountFromWalletToWalletEscrow {p c} :
    SameId p.sourceWalletId c.sourceWalletId → SameOptionalId p.walletEscrowId c.walletEscrowId →
    SameId p.tradeInstanceId c.tradeInstanceId → c.iskAmount = p.iskAmount →
    Represents (.transferIskAmountFromWalletToWalletEscrow p)
      (.transferIskAmountFromWalletToWalletEscrow c)
  | transferIskAmountFromWalletEscrowToWalletWithNewOwner {p c} :
    SameWalletRelease p c →
    Represents (.transferIskAmountFromWalletEscrowToWalletWithNewOwner p)
      (.transferIskAmountFromWalletEscrowToWalletWithNewOwner c)
  | transferIskAmountFromWalletEscrowToWalletWithPreviousOwner {p c} :
    SameWalletRelease p c →
    Represents (.transferIskAmountFromWalletEscrowToWalletWithPreviousOwner p)
      (.transferIskAmountFromWalletEscrowToWalletWithPreviousOwner c)

/-- The service that a state change names has a text. -/
def NamesService : Operation → Prop
  | .modifyTradeInstanceState p => trim p.changedByService ≠ ""
  | _ => True

variable {now : DateTime}

theorem releaseCommand_represents
    {p : SettlementWork.TransferQuantityFromItemStackEscrowToItemStack}
    (h : releaseViolations p = []) : ∃ c, releaseCommand p = .ok c ∧ SameRelease p c := by
  simp only [releaseViolations, List.append_eq_nil_iff, Rule.check_eq_nil] at h
  obtain ⟨⟨hescrow, hdestination⟩, _⟩ := h
  obtain ⟨escrow, he, hse⟩ := requiredUuid_of_isUuidText hescrow "item_stack_escrow_id"
  obtain ⟨destination, hd, hsd⟩ :=
    requiredUuid_of_isUuidText hdestination "destination_item_stack_id"
  refine ⟨⟨escrow, destination, p.quantity⟩, ?_, hse, hsd, rfl⟩
  rw [releaseCommand, he, hd]
  rfl

theorem walletReleaseCommand_represents
    {p : SettlementWork.TransferIskAmountFromWalletEscrowToWallet}
    (h : walletReleaseViolations p = []) :
    ∃ c, walletReleaseCommand p = .ok c ∧ SameWalletRelease p c := by
  simp only [walletReleaseViolations, List.append_eq_nil_iff, Rule.check_eq_nil] at h
  obtain ⟨⟨hescrow, hdestination⟩, _⟩ := h
  obtain ⟨escrow, he, hse⟩ := requiredUuid_of_isUuidText hescrow "wallet_escrow_id"
  obtain ⟨destination, hd, hsd⟩ := requiredUuid_of_isUuidText hdestination "destination_wallet_id"
  refine ⟨⟨escrow, destination, p.iskAmount⟩, ?_, hse, hsd, rfl⟩
  rw [walletReleaseCommand, he, hd]
  rfl

/-- An operation whose rules hold is converted, and no field of it changes. -/
theorem toCommand_represents {operation : Operation} (h : operation.violations now = [])
    (hservice : NamesService operation) :
    ∃ c, operation.toCommand = .ok c ∧ Represents operation c := by
  cases operation with
    simp only [Operation.violations, within_eq_nil, List.append_eq_nil_iff, Rule.check_eq_nil] at h
  | createNewTradeInstanceRow p =>
    obtain ⟨⟨⟨⟨⟨⟨⟨⟨htrade, hkind⟩, hstate⟩, _⟩, _⟩, _⟩, _⟩, _⟩, _⟩ := h
    obtain ⟨trade, ht, hst⟩ := optionalUuid_of_holds htrade "trade_instance_id"
    have hkind' : p.tradeKind = "SELL" := beq_iff_eq.1 hkind
    have hstate' : p.tradeState = "OPEN" := beq_iff_eq.1 hstate
    have hsell : trim p.tradeKind ≠ "" := by rw [hkind']; decide
    have hopen : nonEmptyOr p.tradeState "OPEN" = trim p.tradeState := by rw [hstate']; decide
    rw [Operation.toCommand, ht, requiredString_of_trim hsell]
    exact ⟨_, rfl, .createNewTradeInstanceRow hst rfl hopen rfl rfl rfl rfl rfl rfl⟩
  | modifyTradeInstanceState p =>
    obtain ⟨⟨⟨htrade, hstate⟩, hkind⟩, _⟩ := h
    obtain ⟨trade, ht, hst⟩ := requiredUuid_of_isUuidText htrade "trade_instance_id"
    have hstate' : trim p.toTradeState ≠ "" := by
      have hmem : p.toTradeState ∈ ["OPEN", "CANCELLED", "COMPLETED"] := List.contains_iff_mem.1 hstate
      simp only [List.mem_cons, List.not_mem_nil, or_false] at hmem
      rcases hmem with hs | hs | hs <;> rw [hs] <;> decide
    have hkind' : trim p.tradeStateChangeKind ≠ "" := by
      have hmem : p.tradeStateChangeKind ∈ ["CANCELLED_BY_ISSUER", "ACCEPTED_BY_BUYER"] :=
        List.contains_iff_mem.1 hkind
      simp only [List.mem_cons, List.not_mem_nil, or_false] at hmem
      rcases hmem with hs | hs <;> rw [hs] <;> decide
    have hnamed : nonEmptyOr p.changedByService "market" = trim p.changedByService := if_neg hservice
    rw [Operation.toCommand, ht, requiredString_of_trim hstate', requiredString_of_trim hkind']
    exact ⟨_, rfl, .modifyTradeInstanceState hst rfl rfl hnamed⟩
  | createNewEmptyItemStack p =>
    obtain ⟨⟨⟨hstack, _⟩, _⟩, _⟩ := h
    obtain ⟨stack, hs, hss⟩ := optionalUuid_of_holds hstack "item_stack_id"
    rw [Operation.toCommand, hs]
    exact ⟨_, rfl, .createNewEmptyItemStack hss rfl rfl rfl⟩
  | transferQuantityFromItemStackToItemStackEscrow p =>
    obtain ⟨⟨⟨hsource, hescrow⟩, htrade⟩, _⟩ := h
    obtain ⟨source, hs, hss⟩ := requiredUuid_of_isUuidText hsource "source_item_stack_id"
    obtain ⟨escrow, he, hse⟩ := optionalUuid_of_holds hescrow "item_stack_escrow_id"
    obtain ⟨trade, ht, hst⟩ := requiredUuid_of_isUuidText htrade "trade_instance_id"
    rw [Operation.toCommand, hs, he, ht]
    exact ⟨_, rfl, .transferQuantityFromItemStackToItemStackEscrow hss hse hst rfl⟩
  | transferQuantityFromItemStackEscrowToItemStackWithNewOwner p =>
    obtain ⟨c, hc, hsame⟩ := releaseCommand_represents h
    rw [Operation.toCommand, hc]
    exact ⟨_, rfl, .transferQuantityFromItemStackEscrowToItemStackWithNewOwner hsame⟩
  | transferQuantityFromItemStackEscrowToItemStackWithPreviousOwner p =>
    obtain ⟨c, hc, hsame⟩ := releaseCommand_represents h
    rw [Operation.toCommand, hc]
    exact ⟨_, rfl, .transferQuantityFromItemStackEscrowToItemStackWithPreviousOwner hsame⟩
  | mergeItemStacksWithIdenticalItemTypeAndIdenticalOwner p =>
    obtain ⟨_, hsource, hdestination⟩ := h
    obtain ⟨source, hs, hss⟩ := requiredUuid_of_isUuidText hsource "source_item_stack_id"
    obtain ⟨destination, hd, hsd⟩ :=
      requiredUuid_of_isUuidText hdestination "destination_item_stack_id"
    rw [Operation.toCommand, hs, hd]
    exact ⟨_, rfl, .mergeItemStacksWithIdenticalItemTypeAndIdenticalOwner hss hsd⟩
  | createNewEmptyWalletEscrow p =>
    obtain ⟨⟨⟨hescrow, htrade⟩, _⟩, hwallet⟩ := h
    obtain ⟨escrow, he, hse⟩ := optionalUuid_of_holds hescrow "wallet_escrow_id"
    obtain ⟨trade, ht, hst⟩ := requiredUuid_of_isUuidText htrade "trade_instance_id"
    obtain ⟨wallet, hw, hsw⟩ := requiredUuid_of_isUuidText hwallet "source_wallet_id"
    rw [Operation.toCommand, he, ht, hw]
    exact ⟨_, rfl, .createNewEmptyWalletEscrow hse hst rfl hsw⟩
  | transferIskAmountFromWalletToWalletEscrow p =>
    obtain ⟨⟨⟨hwallet, hescrow⟩, htrade⟩, _⟩ := h
    obtain ⟨wallet, hw, hsw⟩ := requiredUuid_of_isUuidText hwallet "source_wallet_id"
    obtain ⟨escrow, he, hse⟩ := optionalUuid_of_holds hescrow "wallet_escrow_id"
    obtain ⟨trade, ht, hst⟩ := requiredUuid_of_isUuidText htrade "trade_instance_id"
    rw [Operation.toCommand, hw, he, ht]
    exact ⟨_, rfl, .transferIskAmountFromWalletToWalletEscrow hsw hse hst rfl⟩
  | transferIskAmountFromWalletEscrowToWalletWithNewOwner p =>
    obtain ⟨c, hc, hsame⟩ := walletReleaseCommand_represents h
    rw [Operation.toCommand, hc]
    exact ⟨_, rfl, .transferIskAmountFromWalletEscrowToWalletWithNewOwner hsame⟩
  | transferIskAmountFromWalletEscrowToWalletWithPreviousOwner p =>
    obtain ⟨c, hc, hsame⟩ := walletReleaseCommand_represents h
    rw [Operation.toCommand, hc]
    exact ⟨_, rfl, .transferIskAmountFromWalletEscrowToWalletWithPreviousOwner hsame⟩

theorem toCommands_represents {operations : List Operation}
    (h : ∀ operation ∈ operations, operation.violations now = [] ∧ NamesService operation) :
    ∃ commands, toCommands operations = .ok commands ∧
      List.Forall₂ Represents operations commands := by
  induction operations with
  | nil => exact ⟨[], rfl, .nil⟩
  | cons operation rest ih =>
    obtain ⟨hrules, hservice⟩ := h operation List.mem_cons_self
    obtain ⟨c, hc, hsame⟩ := toCommand_represents hrules hservice
    obtain ⟨cs, hcs, hrest⟩ := ih fun x hx => h x (List.mem_cons_of_mem _ hx)
    refine ⟨c :: cs, ?_, .cons hsame hrest⟩
    rw [toCommands, hc, hcs]
    rfl

end Operations

section Ids

/-- What a digest has to be: at least sixteen bytes, in hexadecimal. -/
def HexDigests (ext : External) : Prop :=
  ∀ s, 32 ≤ (ext.sha256Hex s).toList.length ∧ ∀ c ∈ (ext.sha256Hex s).toList, isHexDigit c = true

variable {ext : External}

theorem versionFour_isHexDigit {digest : List Char} (h : ∀ c ∈ digest, isHexDigit c = true) :
    ∀ c ∈ versionFour digest, isHexDigit c = true := by
  intro c hc
  unfold versionFour at hc
  rcases List.mem_or_eq_of_mem_set hc with hc | rfl
  · rcases List.mem_or_eq_of_mem_set hc with hc | rfl
    · exact h c (List.mem_of_mem_take hc)
    · decide
  · unfold variantDigit
    exact isHexDigit_hexDigit (by omega)

theorem deterministicId_isUuidText (digests : HexDigests ext) {key purpose id : String}
    (h : deterministicId ext key purpose = .ok id) : isUuidText id = true := by
  unfold deterministicId at h
  split_ifs at h
  obtain rfl := Except.ok.inj h
  obtain ⟨hlen, hhex⟩ := digests ("eve-trade:" ++ key ++ ":" ++ purpose)
  apply isUuidText_hyphenated
  · simp only [versionFour, List.length_set, List.length_take]
    omega
  · exact versionFour_isHexDigit hhex

theorem givenOrDeterministicId_isUuidText (digests : HexDigests ext) {given key purpose id : String}
    (hgiven : optionalUuidString.holds given = true)
    (h : givenOrDeterministicId ext given key purpose = .ok id) : isUuidText id = true := by
  unfold givenOrDeterministicId at h
  split_ifs at h with hempty
  · exact deterministicId_isUuidText digests h
  · obtain rfl := Except.ok.inj h
    rcases Bool.or_eq_true _ _ ▸ hgiven with hs | hs
    · exact absurd (beq_iff_eq.1 hs) hempty
    · exact hs

theorem validate_eq_ok {violations : List Violation} {u : Unit}
    (h : validate ext violations = .ok u) : violations = [] := by
  unfold validate at h
  split_ifs at h with hnil
  exact hnil

end Ids

section Plans

/-- What the three functions of the market are called with. -/
inductive PlanInput where
  | issue (input : IssueTradeInstanceInput)
  | accept (input : AcceptTradeInstanceInput)
  | cancel (input : CancelTradeInstanceInput)

def PlanInput.plan (ext : External) (now : DateTime) : PlanInput → Except String SettlementPlan
  | issue input => issueTradeInstance ext now input
  | accept input => acceptTradeInstance ext input
  | cancel input => cancelTradeInstance ext input

def PlanInput.expiresAt : PlanInput → Option DateTime
  | issue input => input.expiresAt
  | _ => none

/-- What the later checks ask of a plan. -/
structure Sendable (now : DateTime) (plan : SettlementPlan) : Prop where
  key : nonBlank plan.idempotencyKey = true
  actor : 0 < plan.causedByCapsuleerId
  nonempty : plan.operations ≠ []
  operations : ∀ operation ∈ plan.operations,
    operation.violations now = [] ∧ NamesService operation
  intent : settlementIntent plan.intent ≠ .unspecified

/-- The grammar takes whatever represents the plan's operations. -/
def InGrammar (plan : SettlementPlan) : Prop :=
  ∀ command : ExecuteBatchCommand, command.intent = settlementIntent plan.intent →
    command.causedByCapsuleerId = some plan.causedByCapsuleerId →
    List.Forall₂ Represents plan.operations command.operations →
    validatePlanSemantics command = .ok ()

theorem optional_of_isUuidText {s : String} (h : isUuidText s = true) :
    optionalUuidString.holds s = true := by
  change (s == "" || isUuidText s) = true
  rw [h, Bool.or_true]

variable {ext : External} {planned now : DateTime} {plan : SettlementPlan}

section Grammar

variable {commands : List SettlementCommand}
variable {input : AcceptTradeInstanceInput}

theorem validateIssue_of_represents {input : IssueTradeInstanceInput} {trade escrow : String}
    (htrade : isUuidText trade = true)
    (h : List.Forall₂ Represents (issuePlan input trade escrow).operations commands) :
    validateIssue input.issuedByCapsuleerId commands = .ok () := by
  obtain _ | ⟨hcreate, hrest⟩ := h
  obtain _ | ⟨hfund, hnil⟩ := hrest
  cases hnil
  cases hcreate with
  | createNewTradeInstanceRow hid _ _ hissuer _ _ htotal _ _ =>
    cases hfund with
    | transferQuantityFromItemStackToItemStackEscrow _ _ hsame hquantity =>
      rw [validateIssue, if_neg (not_not.2 hissuer), if_neg]
      rintro (hne | hne)
      · exact hne (hid.eq_some hsame htrade)
      · exact hne (htotal.trans hquantity.symm)

theorem validateAcceptCompletion_of_represents
    {debit : SettlementCommands.TransferIskAmountFromWalletToWalletEscrow}
    (htrade : SameId input.tradeInstanceId debit.tradeInstanceId)
    (h : List.Forall₂ Represents (tradeCompletion input) commands) :
    validateAcceptCompletion debit commands = .ok () := by
  unfold tradeCompletion at h
  split_ifs at h with hcomplete
  · obtain _ | ⟨hstate, hnil⟩ := h
    cases hnil
    cases hstate with
    | modifyTradeInstanceState hid hto hkind _ =>
      have hcompleted : trim completedState = "COMPLETED" := by decide
      have haccepted : trim changeAccepted = "ACCEPTED_BY_BUYER" := by decide
      rw [validateAcceptCompletion, if_neg]
      · rfl
      · rintro (hne | hne | hne)
        · exact hne (hid.unique htrade)
        · exact hne (hto.trans hcompleted)
        · exact hne (hkind.trans haccepted)
  · cases h
    rfl

theorem validateAcceptPayment_of_represents
    {destination walletEscrow : String} (hescrow : isUuidText walletEscrow = true)
    (h : List.Forall₂ Represents (exchange input destination walletEscrow ++ tradeCompletion input)
      commands) : validateAcceptPayment commands = .ok () := by
  obtain _ | ⟨hdebit, hrest⟩ := h
  obtain _ | ⟨hdelivery, hrest⟩ := hrest
  obtain _ | ⟨hcredit, hcompletion⟩ := hrest
  cases hdebit with
  | transferIskAmountFromWalletToWalletEscrow _ hid htrade hpaid =>
    cases hdelivery with
    | transferQuantityFromItemStackEscrowToItemStackWithNewOwner _ =>
      cases hcredit with
      | transferIskAmountFromWalletEscrowToWalletWithNewOwner hreleased =>
        obtain ⟨hsame, _, hamount⟩ := hreleased
        rw [validateAcceptPayment, if_neg]
        · exact validateAcceptCompletion_of_represents htrade hcompletion
        · rintro (hne | hne)
          · exact hne (hid.eq_some hsame hescrow)
          · exact hne (hpaid.trans hamount.symm)

theorem validateAccept_of_represents
    {destination walletEscrow : String} (hescrow : isUuidText walletEscrow = true)
    (h : List.Forall₂ Represents (acceptPlan input destination walletEscrow).operations commands) :
    validateAccept input.buyerCapsuleerId commands = .ok () := by
  simp only [acceptPlan, destinationCreation] at h
  split_ifs at h with hcreate
  · obtain _ | ⟨hstack, hrest⟩ := h
    cases hstack with
    | createNewEmptyItemStack _ howner _ _ =>
      rw [validateAccept, if_neg (not_not.2 howner)]
      exact validateAcceptPayment_of_represents hescrow hrest
  · have hpayment := validateAcceptPayment_of_represents hescrow h
    -- the plan starts with the debit, so the optional first operation is absent
    obtain _ | ⟨hdebit, hrest⟩ := h
    cases hdebit
    exact hpayment

theorem validateCancelState_of_represents {trade : String}
    (h : List.Forall₂ Represents [.modifyTradeInstanceState ⟨trade, cancelledState, changeCancelled,
      createdByService⟩] commands) : validateCancelState commands = .ok () := by
  obtain _ | ⟨hstate, hnil⟩ := h
  cases hnil
  cases hstate with
  | modifyTradeInstanceState _ hto hkind _ =>
    have hcancelled : trim cancelledState = "CANCELLED" := by decide
    have hissuer : trim changeCancelled = "CANCELLED_BY_ISSUER" := by decide
    rw [validateCancelState, if_neg]
    rintro (hne | hne)
    · exact hne (hto.trans hcancelled)
    · exact hne (hkind.trans hissuer)

theorem validateCancelRefund_of_represents {input : CancelTradeInstanceInput}
    (h : List.Forall₂ Represents (walletReturn input ++ [.modifyTradeInstanceState
      ⟨input.tradeInstanceId, cancelledState, changeCancelled, createdByService⟩]) commands) :
    validateCancelRefund commands = .ok () := by
  unfold walletReturn at h
  split_ifs at h with hwallet
  · obtain _ | ⟨hrefund, hrest⟩ := h
    cases hrefund
    exact validateCancelState_of_represents hrest
  · have hstate := validateCancelState_of_represents h
    obtain _ | ⟨hmodify, hrest⟩ := h
    cases hmodify
    exact hstate

theorem validateCancel_of_represents {input : CancelTradeInstanceInput}
    (h : List.Forall₂ Represents (cancelPlan input).operations commands) :
    validateCancel commands = .ok () := by
  simp only [cancelPlan, itemReturn] at h
  split_ifs at h with hitem
  · obtain _ | ⟨hreturn, hrest⟩ := h
    cases hreturn
    exact validateCancelRefund_of_represents hrest
  · have hrefund := validateCancelRefund_of_represents h
    unfold walletReturn at h
    split_ifs at h with hwallet
    · obtain _ | ⟨hfirst, hrest⟩ := h
      cases hfirst
      exact hrefund
    · obtain _ | ⟨hfirst, hrest⟩ := h
      cases hfirst
      exact hrefund

end Grammar

theorem stateChange_sendable {trade toTradeState changeKind : String}
    (htrade : isUuidText trade = true) (hstate : tradeState.holds toTradeState = true)
    (hkind : tradeStateChangeKind.holds changeKind = true) :
    (Operation.modifyTradeInstanceState ⟨trade, toTradeState, changeKind,
      createdByService⟩).violations now = [] ∧
      NamesService (.modifyTradeInstanceState ⟨trade, toTradeState, changeKind,
        createdByService⟩) := by
  have hservice : trim createdByService ≠ "" := by decide
  refine ⟨?_, hservice⟩
  simp only [Operation.violations, within_eq_nil, List.append_eq_nil_iff, Rule.check_eq_nil]
  exact ⟨⟨⟨htrade, hstate⟩, hkind⟩, rfl⟩

theorem returnAtomic_of_given {escrowId destinationId : String} {amount : Int}
    (h : returnAtomic escrowId destinationId amount = true) (hgiven : escrowId ≠ "")
    (hescrow : optionalUuidString.holds escrowId = true)
    (hdestination : optionalUuidString.holds destinationId = true) :
    isUuidText escrowId = true ∧ isUuidText destinationId = true ∧ 0 < amount := by
  simp only [returnAtomic, Bool.or_eq_true, Bool.and_eq_true, beq_iff_eq, bne_iff_ne,
    decide_eq_true_eq] at h
  simp only [optionalUuidString, Bool.or_eq_true, beq_iff_eq] at hescrow hdestination
  rcases h with ⟨⟨hempty, _⟩, _⟩ | ⟨⟨_, hnamed⟩, hamount⟩
  · exact absurd hempty hgiven
  · exact ⟨hescrow.resolve_left hgiven, hdestination.resolve_left hnamed, hamount⟩

theorem issue_sendable (digests : HexDigests ext) {input : IssueTradeInstanceInput}
    (h : issueTradeInstance ext planned input = .ok plan)
    (hexpiry : ∀ t ∈ input.expiresAt, now < t) : Sendable now plan ∧ InGrammar plan := by
  obtain ⟨_, hvalid, h⟩ := except_bind_eq_ok.1 h
  obtain ⟨trade, htrade, h⟩ := except_bind_eq_ok.1 h
  obtain ⟨escrow, hescrow, h⟩ := except_bind_eq_ok.1 h
  obtain rfl := Except.ok.inj h
  have hrules := validate_eq_ok hvalid
  simp only [IssueTradeInstanceInput.violations, ItemStackRow.violations, within_eq_nil,
    List.append_eq_nil_iff, Rule.check_eq_nil] at hrules
  obtain ⟨⟨⟨⟨⟨⟨⟨⟨⟨_, _⟩, hkey⟩, hactor⟩, ⟨⟨⟨hstack, _⟩, htype⟩, hstation⟩, _⟩, hquantity⟩,
    hprice⟩, _⟩, hgivenTrade⟩, hgivenEscrow⟩ := hrules
  have htradeId := givenOrDeterministicId_isUuidText digests hgivenTrade htrade
  have hescrowId := givenOrDeterministicId_isUuidText digests hgivenEscrow hescrow
  have hfuture : ∀ t ∈ input.expiresAt, (gtNow now).holds t = true := fun t ht =>
    decide_eq_true (hexpiry t ht)
  constructor
  · refine ⟨hkey, of_decide_eq_true hactor, List.cons_ne_nil _ _, ?_, SettlementIntent.noConfusion⟩
    intro operation hop
    simp only [issuePlan, List.mem_cons, List.not_mem_nil, or_false] at hop
    rcases hop with rfl | rfl
    · refine ⟨?_, trivial⟩
      simp only [Operation.violations, within_eq_nil, List.append_eq_nil_iff, Rule.check_eq_nil,
        Rule.checkPresent_eq_nil]
      exact ⟨⟨⟨⟨⟨⟨⟨⟨optional_of_isUuidText htradeId, rfl⟩, rfl⟩, hactor⟩, htype⟩, hstation⟩,
        hquantity⟩, hprice⟩, hfuture⟩
    · refine ⟨?_, trivial⟩
      simp only [Operation.violations, within_eq_nil, List.append_eq_nil_iff, Rule.check_eq_nil]
      exact ⟨⟨⟨hstack, optional_of_isUuidText hescrowId⟩, htradeId⟩, hquantity⟩
  · intro command hintent hcause hoperations
    have hissue : command.intent = .issue := hintent
    rw [validatePlanSemantics, hcause, hissue]
    exact validateIssue_of_represents htradeId hoperations

theorem accept_sendable (digests : HexDigests ext) {input : AcceptTradeInstanceInput}
    (h : acceptTradeInstance ext input = .ok plan) : Sendable now plan ∧ InGrammar plan := by
  obtain ⟨_, hvalid, h⟩ := except_bind_eq_ok.1 h
  obtain ⟨destination, hdestination, h⟩ := except_bind_eq_ok.1 h
  obtain ⟨escrow, hescrow, h⟩ := except_bind_eq_ok.1 h
  obtain rfl := Except.ok.inj h
  have hrules := validate_eq_ok hvalid
  simp only [AcceptTradeInstanceInput.violations, List.append_eq_nil_iff, Rule.check_eq_nil]
    at hrules
  obtain ⟨⟨⟨⟨⟨⟨⟨⟨⟨⟨⟨⟨⟨_, hkey⟩, htrade⟩, hactor⟩, _⟩, htype⟩, hstation⟩, hquantity⟩, hpaid⟩,
    hbuyerWallet⟩, hsellerWallet⟩, hitemEscrow⟩, hgivenDestination⟩, hgivenEscrow⟩ := hrules
  have hdestinationId := givenOrDeterministicId_isUuidText digests hgivenDestination hdestination
  have hescrowId := givenOrDeterministicId_isUuidText digests hgivenEscrow hescrow
  constructor
  · refine ⟨hkey, of_decide_eq_true hactor, ?_, ?_, SettlementIntent.noConfusion⟩
    · simp [acceptPlan, exchange]
    intro operation hop
    simp only [acceptPlan, List.mem_append] at hop
    rcases hop with hop | hop | hop
    · unfold destinationCreation at hop
      split_ifs at hop
      · obtain rfl := List.mem_singleton.1 hop
        refine ⟨?_, trivial⟩
        simp only [Operation.violations, within_eq_nil, List.append_eq_nil_iff, Rule.check_eq_nil]
        exact ⟨⟨⟨optional_of_isUuidText hdestinationId, hactor⟩, htype⟩, hstation⟩
      · cases hop
    · simp only [exchange, List.mem_cons, List.not_mem_nil, or_false] at hop
      rcases hop with rfl | rfl | rfl
      · refine ⟨?_, trivial⟩
        simp only [Operation.violations, within_eq_nil, List.append_eq_nil_iff, Rule.check_eq_nil]
        exact ⟨⟨⟨hbuyerWallet, optional_of_isUuidText hescrowId⟩, htrade⟩, hpaid⟩
      · refine ⟨?_, trivial⟩
        simp only [Operation.violations, releaseViolations, within_eq_nil, List.append_eq_nil_iff,
          Rule.check_eq_nil]
        exact ⟨⟨hitemEscrow, hdestinationId⟩, hquantity⟩
      · refine ⟨?_, trivial⟩
        simp only [Operation.violations, walletReleaseViolations, within_eq_nil,
          List.append_eq_nil_iff, Rule.check_eq_nil]
        exact ⟨⟨hescrowId, hsellerWallet⟩, hpaid⟩
    · unfold tradeCompletion at hop
      split_ifs at hop
      · obtain rfl := List.mem_singleton.1 hop
        exact stateChange_sendable htrade rfl rfl
      · cases hop
  · intro command hintent hcause hoperations
    have haccept : command.intent = .accept := hintent
    rw [validatePlanSemantics, hcause, haccept]
    exact validateAccept_of_represents hescrowId hoperations

theorem cancel_sendable {input : CancelTradeInstanceInput}
    (h : cancelTradeInstance ext input = .ok plan) : Sendable now plan ∧ InGrammar plan := by
  obtain ⟨_, hvalid, h⟩ := except_bind_eq_ok.1 h
  obtain rfl := Except.ok.inj h
  have hrules := validate_eq_ok hvalid
  simp only [CancelTradeInstanceInput.violations, List.append_eq_nil_iff, Rule.check_eq_nil]
    at hrules
  obtain ⟨⟨⟨⟨⟨⟨⟨⟨⟨⟨hitem, hwallet⟩, hkey⟩, htrade⟩, hactor⟩, hitemEscrow⟩, hstack⟩, _⟩,
    hwalletEscrow⟩, hreturnWallet⟩, _⟩ := hrules
  constructor
  · refine ⟨hkey, of_decide_eq_true hactor, ?_, ?_, SettlementIntent.noConfusion⟩
    · simp [cancelPlan]
    intro operation hop
    simp only [cancelPlan, List.mem_append] at hop
    rcases hop with hop | hop | hop
    · unfold itemReturn at hop
      split_ifs at hop with hgiven
      · obtain rfl := List.mem_singleton.1 hop
        refine ⟨?_, trivial⟩
        obtain ⟨he, hd, hamount⟩ := returnAtomic_of_given hitem hgiven hitemEscrow hstack
        simp only [Operation.violations, releaseViolations, within_eq_nil, List.append_eq_nil_iff,
          Rule.check_eq_nil]
        exact ⟨⟨he, hd⟩, decide_eq_true hamount⟩
      · cases hop
    · unfold walletReturn at hop
      split_ifs at hop with hgiven
      · obtain rfl := List.mem_singleton.1 hop
        refine ⟨?_, trivial⟩
        obtain ⟨he, hd, hamount⟩ := returnAtomic_of_given hwallet hgiven hwalletEscrow hreturnWallet
        simp only [Operation.violations, walletReleaseViolations, within_eq_nil,
          List.append_eq_nil_iff, Rule.check_eq_nil]
        exact ⟨⟨he, hd⟩, decide_eq_true hamount⟩
      · cases hop
    · obtain rfl := List.mem_singleton.1 hop
      exact stateChange_sendable htrade rfl rfl
  · intro command hintent hcause hoperations
    have hcancel : command.intent = .cancel := hintent
    rw [validatePlanSemantics, hcause, hcancel]
    exact validateCancel_of_represents hoperations

theorem PlanInput.sendable (digests : HexDigests ext) {input : PlanInput}
    (h : input.plan ext planned = .ok plan) (hexpiry : ∀ t ∈ input.expiresAt, now < t) :
    Sendable now plan ∧ InGrammar plan := by
  cases input with
  | issue input => exact issue_sendable digests h hexpiry
  | accept input => exact accept_sendable digests h
  | cancel input => exact cancel_sendable h

end Plans

section Refinement

/-- The work as it is queued: under an operation id, which is also its request id, or, before that,
under none. -/
def queuedAs (operationId : String) (queuedAt : DateTime) (work : Work) : Work :=
  { work with operationId := operationId, queuedAt := queuedAt, requestId := operationId }

/-- The plan, settled, copied by the worker and converted by the service, is the command. -/
def Becomes (ext : External) (operationId : String) (queuedAt atWorker atService : DateTime)
    (plan : SettlementPlan) (command : ExecuteBatchCommand) : Prop :=
  ∃ work request, settleTradeInstance plan = .ok work ∧
    toProtoRequest ext atWorker (queuedAs operationId queuedAt work) = .ok request ∧
    tryFrom ext atService request = .ok command

/-- The plan's values, one for one: nothing is added and nothing is dropped. -/
structure CommandOf (operationId : String) (plan : SettlementPlan) (command : ExecuteBatchCommand) :
    Prop where
  intent : command.intent = settlementIntent plan.intent
  actor : command.causedByCapsuleerId = some plan.causedByCapsuleerId
  operations : List.Forall₂ Represents plan.operations command.operations
  idempotencyKey : command.idempotencyKey = trim plan.idempotencyKey
  requestFingerprint : command.requestFingerprint = optionalString plan.requestFingerprint
  externalRequestId : command.externalRequestId = optionalString plan.externalRequestId
  createdByService : command.createdByService = GameTrade.createdByService
  requestId : SameOptionalId operationId command.requestId

variable {ext : External} {now : DateTime} {plan : SettlementPlan} {operationId : String}

theorem requestOf_violations (h : Sendable now plan) (queuedAt : DateTime)
    (hid : optionalUuidString.holds operationId = true) :
    (requestOf (queuedAs operationId queuedAt (planWork plan))).violations now = [] := by
  have hactor : plan.causedByCapsuleerId ≠ 0 := by
    have := h.actor
    omega
  have hcause : (requestOf (queuedAs operationId queuedAt (planWork plan))).causedByCapsuleerId =
      some plan.causedByCapsuleerId := if_pos hactor
  have hmarket : nonBlankString.holds createdByService = true := by decide
  simp only [ExecuteSettlementBatchRequest.violations, List.append_eq_nil_iff, Rule.check_eq_nil,
    Rule.checkPresent_eq_nil, hcause, withinEach_eq_nil]
  refine ⟨⟨⟨⟨⟨⟨h.key, ?_⟩, ?_⟩, ?_⟩, hmarket⟩, hid⟩, decide_eq_true h.intent⟩
  · intro actor hmem
    obtain rfl := Option.some.inj hmem
    exact decide_eq_true h.actor
  · exact decide_eq_true (List.length_pos_iff.2 h.nonempty)
  · intro vs hvs
    obtain ⟨operation, hop, rfl⟩ := List.mem_map.1 hvs
    exact (h.operations operation hop).1

theorem requiredIntent_of_specified {intent : SettlementIntent} (h : intent ≠ .unspecified) :
    requiredIntent intent = .ok intent := by
  cases intent with
  | unspecified => exact absurd rfl h
  | issue | accept | cancel => rfl

theorem convert_of_sendable (h : Sendable now plan) (queuedAt : DateTime)
    (hid : optionalUuidString.holds operationId = true) (hkey : trim plan.idempotencyKey ≠ "")
    (hfingerprint : plan.requestFingerprint = "") :
    ∃ command, convert (requestOf (queuedAs operationId queuedAt (planWork plan))) = .ok command ∧
      CommandOf operationId plan command := by
  obtain ⟨requestId, hrequest, hsame⟩ := optionalUuid_of_holds hid "request_id"
  obtain ⟨commands, hcommands, hoperations⟩ := toCommands_represents h.operations
  have hactor : plan.causedByCapsuleerId ≠ 0 := by
    have := h.actor
    omega
  have hservice : trim createdByService = createdByService := by decide
  have hserviceText : trim createdByService ≠ "" := by decide
  have hconvert : convert (requestOf (queuedAs operationId queuedAt (planWork plan))) =
      .ok ⟨settlementIntent plan.intent, trim plan.idempotencyKey, optionalString "",
        optionalString plan.externalRequestId,
        if plan.causedByCapsuleerId ≠ 0 then some plan.causedByCapsuleerId else none, commands,
        trim createdByService, requestId⟩ := by
    simp only [convert, requestOf, queuedAs, planWork, requiredString_of_trim hkey,
      requiredString_of_trim hserviceText, hrequest, requiredIntent_of_specified h.intent, hcommands]
    rfl
  refine ⟨_, hconvert, ⟨rfl, if_pos hactor, hoperations, rfl, ?_, rfl, hservice, hsame⟩⟩
  rw [hfingerprint]

theorem convert_blank_key {request : ExecuteSettlementBatchRequest}
    (h : trim request.idempotencyKey = "") :
    convert request = .error (.invalidArgument "idempotency_key is required") := by
  rw [convert, requiredString, if_pos h]
  rfl

theorem settleTradeInstance_of_sendable (h : Sendable now plan) :
    settleTradeInstance plan = .ok (planWork plan) := by
  have hkey : plan.idempotencyKey ≠ "" := by
    intro hempty
    have := h.key
    rw [hempty] at this
    exact absurd this (by decide)
  have hintent : ¬ (plan.intent ≠ intentIssue ∧ plan.intent ≠ intentAccept ∧
      plan.intent ≠ intentCancel) := by
    rintro ⟨hissue, haccept, hcancel⟩
    apply h.intent
    rw [settlementIntent, if_neg hissue, if_neg haccept, if_neg hcancel]
  rw [settleTradeInstance, if_neg hkey, if_neg h.nonempty, if_neg hintent]

theorem PlanInput.plan_requestFingerprint {planned : DateTime} {input : PlanInput}
    (h : input.plan ext planned = .ok plan) : plan.requestFingerprint = "" := by
  cases input with
  | issue input =>
    obtain ⟨trade, escrow, rfl⟩ := issueTradeInstance_eq_ok h
    rfl
  | accept input =>
    obtain ⟨destination, escrow, rfl⟩ := acceptTradeInstance_eq_ok h
    rfl
  | cancel input =>
    obtain rfl := cancelTradeInstance_eq_ok h
    rfl

/-- The plan of an accepted input becomes a command of the grammar with the plan's own values, exactly
when its idempotency key is more than white space: the declared rule and the service's conversion do
not agree on what that is. -/
theorem plan_becomes_its_command_iff (ext : External) (digests : HexDigests ext) (input : PlanInput)
    (planned queuedAt atWorker atService : DateTime) (plan : SettlementPlan) (operationId : String)
    (hplan : input.plan ext planned = .ok plan)
    (hid : optionalUuidString.holds operationId = true)
    (hworker : ∀ t ∈ input.expiresAt, atWorker < t)
    (hservice : ∀ t ∈ input.expiresAt, atService < t) :
    (∃ command, Becomes ext operationId queuedAt atWorker atService plan command ∧
      validatePlanSemantics command = .ok () ∧ CommandOf operationId plan command) ↔
    trim plan.idempotencyKey ≠ "" := by
  obtain ⟨hsendWorker, hgrammar⟩ := input.sendable digests hplan hworker
  obtain ⟨hsend, _⟩ := input.sendable digests hplan hservice
  constructor
  · rintro ⟨command, ⟨work, request, hwork, hrequest, hcommand⟩, _, _⟩ hblank
    obtain rfl := settleTradeInstance_eq_ok hwork
    obtain rfl := toProtoRequest_eq_ok hrequest
    have hrequestKey : trim (requestOf (queuedAs operationId queuedAt (planWork plan))).idempotencyKey =
        "" := by
      simp only [requestOf, queuedAs, planWork, hblank]
    rw [tryFrom, convert_blank_key hrequestKey] at hcommand
    split_ifs at hcommand
  · intro hkey
    obtain ⟨command, hconvert, hsame⟩ := convert_of_sendable hsend queuedAt hid hkey
      (input.plan_requestFingerprint hplan)
    have hrequest : toProtoRequest ext atWorker (queuedAs operationId queuedAt (planWork plan)) =
        .ok (requestOf (queuedAs operationId queuedAt (planWork plan))) := by
      rw [toProtoRequest, if_pos (requestOf_violations hsendWorker queuedAt hid)]
    have hcommand : tryFrom ext atService
        (requestOf (queuedAs operationId queuedAt (planWork plan))) = .ok command := by
      rw [tryFrom, if_pos (requestOf_violations hsend queuedAt hid), hconvert]
    exact ⟨command, ⟨planWork plan, _, settleTradeInstance_of_sendable hsend, hrequest, hcommand⟩,
      hgrammar command hsame.intent hsame.actor hsame.operations, hsame⟩

/-- An offer with an expiry, under ids that the caller gives. -/
def offerInput (key : String) : IssueTradeInstanceInput where
  idempotencyKey := key
  externalRequestId := "external-1"
  issuedByCapsuleerId := sellerId
  itemStack := ⟨sourceStackId.text, sellerId, 34, 60003760, 100⟩
  quantity := 4
  unitPriceIsk := 25
  expiresAt := some 1000
  tradeInstanceId := "0000000A-0000-4000-8000-00000000000A"
  itemStackEscrowId := "0000000b-0000-4000-8000-00000000000b"

def offerPlan (key : String) : SettlementPlan :=
  issuePlan (offerInput key) "0000000A-0000-4000-8000-00000000000A"
    "0000000b-0000-4000-8000-00000000000b"

theorem hexadecimal_hexDigests : HexDigests hexadecimal := by
  intro s
  have hdigits : (hexadecimal.sha256Hex s).toList = Uuid.hexDigits 32 (positional s) :=
    String.toList_ofList
  rw [hdigits]
  exact ⟨(Uuid.length_hexDigits 32 _).ge, fun c hc => isHexDigit_of_mem_hexDigits hc⟩

theorem plan_becomes_its_command_iff_offer :
    (PlanInput.issue (offerInput "offer-1")).plan hexadecimal 0 = .ok (offerPlan "offer-1") ∧
    ((∃ command, Becomes hexadecimal "" 0 10 20 (offerPlan "offer-1") command ∧
      validatePlanSemantics command = .ok () ∧ CommandOf "" (offerPlan "offer-1") command) ↔
    trim "offer-1" ≠ "") := by
  have hplan : (PlanInput.issue (offerInput "offer-1")).plan hexadecimal 0 =
      .ok (offerPlan "offer-1") := by decide +kernel
  refine ⟨hplan, plan_becomes_its_command_iff hexadecimal hexadecimal_hexDigests
    (.issue (offerInput "offer-1")) 0 0 10 20 (offerPlan "offer-1") "" hplan (by decide) ?_ ?_⟩
  · intro t ht
    obtain rfl := Option.some.inj ht
    decide
  · intro t ht
    obtain rfl := Option.some.inj ht
    decide

/-- A key that is one no-break space passes the market's rules and the worker's, and the service
refuses it. -/
theorem noBreakSpaceKey_refused :
    (PlanInput.issue (offerInput "\u00a0")).plan hexadecimal 0 = .ok (offerPlan "\u00a0") ∧
    settleTradeInstance (offerPlan "\u00a0") = .ok (planWork (offerPlan "\u00a0")) ∧
    toProtoRequest hexadecimal 10 (planWork (offerPlan "\u00a0")) =
      .ok (requestOf (planWork (offerPlan "\u00a0"))) ∧
    tryFrom hexadecimal 20 (requestOf (planWork (offerPlan "\u00a0"))) =
      .error (.invalidArgument "idempotency_key is required") := by
  refine ⟨by decide +kernel, by decide +kernel, by decide +kernel, by decide +kernel⟩

end Refinement

end EveTrade.PlanRefinement
