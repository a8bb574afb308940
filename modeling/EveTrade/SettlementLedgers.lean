import EveTrade.LedgerChain
import EveTrade.SettlementOutcome
import Mathlib.Logic.Relation

set_option autoImplicit false

/-!
# The ledgers of stacks and wallets

Every change of a stack or of a wallet is one posting, written together with one row of its ledger.
The rows of a stack therefore form a chain from its creation to the row of the stack as it is, and
those of a wallet one from the amount it had at the start.
-/
namespace EveTrade.SettlementLedgers

open KeyedTable LedgerChain TransactionMonad UuidText SettlementTypes SettlementCommands
  SettlementSchema SettlementStatements SettlementOperations SettlementEffects SettlementExecutor
  SettlementOutcome

section Views

/-- What a row of a stack's ledger takes over, and what it hands on. -/
structure StackView where
  quantity : Int
  stackState : Option StackState
  stackVersion : Int
  stackChecksum : String
  ledgerHash : String
deriving DecidableEq

def genesis : StackView := ⟨0, none, 0, "GENESIS", "GENESIS"⟩

def stackBefore (l : ItemStackLedgerRow) : StackView where
  quantity := l.payload.quantityBefore
  stackState := l.payload.stackStateBefore
  stackVersion := l.payload.stackVersionBefore
  stackChecksum := l.payload.stackChecksumBefore
  ledgerHash := l.previousItemStackLedgerHash

def stackAfter (l : ItemStackLedgerRow) : StackView where
  quantity := l.payload.quantityAfter
  stackState := some l.payload.stackStateAfter
  stackVersion := l.payload.stackVersionAfter
  stackChecksum := l.payload.stackChecksumAfter
  ledgerHash := l.itemStackLedgerHash

def stackView (s : ItemStackRow) (hash : String) : StackView where
  quantity := s.quantity
  stackState := some s.stackState
  stackVersion := s.stackVersion
  stackChecksum := s.stackChecksum
  ledgerHash := hash

def ledgerSequence (l : ItemStackLedgerRow) : Int := l.payload.ledgerSequence

def stackRows (ledger : List ItemStackLedgerRow) (id : Uuid) : List ItemStackLedgerRow :=
  ledger.filter fun l => l.payload.itemStackId = id

structure WalletView where
  iskAmount : Int
  walletVersion : Int
  walletChecksum : String
deriving DecidableEq

def walletBefore (l : WalletLedgerRow) : WalletView :=
  ⟨l.iskAmountBefore, l.walletVersionBefore, l.walletChecksumBefore⟩

def walletAfter (l : WalletLedgerRow) : WalletView :=
  ⟨l.iskAmountAfter, l.walletVersionAfter, l.walletChecksumAfter⟩

def walletView (w : WalletRow) : WalletView := ⟨w.iskAmount, w.walletVersion, w.walletChecksum⟩

def walletRows (ledger : List WalletLedgerRow) (id : Uuid) : List WalletLedgerRow :=
  ledger.filter fun l => l.walletId = id

end Views

section Invariants

variable (ext : External)

/-- The rows of a stack's ledger lead from nothing to the row of the stack. -/
structure StackLedger (ledger : List ItemStackLedgerRow) (s : ItemStackRow) : Prop where
  chain : ∃ hash, Chain ledgerSequence stackBefore stackAfter genesis
    (stackRows ledger s.itemStackId) s.stackVersion (stackView s hash)
  total : ((stackRows ledger s.itemStackId).map fun l => l.payload.quantityDelta).sum = s.quantity
  lastRow : ∀ l ∈ stackRows ledger s.itemStackId, l.payload.ledgerSequence = s.stackVersion →
    l.payload.ownerId = s.ownerId ∧ l.payload.itemTypeId = s.itemTypeId ∧
      l.payload.stationId = s.stationId
  valid : StackChecksumValid ext s

/-- Every stack has its ledger, and by the ledger's foreign key every row belongs to a stack. -/
structure StackLedgers (b : Business) : Prop where
  ledger : ∀ s ∈ b.itemStack.rows, StackLedger ext b.itemStackLedger s
  owned : ∀ l ∈ b.itemStackLedger, b.itemStack.find? l.payload.itemStackId ≠ none

/-- The rows written to a wallet's ledger lead from the wallet as it was to the wallet as it is. -/
structure WalletHistory (w₀ w : WalletRow) (written : List WalletLedgerRow) : Prop where
  chain : Chain (fun l => l.walletVersionAfter - w₀.walletVersion) walletBefore walletAfter
    (walletView w₀) (walletRows written w.walletId) (w.walletVersion - w₀.walletVersion)
    (walletView w)
  total : w.iskAmount =
    w₀.iskAmount + ((walletRows written w.walletId).map fun l => l.iskAmountDelta).sum

/-- The same wallets, each with the history of what was written to its ledger since. -/
structure WalletsSince (b₀ b : Business) (written : List WalletLedgerRow) : Prop where
  ledger : b.walletLedger = b₀.walletLedger ++ written
  history : ∀ id w₀, b₀.wallet.find? id = some w₀ →
    ∃ w, b.wallet.find? id = some w ∧ WalletHistory w₀ w written
  same : ∀ id, b₀.wallet.find? id = none → b.wallet.find? id = none

end Invariants

section Postings

variable (ext : External)

/-- Whatever a call does to the rows, it does to the ledgers in these steps. -/
inductive LedgerStep (b b' : Business) : Prop
  | stackPosted {ctx : StepContext} {s : ItemStackRow} {kind : EntryKind} {delta : Int}
      {state : StackState} {checks : List DeferredCheck}
      (posting : StackPosting ext ctx s kind delta state b b' checks)
  | stackCreated {ctx : StepContext} {p : CreateNewEmptyItemStack} {checks : List DeferredCheck}
      (creation : StackCreation ext ctx p b b' checks)
  | walletPosted {ctx : StepContext} {w : WalletRow} {kind : EntryKind} {delta : Int}
      (posting : WalletPosting ext ctx w kind delta b b')
  | other (itemStack : b'.itemStack = b.itemStack)
      (itemStackLedger : b'.itemStackLedger = b.itemStackLedger) (wallet : b'.wallet = b.wallet)
      (walletLedger : b'.walletLedger = b.walletLedger)

abbrev LedgerSteps : Business → Business → Prop := Relation.ReflTransGen (LedgerStep ext)

end Postings

variable {ext : External} {ctx : StepContext} {env : ExecEnv} {b b' : Business}
  {checks : List DeferredCheck}

section Steps

theorem LedgerStep.of_itemFunding {p : TransferQuantityFromItemStackToItemStackEscrow}
    {source : ItemStackRow} {id : Uuid} (h : ItemEscrowFunding ctx p source id b b' checks) :
    LedgerStep ext b b' := by
  rw [h.frame]
  exact .other rfl rfl rfl rfl

theorem LedgerStep.of_walletFunding {p : TransferIskAmountFromWalletToWalletEscrow}
    {source : WalletRow} {id : Uuid} (h : WalletEscrowFunding ctx p source id b b' checks) :
    LedgerStep ext b b' := by
  rw [h.frame]
  exact .other rfl rfl rfl rfl

theorem ItemRelease.ledgerSteps {rule : EscrowOwnerRule}
    {p : TransferQuantityFromItemStackEscrowToItemStack}
    (h : ItemRelease ext ctx rule p b b' checks) : LedgerSteps ext b b' := by
  cases h with
  | released e destination t b₁ c₁ positive escrow unreleased h destinationId active itemType
      station ownerRule trade paid remaining range posting =>
    have hposted : LedgerStep ext b b₁ := .stackPosted posting
    exact (Relation.ReflTransGen.single hposted).tail (.other rfl rfl rfl rfl)

theorem IskRelease.ledgerSteps {rule : EscrowOwnerRule}
    {p : TransferIskAmountFromWalletEscrowToWallet} (h : IskRelease ext ctx rule p b b' checks) :
    LedgerSteps ext b b' := by
  cases h with
  | released e destination b₁ positive escrow unreleased h destinationId active ownerRule live
      posting =>
    have hposted : LedgerStep ext b b₁ := .walletPosted posting
    exact (Relation.ReflTransGen.single hposted).tail (.other rfl rfl rfl rfl)

theorem Effect.ledgerSteps {c : SettlementCommand} (h : Effect ext ctx c b b' checks) :
    LedgerSteps ext b b' := by
  cases c with
  | createNewTradeInstanceRow p =>
    cases h
    exact .single (.other rfl rfl rfl rfl)
  | modifyTradeInstanceState p =>
    cases h
    exact .single (.other rfl rfl rfl rfl)
  | createNewEmptyItemStack p => exact .single (.stackCreated h)
  | transferQuantityFromItemStackToItemStackEscrow p =>
    cases h with
    | deposited t source b₁ b₂ c₁ c₂ positive trade opened live sourceId active issuer enough
        posting funding =>
      exact (Relation.ReflTransGen.single (.stackPosted posting)).tail (.of_itemFunding funding)
  | transferQuantityFromItemStackEscrowToItemStackWithNewOwner p => exact ItemRelease.ledgerSteps h
  | transferQuantityFromItemStackEscrowToItemStackWithPreviousOwner p =>
    exact ItemRelease.ledgerSteps h
  | mergeItemStacksWithIdenticalItemTypeAndIdenticalOwner p =>
    cases h with
    | merged source destination b₁ b₂ c₁ c₂ distinct sourceId destinationId sourceActive
        destinationActive owner itemType station credit debit =>
      exact (Relation.ReflTransGen.single (.stackPosted credit)).tail (.stackPosted debit)
  | createNewEmptyWalletEscrow p =>
    cases h
    exact .single (.other rfl rfl rfl rfl)
  | transferIskAmountFromWalletToWalletEscrow p =>
    cases h with
    | deposited source t b₁ b₂ c₂ positive sourceId active trade opened live divides buys enough
        posting funding =>
      exact (Relation.ReflTransGen.single (.walletPosted posting)).tail (.of_walletFunding funding)
  | transferIskAmountFromWalletEscrowToWalletWithNewOwner p => exact IskRelease.ledgerSteps h
  | transferIskAmountFromWalletEscrowToWalletWithPreviousOwner p => exact IskRelease.ledgerSteps h

theorem StepsRun.ledgerSteps {i : ℕ} {cs : List SettlementCommand} {os : List OperationOutput}
    (h : StepsRun ext env i cs b b' checks os) : LedgerSteps ext b b' := by
  induction h with
  | nil => exact .refl
  | cons effect _ ih => exact (Effect.ledgerSteps effect).trans ih

theorem executeBatch_ledgerSteps (ext : External) (env : ExecEnv) (command : ExecuteBatchCommand)
    (db : Db) : LedgerSteps ext db.business (executeBatch ext env command db).2.business := by
  rcases executeBatch_cases ext env command db with ⟨e, he⟩ | ⟨fp, st, db', _, hsettled, he⟩
  · rw [he]
  · rw [he, finishReplay_db]
    rcases hsettled.business_cases with hb | ⟨os, checks, hrun⟩
    · rw [hb]
    · exact StepsRun.ledgerSteps hrun

theorem runCalls_ledgerSteps (ext : External) (calls : List (ExecEnv × ExecuteBatchCommand))
    (db : Db) : LedgerSteps ext db.business (runCalls ext calls db).business := by
  induction calls generalizing db with
  | nil => exact .refl
  | cons call calls ih =>
    obtain ⟨env, command⟩ := call
    exact (executeBatch_ledgerSteps ext env command db).trans (ih _)

end Steps

section Stacks

variable {ledger : List ItemStackLedgerRow} {s : ItemStackRow}
variable {l : ItemStackLedgerRow} {id : Uuid}

theorem latestOf_eq (ledger : List ItemStackLedgerRow) (id : Uuid) :
    latestOf ledger id = highest ledgerSequence (stackRows ledger id) := by
  unfold latestOf highest stackRows
  congr 1
  funext best l
  cases best with
  | none => rfl
  | some m => rfl

theorem StackLedger.version_pos (h : StackLedger ext ledger s) : 1 ≤ s.stackVersion := by
  obtain ⟨hash, chain⟩ := h.chain
  have hnonneg := chain.nonneg
  by_contra hlt
  -- a stack that was never written would have no state
  have hview : stackView s hash = genesis := chain.unused (by omega)
  exact nomatch congrArg StackView.stackState hview

theorem StackLedger.latest (h : StackLedger ext ledger s) :
    ∃ l ∈ stackRows ledger s.itemStackId, latestOf ledger s.itemStackId = some l ∧
      l.payload.ledgerSequence = s.stackVersion ∧ stackAfter l = stackView s l.itemStackLedgerHash ∧
      Chain ledgerSequence stackBefore stackAfter genesis (stackRows ledger s.itemStackId)
        s.stackVersion (stackAfter l) := by
  obtain ⟨hash, chain⟩ := h.chain
  obtain ⟨l, hl, hlatest, hnumber, hafter⟩ := chain.highest h.version_pos
  have hhash : l.itemStackLedgerHash = hash := congrArg StackView.ledgerHash hafter
  refine ⟨l, hl, (latestOf_eq ledger _).trans hlatest, hnumber, ?_, ?_⟩
  · rw [hhash]
    exact hafter
  · rw [hafter]
    exact chain

theorem StackLedger.extends (h : StackLedger ext ledger s) (kind : EntryKind)
    (delta after : Int) (state : StackState) :
    ledgerExtends (latestOf ledger s.itemStackId)
      (stackLedgerPayload ext ctx s kind delta after state) = .ok () := by
  obtain ⟨l, _, hlatest, hnumber, hafter, _⟩ := h.latest
  simp only [stackAfter, stackView, StackView.mk.injEq] at hafter
  obtain ⟨hquantity, hstate, hversion, hchecksum, _⟩ := hafter
  rw [hlatest]
  refine check_eq_ok.2 ⟨?_, hquantity.symm, hstate.symm, hversion.symm, hchecksum.symm⟩
  rw [hnumber]
  rfl

theorem stackRows_append_self (ledger : List ItemStackLedgerRow) (l : ItemStackLedgerRow) :
    stackRows (ledger ++ [l]) l.payload.itemStackId =
      stackRows ledger l.payload.itemStackId ++ [l] := by
  simp [stackRows]

theorem stackRows_append_ne (ledger : List ItemStackLedgerRow)
    (h : l.payload.itemStackId ≠ id) :
    stackRows (ledger ++ [l]) id = stackRows ledger id := by
  simp [stackRows, h]

theorem StackLedger.append_ne (h : StackLedger ext ledger s)
    (hne : l.payload.itemStackId ≠ s.itemStackId) : StackLedger ext (ledger ++ [l]) s := by
  have hrows := stackRows_append_ne ledger hne
  constructor
  · rw [hrows]
    exact h.chain
  · rw [hrows]
    exact h.total
  · rw [hrows]
    exact h.lastRow
  · exact h.valid

theorem StackLedger.posted {kind : EntryKind} {delta : Int} {state : StackState}
    (h : StackLedger ext ledger s) (nonneg : 0 ≤ s.quantity + delta)
    (entry : LedgerEntry ext ledger
      (stackLedgerPayload ext ctx s kind delta (s.quantity + delta) state) l) :
    StackLedger ext (ledger ++ [l]) (postedStack ext s (s.quantity + delta) state nonneg) := by
  obtain ⟨m, _, hlatest, _, hafter, chain⟩ := h.latest
  have hpayload := entry.payload
  have hid : s.itemStackId = l.payload.itemStackId := by rw [hpayload]; rfl
  have hrows : stackRows (ledger ++ [l]) s.itemStackId = stackRows ledger s.itemStackId ++ [l] := by
    rw [hid]
    exact stackRows_append_self ledger l
  have hnumber : ledgerSequence l = s.stackVersion + 1 := by
    unfold ledgerSequence
    rw [hpayload]
    rfl
  have hbefore : stackBefore l = stackAfter m := by
    have hprevious := entry.previousHash
    change _ = previousLedgerHash (latestOf ledger s.itemStackId) at hprevious
    rw [hlatest] at hprevious
    rw [hafter]
    unfold stackBefore
    rw [hprevious, hpayload]
    rfl
  have hview : stackAfter l =
      stackView (postedStack ext s (s.quantity + delta) state nonneg) l.itemStackLedgerHash := by
    unfold stackAfter
    rw [hpayload]
    rfl
  constructor
  · refine ⟨l.itemStackLedgerHash, ?_⟩
    change Chain _ _ _ _ (stackRows _ s.itemStackId) (s.stackVersion + 1) _
    rw [hrows, ← hview]
    exact chain.append hnumber hbefore
  · change ((stackRows _ s.itemStackId).map _).sum = s.quantity + delta
    rw [hrows, List.map_append, List.sum_append, h.total, List.map_singleton, List.sum_singleton,
      hpayload]
    rfl
  · intro q hq hlast
    change q ∈ stackRows _ s.itemStackId at hq
    change _ = s.stackVersion + 1 at hlast
    rw [hrows] at hq
    rcases List.mem_append.1 hq with hq | hq
    · have hrange : q.payload.ledgerSequence ≤ s.stackVersion := (chain.range q hq).2
      omega
    · obtain rfl := List.mem_singleton.1 hq
      rw [hpayload]
      exact ⟨rfl, rfl, rfl⟩
  · exact ⟨rfl, rfl⟩

theorem StackLedger.created {p : CreateNewEmptyItemStack} (unused : stackRows ledger id = [])
    (entry : LedgerEntry ext ledger (genesisPayload ext ctx id p) l) :
    StackLedger ext (ledger ++ [l]) (emptyStack ext id p) := by
  have hpayload := entry.payload
  have hid : id = l.payload.itemStackId := by rw [hpayload]; rfl
  have hrows : stackRows (ledger ++ [l]) id = [l] := by
    have happend := stackRows_append_self ledger l
    rw [← hid, unused] at happend
    exact happend
  have hbefore : stackBefore l = genesis := by
    have hprevious := entry.previousHash
    change _ = previousLedgerHash (latestOf ledger id) at hprevious
    rw [latestOf_eq, unused] at hprevious
    unfold stackBefore
    rw [hprevious, hpayload]
    rfl
  have hview : stackAfter l = stackView (emptyStack ext id p) l.itemStackLedgerHash := by
    unfold stackAfter
    rw [hpayload]
    rfl
  constructor
  · refine ⟨l.itemStackLedgerHash, ?_⟩
    change Chain _ _ _ _ (stackRows _ id) (0 + 1) _
    rw [hrows, ← hview]
    refine Chain.nil.append (r := l) ?_ hbefore
    unfold ledgerSequence
    rw [hpayload]
    rfl
  · change ((stackRows _ id).map _).sum = 0
    rw [hrows, List.map_singleton, List.sum_singleton, hpayload]
    rfl
  · intro q hq _
    change q ∈ stackRows _ id at hq
    rw [hrows] at hq
    obtain rfl := List.mem_singleton.1 hq
    rw [hpayload]
    exact ⟨rfl, rfl, rfl⟩
  · exact ⟨rfl, rfl⟩

theorem StackLedgers.found (h : StackLedgers ext b)
    (found : b.itemStack.find? id = some s) : StackLedger ext b.itemStackLedger s :=
  h.ledger s (Table.find?_some_mem found)

theorem StackLedgers.unused (h : StackLedgers ext b)
    (absent : b.itemStack.find? id = none) : stackRows b.itemStackLedger id = [] := by
  rw [stackRows, List.filter_eq_nil_iff]
  intro l hl hid
  simp only [decide_eq_true_eq] at hid
  exact h.owned l hl (hid ▸ absent)

theorem StackLedgers.posted {kind : EntryKind} {delta : Int} {state : StackState}
    (h : StackLedgers ext b) (posting : StackPosting ext ctx s kind delta state b b' checks) :
    StackLedgers ext b' := by
  cases posting with
  | posted found valid nonneg l entry =>
    have hid : l.payload.itemStackId = s.itemStackId := by rw [entry.payload]; rfl
    constructor
    · intro q hq
      rcases Table.mem_set.1 hq with ⟨rfl, _⟩ | ⟨hq, hne⟩
      · exact (h.found found).posted nonneg entry
      · exact (h.ledger q hq).append_ne fun hsame => hne (hsame.symm.trans hid)
    · intro m hm
      rw [ne_eq, Table.find?_set_eq_none]
      rcases List.mem_append.1 hm with hm | hm
      · exact h.owned m hm
      · obtain rfl := List.mem_singleton.1 hm
        rw [hid, found]
        exact Option.some_ne_none s

theorem StackLedgers.created {p : CreateNewEmptyItemStack} (h : StackLedgers ext b)
    (creation : StackCreation ext ctx p b b' checks) : StackLedgers ext b' := by
  cases creation with
  | created id hid rows inserted owner l entry =>
    have hl : l.payload.itemStackId = id := by rw [entry.payload]; rfl
    have habsent : b.itemStack.find? id = none := (Table.insert?_eq_some_iff.1 inserted).1
    constructor
    · intro q hq
      rcases (Table.mem_insert inserted).1 hq with hq | rfl
      · refine (h.ledger q hq).append_ne fun hsame => ?_
        have hfound : b.itemStack.find? q.itemStackId = some q := Table.find?_of_mem hq
        rw [← hsame, hl, habsent] at hfound
        cases hfound
      · exact StackLedger.created (h.unused habsent) entry
    · intro m hm
      change rows.find? _ ≠ none
      rw [Table.find?_insert inserted]
      split_ifs with hkey
      · exact Option.some_ne_none _
      · rcases List.mem_append.1 hm with hm | hm
        · exact h.owned m hm
        · obtain rfl := List.mem_singleton.1 hm
          exact absurd hl.symm hkey

theorem StackLedgers.congr (h : StackLedgers ext b) (hstack : b'.itemStack = b.itemStack)
    (hledger : b'.itemStackLedger = b.itemStackLedger) : StackLedgers ext b' := by
  constructor
  · rw [hstack, hledger]
    exact h.ledger
  · rw [hstack, hledger]
    exact h.owned

theorem StackLedgers.step (h : StackLedgers ext b) (step : LedgerStep ext b b') :
    StackLedgers ext b' := by
  cases step with
  | stackPosted posting => exact h.posted posting
  | stackCreated creation => exact h.created creation
  | walletPosted posting => exact h.congr (by rw [posting.frame]) (by rw [posting.frame])
  | other itemStack itemStackLedger wallet walletLedger => exact h.congr itemStack itemStackLedger

theorem StackLedgers.steps (h : StackLedgers ext b) (steps : LedgerSteps ext b b') :
    StackLedgers ext b' := by
  induction steps with
  | refl => exact h
  | tail _ step ih => exact ih.step step

end Stacks

section Wallets

variable {b₀ : Business} {w₀ w : WalletRow} {written : List WalletLedgerRow}
variable {l : WalletLedgerRow}

theorem walletRows_append_self (written : List WalletLedgerRow) (l : WalletLedgerRow) :
    walletRows (written ++ [l]) l.walletId = walletRows written l.walletId ++ [l] := by
  simp [walletRows]

theorem walletRows_append_ne (written : List WalletLedgerRow) {id : Uuid}
    (h : l.walletId ≠ id) :
    walletRows (written ++ [l]) id = walletRows written id := by
  simp [walletRows, h]

theorem WalletHistory.refl (w : WalletRow) : WalletHistory w w [] where
  chain := by
    rw [sub_self]
    exact Chain.nil
  total := by simp [walletRows]

theorem WalletHistory.append_ne (h : WalletHistory w₀ w written)
    (hne : l.walletId ≠ w.walletId) : WalletHistory w₀ w (written ++ [l]) := by
  have hrows := walletRows_append_ne written hne
  constructor
  · rw [hrows]
    exact h.chain
  · rw [hrows]
    exact h.total

theorem WalletHistory.posted {delta : Int} (h : WalletHistory w₀ w written)
    (nonneg : 0 ≤ w.iskAmount + delta) (hid : l.walletId = w.walletId)
    (hbefore : walletBefore l = walletView w)
    (hafter : walletAfter l = walletView (postedWallet ext w (w.iskAmount + delta) nonneg))
    (hdelta : l.iskAmountDelta = delta) :
    WalletHistory w₀ (postedWallet ext w (w.iskAmount + delta) nonneg) (written ++ [l]) := by
  have hrows : walletRows (written ++ [l]) w.walletId = walletRows written w.walletId ++ [l] := by
    rw [← hid]
    exact walletRows_append_self written l
  constructor
  · have hversion : l.walletVersionAfter = w.walletVersion + 1 :=
      congrArg WalletView.walletVersion hafter
    change Chain _ _ _ _ (walletRows _ w.walletId) (w.walletVersion + 1 - w₀.walletVersion) _
    rw [hrows, ← hafter, add_sub_right_comm]
    refine h.chain.append ?_ hbefore
    rw [hversion]
    exact add_sub_right_comm _ _ _
  · change w.iskAmount + delta = w₀.iskAmount + ((walletRows _ w.walletId).map _).sum
    rw [hrows, List.map_append, List.sum_append, List.map_singleton, List.sum_singleton, hdelta,
      h.total]
    ring

theorem WalletsSince.refl (b : Business) : WalletsSince b b [] where
  ledger := (List.append_nil _).symm
  history := fun _ w found => ⟨w, found, WalletHistory.refl w⟩
  same := fun _ h => h

theorem WalletsSince.congr (h : WalletsSince b₀ b written) (hwallet : b'.wallet = b.wallet)
    (hledger : b'.walletLedger = b.walletLedger) : WalletsSince b₀ b' written := by
  constructor
  · rw [hledger]
    exact h.ledger
  · rw [hwallet]
    exact h.history
  · rw [hwallet]
    exact h.same

theorem WalletsSince.posted {kind : EntryKind} {delta : Int} (h : WalletsSince b₀ b written)
    (posting : WalletPosting ext ctx w kind delta b b') :
    ∃ l, WalletsSince b₀ b' (written ++ [l]) := by
  cases posting with
  | posted found valid nonneg =>
    refine ⟨_, by rw [h.ledger, List.append_assoc], ?_, fun id hid => ?_⟩
    · intro id w₀ hw₀
      obtain ⟨q, hq, history⟩ := h.history id w₀ hw₀
      by_cases hid : w.walletId = id
      · obtain rfl := hid
        obtain rfl : w = q := Option.some.inj (found.symm.trans hq)
        exact ⟨_, Table.find?_set_self (r := postedWallet ext w (w.iskAmount + delta) nonneg) found,
          history.posted nonneg rfl rfl rfl rfl⟩
      · refine ⟨q, (Table.find?_set_ne hid).trans hq, history.append_ne ?_⟩
        have hkey : q.walletId = id := Table.find?_some_key hq
        rw [hkey]
        exact hid
    · exact Table.find?_set_eq_none.2 (h.same id hid)

theorem WalletsSince.step (h : WalletsSince b₀ b written) (step : LedgerStep ext b b') :
    ∃ written', WalletsSince b₀ b' written' := by
  cases step with
  | stackPosted posting =>
    exact ⟨written, h.congr (by rw [posting.frame]) (by rw [posting.frame])⟩
  | stackCreated creation =>
    cases creation
    exact ⟨written, h.congr rfl rfl⟩
  | walletPosted posting =>
    obtain ⟨l, hl⟩ := h.posted posting
    exact ⟨_, hl⟩
  | other itemStack itemStackLedger wallet walletLedger =>
    exact ⟨written, h.congr wallet walletLedger⟩

theorem walletsSince_of_steps (steps : LedgerSteps ext b₀ b) :
    ∃ written, WalletsSince b₀ b written := by
  induction steps with
  | refl => exact ⟨[], WalletsSince.refl b₀⟩
  | tail _ step ih =>
    obtain ⟨written, h⟩ := ih
    exact h.step step

end Wallets

end EveTrade.SettlementLedgers
