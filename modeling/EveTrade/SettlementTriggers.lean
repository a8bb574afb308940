import EveTrade.SettlementLedgers
import EveTrade.TransactionLogic

set_option autoImplicit false

/-!
# The triggers on the stack ledger

While the ledgers are chains, no operation meets an objection of the trigger on ledger rows, also
where one operation writes to two stacks.
-/
namespace EveTrade.SettlementTriggers

open KeyedTable TransactionMonad TransactionLogic UuidText SettlementTypes SettlementCommands
  SettlementSchema SettlementStatements SettlementOperations SettlementAuthorization
  SettlementEffects SettlementOperationSpecs SettlementLedgers

section Refusals

/-- What the two triggers raise about a stack. -/
def ledgerTriggerErrors (id : Uuid) : List DbError :=
  [.raised s!"first item_stack_ledger row for {id} must start from GENESIS",
    .raised s!"item_stack_ledger row for {id} does not extend the latest ledger row",
    .raised s!"item_stack {id} has no reconstructable item_stack_ledger rows",
    .raised s!"item_stack {id} projection does not match latest item_stack_ledger row"]

def LedgerRefusal (e : DbError) : Prop := ∃ id, e ∈ ledgerTriggerErrors id

def Unrefused (e : SettlementError) : Prop := ∀ r, e = .database r → ¬ LedgerRefusal r

theorem LedgerRefusal.raised {e : DbError} (h : LedgerRefusal e) : ∃ m, e = .raised m := by
  obtain ⟨id, h⟩ := h
  simp only [ledgerTriggerErrors, List.mem_cons, List.not_mem_nil, or_false] at h
  rcases h with rfl | rfl | rfl | rfl <;> exact ⟨_, rfl⟩

theorem LedgerRefusal.initial {m : String} (h : LedgerRefusal (.raised m)) :
    m.toList.head? ≠ some 't' := by
  obtain ⟨id, h⟩ := h
  simp only [ledgerTriggerErrors, List.mem_cons, List.not_mem_nil, or_false,
    DbError.raised.injEq] at h
  rcases h with rfl | rfl | rfl | rfl <;> simp [String.toList_append, toString]

theorem not_refusal_of_initial {m : String} (h : m.toList.head? = some 't') :
    ¬ LedgerRefusal (.raised m) :=
  fun hm => hm.initial h

def isDatabase : SettlementError → Bool
  | .database _ => true
  | _ => false

theorem unrefused_of_other {e : SettlementError} (h : isDatabase e = false) : Unrefused e := by
  rintro r rfl
  cases h

theorem unrefused_database {e : DbError} (h : ¬ LedgerRefusal e) : Unrefused (.database e) := by
  rintro r hr
  obtain rfl := SettlementError.database.inj hr
  exact h

end Refusals

section Triples

variable {σ α β : Type}

/-- Unless the environment injects one, the transaction ends with no error of the two triggers. -/
abbrev Spares (P : σ → Prop) (x : Tx σ DeferredCheck DbError SettlementError α)
    (Q : α → σ → Prop) : Prop :=
  Triple (fun e => ¬ LedgerRefusal e) Unrefused P x Q

/-- Reads and guards: they leave the rows as they are. -/
def Reads (x : Tx σ DeferredCheck DbError SettlementError α) : Prop :=
  ∀ P : σ → Prop, Spares P x fun _ d => P d

/-- Writes that no trigger on the ledger looks at. -/
abbrev Writes (x : Tx σ DeferredCheck DbError SettlementError α) : Prop :=
  Spares (fun _ => True) x fun _ _ => True

namespace Reads

variable {x : Tx σ DeferredCheck DbError SettlementError α} {c : Prop} {e : SettlementError}

theorem pure (a : α) : Reads (Pure.pure a : Tx σ DeferredCheck DbError SettlementError α) :=
  fun _ => Triple.pure a fun _ h => h

theorem bind {f : α → Tx σ DeferredCheck DbError SettlementError β} (hx : Reads x)
    (hf : ∀ a, Reads (f a)) : Reads (x >>= f) :=
  fun P => (hx P).bind fun a => hf a P

theorem seq
    {f : α → Tx σ DeferredCheck DbError SettlementError β} {P : σ → Prop} {Q : β → σ → Prop}
    (hx : Reads x) (hf : ∀ a, Spares P (f a) Q) : Spares P (x >>= f) Q :=
  (hx P).bind hf

theorem ensure [Decidable c] (he : isDatabase e = false) :
    Reads (Tx.ensure c e : Tx σ DeferredCheck DbError SettlementError Unit) :=
  fun _ => Triple.ensure (unrefused_of_other he)

theorem fail (he : isDatabase e = false) :
    Reads (Tx.fail e : Tx σ DeferredCheck DbError SettlementError α) :=
  fun _ => Triple.fail (unrefused_of_other he)

theorem fromOption {o : Option α} (he : isDatabase e = false) :
    Reads (Tx.fromOption o e : Tx σ DeferredCheck DbError SettlementError α) :=
  fun _ => (Triple.fromOption (unrefused_of_other he)).consequence (fun _ h => h)
    fun _ _ h => h.1

theorem ensure_bind [Decidable c]
    {f : Unit → Tx σ DeferredCheck DbError SettlementError β} (he : isDatabase e = false)
    (hf : ∀ u, Reads (f u)) : Reads (Tx.ensure c e >>= f) :=
  (ensure he).bind hf

theorem ensure_seq [Decidable c]
    {f : Unit → Tx σ DeferredCheck DbError SettlementError β} {P : σ → Prop} {Q : β → σ → Prop}
    (he : isDatabase e = false) (hf : ∀ u, Spares P (f u) Q) :
    Spares P (Tx.ensure c e >>= f) Q :=
  (ensure he).seq hf

theorem when [Decidable c] {x : Tx σ DeferredCheck DbError SettlementError Unit}
    (hx : Reads x) : Reads (Tx.when c x) :=
  fun P => Triple.when (hx P)

theorem query (read : σ → α) :
    Reads (Tx.query .database read : Tx σ DeferredCheck DbError SettlementError α) :=
  fun _ => (Triple.query fun _ h => unrefused_database h).consequence (fun _ h => h)
    fun _ _ h => h.1

theorem writes (hx : Reads x) : Writes x :=
  hx fun _ => True

end Reads

namespace Writes

theorem bind {x : Tx σ DeferredCheck DbError SettlementError α}
    {f : α → Tx σ DeferredCheck DbError SettlementError β} (hx : Writes x)
    (hf : ∀ a, Writes (f a)) : Writes (x >>= f) :=
  Triple.bind hx hf

theorem statement {run : σ → Except DbError (α × σ × List DeferredCheck)}
    (h : ∀ d e, run d = .error e → ¬ LedgerRefusal e) : Writes (Tx.statement .database run) :=
  Triple.statement (P := fun _ => True) (Q := fun _ _ => True) (fun _ h => unrefused_database h)
    (fun d _ e he => unrefused_database (h d e he)) fun _ _ _ _ _ _ => trivial

theorem spares {x : Tx σ DeferredCheck DbError SettlementError α} (hx : Writes x) (P : σ → Prop) :
    Spares P x fun _ _ => True :=
  Triple.strengthen (P := fun _ => True) hx fun _ _ => trivial

end Writes

end Triples

section Statements

def raisedByTrigger : DbError → Bool
  | .raised _ => true
  | _ => false

theorem not_refusal_of_constraint {e : DbError} (h : raisedByTrigger e = false) :
    ¬ LedgerRefusal e := by
  intro hr
  obtain ⟨m, rfl⟩ := hr.raised
  cases h

/-- A constraint of the schema, and no trigger, is what refuses. -/
def Constrained {α : Type} (x : Except DbError α) : Prop := ∀ m, x ≠ .error (.raised m)

namespace Constrained

variable {α β : Type}
variable {e : DbError}

theorem ok (a : α) : Constrained (.ok a : Except DbError α) := fun _ h => nomatch h

theorem error (h : raisedByTrigger e = false) :
    Constrained (.error e : Except DbError α) := by
  intro m he
  obtain rfl := Except.error.inj he
  cases h

theorem check {c : Prop} [Decidable c] (h : raisedByTrigger e = false) :
    Constrained (TransactionMonad.check c e) := by
  unfold TransactionMonad.check
  split_ifs
  · exact ok ()
  · exact error h

theorem bind {x : Except DbError α} {f : α → Except DbError β} (hx : Constrained x)
    (hf : ∀ a, Constrained (f a)) : Constrained (x >>= f) := by
  intro m h
  cases x with
  | error e => exact hx m (congrArg Except.error (Except.error.inj h))
  | ok a => exact hf a m h

theorem check_bind {c : Prop} [Decidable c] {f : Unit → Except DbError β}
    (h : raisedByTrigger e = false) (hf : ∀ u, Constrained (f u)) :
    Constrained (TransactionMonad.check c e >>= f) :=
  (check h).bind hf

theorem insertRow {R K : Type} [Keyed R K] [DecidableEq K] (t : Table R) (r : R) (pkey : String) :
    Constrained (SettlementStatements.insertRow t r pkey) := by
  unfold SettlementStatements.insertRow
  cases t.insert? r with
  | none => exact error rfl
  | some u => exact ok u

theorem not_refusal {x : Except DbError α} (hx : Constrained x) (h : x = .error e) :
    ¬ LedgerRefusal e := by
  intro hr
  obtain ⟨m, rfl⟩ := hr.raised
  exact hx m h

end Constrained

/-- The statements that the trigger on ledger rows does not look at. -/
inductive Untriggered : Statement → Prop
  | insertTradeInstance stepId id p : Untriggered (insertTradeInstance stepId id p)
  | updateTradeState id target : Untriggered (updateTradeState id target)
  | insertTradeStateChange stepId id source target kind service :
      Untriggered (insertTradeStateChange stepId id source target kind service)
  | insertItemStack row : Untriggered (insertItemStack row)
  | updateItemStackRow id quantity state version checksum algorithm :
      Untriggered (updateItemStackRow id quantity state version checksum algorithm)
  | updateWalletRow id amount version checksum algorithm :
      Untriggered (updateWalletRow id amount version checksum algorithm)
  | insertWalletLedgerRow stepId w kind delta after version checksum :
      Untriggered (insertWalletLedgerRow stepId w kind delta after version checksum)
  | insertItemStackEscrow stepId id trade source quantity now :
      Untriggered (insertItemStackEscrow stepId id trade source quantity now)
  | updateItemStackEscrowQuantity id quantity :
      Untriggered (updateItemStackEscrowQuantity id quantity)
  | releaseItemStackEscrow id stepId : Untriggered (releaseItemStackEscrow id stepId)
  | insertWalletEscrow stepId id trade owner wallet amount :
      Untriggered (insertWalletEscrow stepId id trade owner wallet amount)
  | updateWalletEscrowAmount id amount : Untriggered (updateWalletEscrowAmount id amount)
  | releaseWalletEscrow id stepId : Untriggered (releaseWalletEscrow id stepId)

theorem Untriggered.constrained {f : Statement} (h : Untriggered f) (b : Business) :
    Constrained (f b) := by
  cases h
  -- Each is built of checks, an insertion and answers; the matches in between are split.
  all_goals
    dsimp only [SettlementStatements.insertTradeInstance, SettlementStatements.updateTradeState,
      SettlementStatements.insertTradeStateChange, SettlementStatements.insertItemStack,
      SettlementStatements.updateItemStackRow, SettlementStatements.updateWalletRow,
      SettlementStatements.insertWalletLedgerRow, SettlementStatements.insertItemStackEscrow,
      SettlementStatements.updateItemStackEscrowQuantity,
      SettlementStatements.releaseItemStackEscrow, SettlementStatements.insertWalletEscrow,
      SettlementStatements.updateWalletEscrowAmount, SettlementStatements.releaseWalletEscrow]
    repeat' first
      | refine Constrained.check_bind rfl fun _ => ?_
      | refine (Constrained.insertRow _ _ _).bind fun _ => ?_
      | exact Constrained.ok _
      | exact Constrained.error rfl
      | split

theorem updateTradeRemaining_constrained (id : Uuid) (before after : Int) (b : Business) :
    Constrained (updateTradeRemaining id before after b) := by
  unfold updateTradeRemaining
  cases b.tradeInstance.find? id with
  | none => exact Constrained.ok _
  | some t =>
    dsimp only
    split_ifs
    · exact Constrained.ok _
    · exact Constrained.error rfl
    · exact Constrained.ok _

theorem execute_writes {f : Statement} (h : Untriggered f) : Writes (execute f) := by
  refine Writes.statement fun b e he => ?_
  cases hf : f b with
  | error e' =>
    simp only [hf, Except.error.injEq] at he
    exact he ▸ (h.constrained b).not_refusal hf
  | ok r => simp [hf] at he

end Statements

section Guards

variable (ext : External) (clock : DateTime)

theorem selectSum_reads (read : Business → Int) : Reads (selectSum read) := by
  intro P
  refine Triple.statement (fun _ h => unrefused_database h) (fun b _ e h => ?_)
    fun b hb a b' checks h => ?_
  · split_ifs at h
    obtain rfl := Except.error.inj h
    exact unrefused_database (not_refusal_of_constraint rfl)
  · split_ifs at h
    obtain ⟨rfl, rfl, rfl⟩ := by simpa using h
    exact hb

theorem select_reads {α : Type} (read : Business → α) : Reads (select read) := Reads.query read

theorem lockTradeInstance_reads (id : Uuid) : Reads (lockTradeInstance id) :=
  (select_reads _).bind fun _ => Reads.fromOption rfl

theorem lockItemStackEscrowOptional_reads (id : Uuid) : Reads (lockItemStackEscrowOptional id) :=
  select_reads _

theorem lockItemStackEscrow_reads (id : Uuid) : Reads (lockItemStackEscrow id) :=
  (lockItemStackEscrowOptional_reads id).bind fun _ => Reads.fromOption rfl

theorem lockItemStack_spares (P : Business → Prop) (id : Uuid) :
    Spares P (lockItemStack id) fun s b =>
      P b ∧ s.itemStackId = id ∧ b.itemStack.find? id = some s := by
  refine Triple.bind (Triple.query fun _ h => unrefused_database h) fun row => ?_
  refine (Triple.fromOption (unrefused_of_other rfl)).consequence (fun _ h => h) fun s b h => ?_
  obtain ⟨⟨hb, hrow⟩, hsome⟩ := h
  have hfound : b.itemStack.find? id = some s := hrow.symm.trans hsome
  exact ⟨hb, Table.find?_some_key hfound, hfound⟩

theorem checkedAdd_reads (m n : Int) (label : String) : Reads (checkedAdd m n label) :=
  Reads.ensure_bind rfl fun _ => Reads.pure _

theorem checkedAdd_seq {β : Type} {m n : Int} {label : String} {f : Int → OpTx β}
    {P : Business → Prop} {Q : β → Business → Prop} (hf : Spares P (f (m + n)) Q) :
    Spares P (checkedAdd m n label >>= f) Q := by
  refine Triple.bind (R := fun k b => k = m + n ∧ P b) ?_ fun k => ?_
  · exact Reads.ensure_seq rfl fun _ => Triple.pure _ fun b hb => ⟨rfl, hb⟩
  · rintro s hs ⟨rfl, hp⟩
    exact hf s hs hp

theorem checkedSub_seq {β : Type} {m n : Int} {label : String} {f : Int → OpTx β}
    {P : Business → Prop} {Q : β → Business → Prop} (hf : Spares P (f (m - n)) Q) :
    Spares P (checkedSub m n label >>= f) Q := by
  refine Triple.bind (R := fun k b => k = m - n ∧ P b) ?_ fun k => ?_
  · exact Reads.ensure_seq rfl fun _ => Triple.pure _ fun b hb => ⟨rfl, hb⟩
  · rintro s hs ⟨rfl, hp⟩
    exact hf s hs hp

theorem ensureItemStackChecksumValid_reads (s : ItemStackRow) :
    Reads (ensureItemStackChecksumValid ext s) :=
  Reads.ensure_bind rfl fun _ => Reads.ensure rfl

end Guards

section Postings

variable {ext : External} {ctx : StepContext} {β : Type} {P R : Business → Prop}
  {Q : β → Business → Prop}

theorem insertItemStackLedgerEvent_constrained (ext : External) {p : ItemStackLedgerPayload}
    {b : Business}
    (h : ledgerExtends (latestOf b.itemStackLedger p.itemStackId) p = .ok ()) :
    Constrained (insertItemStackLedgerEvent ext p b) := by
  have hextends : Constrained (ledgerExtends (b.latestLedger p.itemStackId) p) := by
    change Constrained (ledgerExtends (latestOf _ _) p)
    rw [h]
    exact Constrained.ok ()
  refine hextends.bind fun _ => ?_
  split_ifs
  · refine Constrained.check_bind rfl fun _ => Constrained.check_bind rfl fun _ => ?_
    refine Constrained.check_bind rfl fun _ => Constrained.check_bind rfl fun _ => ?_
    refine Constrained.check_bind rfl fun _ => Constrained.check_bind rfl fun _ => ?_
    exact Constrained.ok _
  · exact Constrained.error rfl
  · exact Constrained.error rfl
  · exact Constrained.error rfl
  · exact Constrained.error rfl

theorem insertItemStackLedgerEvent_spares {p : ItemStackLedgerPayload} {Q : Unit → Business → Prop}
    (hextends : ∀ b, P b → ledgerExtends (latestOf b.itemStackLedger p.itemStackId) p = .ok ())
    (hentry : ∀ b l, P b → LedgerEntry ext b.itemStackLedger p l →
      Q () { b with itemStackLedger := b.itemStackLedger ++ [l] }) :
    Spares P (execute (insertItemStackLedgerEvent ext p)) Q := by
  refine Triple.statement (fun _ h => unrefused_database h) (fun b hb e h => ?_)
    fun b hb a b' checks h => ?_
  · cases hrun : insertItemStackLedgerEvent ext p b with
    | error e' =>
      simp only [hrun, Except.error.injEq] at h
      have hconstrained := insertItemStackLedgerEvent_constrained ext (hextends b hb)
      exact h ▸ unrefused_database (hconstrained.not_refusal hrun)
    | ok r => simp [hrun] at h
  · cases hrun : insertItemStackLedgerEvent ext p b with
    | error e' => simp [hrun] at h
    | ok r =>
      obtain ⟨b₁, checks₁⟩ := r
      simp only [hrun, Except.ok.injEq, Prod.mk.injEq, true_and] at h
      obtain ⟨rfl, rfl⟩ := h
      obtain ⟨l, entry, rfl, _⟩ := insertItemStackLedgerEvent_eq_ok hrun
      exact hentry b l hb entry

theorem updateItemStack_writes (ext : External) (stack : ItemStackRow) (after : Int)
    (state : StackState) : Writes (updateItemStack ext stack after state) := by
  refine (ensureItemStackChecksumValid_reads ext stack).seq fun _ => ?_
  refine (checkedAdd_reads _ _ _).seq fun version => ?_
  refine (execute_writes (.updateItemStackRow _ _ _ _ _ _)).bind fun _ => ?_
  exact (Reads.pure _).writes

theorem posting_spares (ctx : StepContext) {f : OpTx β} {stack : ItemStackRow} {kind : EntryKind}
    {after : Int} (delta : Int) {state : StackState} (hafter : after = stack.quantity + delta)
    (hledgers : ∀ b, P b → StackLedgers ext b)
    (hfound : ∀ b, P b → b.itemStack.find? stack.itemStackId = some stack)
    (hposted : ∀ b b' checks, P b → StackPosting ext ctx stack kind delta state b b' checks → R b')
    (hf : Spares R f Q) :
    Spares P (updateItemStack ext stack after state >>= fun v => do
      insertItemStackLedger ext ctx.settlementStepId stack kind delta after state v.1 v.2
      f) Q := by
  subst hafter
  refine Triple.bind (R := fun v b' => ∃ b, ∃ nonneg : 0 ≤ stack.quantity + delta, P b ∧
    StackChecksumValid ext stack ∧
    v = (stack.stackVersion + 1,
      itemStackChecksum ext stack.itemStackId (stack.quantity + delta) (stack.stackVersion + 1)) ∧
    b' = { b with itemStack :=
      b.itemStack.set (postedStack ext stack (stack.quantity + delta) state nonneg) }) ?_ fun v => ?_
  · have hwrites := updateItemStack_writes ext stack (stack.quantity + delta) state
    refine Triple.of_cases (fun s hs hp e h => hwrites.error hs trivial h) fun s hs hp v s' h => ?_
    obtain ⟨hvalid, hv, nonneg, hdata, _⟩ := updateItemStack_eq_ok (hfound _ hp) h
    exact ⟨(hwrites.ok hs trivial h).1, s.data, nonneg, hp, hvalid, hv, hdata⟩
  · refine Triple.bind (R := fun _ b => R b) ?_ fun _ => hf
    intro s hs hp
    obtain ⟨b, nonneg, hb, hvalid, rfl, hdata⟩ := hp
    -- the rows differ from `b` in the stack alone, so the ledger is still the one of `b`
    refine insertItemStackLedgerEvent_spares (P := fun b' => b' = s.data)
      (p := stackLedgerPayload ext ctx stack kind delta (stack.quantity + delta) state) ?_ ?_ s hs rfl
    · rintro _ rfl
      rw [hdata]
      exact ((hledgers b hb).found (hfound b hb)).extends kind delta _ state
    · rintro _ l rfl entry
      rw [hdata] at entry ⊢
      exact hposted b _ _ hb (.posted (hfound b hb) hvalid nonneg l entry)

end Postings

section Operations

variable (ext : External) (ctx : StepContext)

theorem createNewEmptyItemStack_spares (p : CreateNewEmptyItemStack) :
    Spares (StackLedgers ext) (createNewEmptyItemStack ext ctx p) fun _ _ => True := by
  have hinsert : Spares (StackLedgers ext)
      (execute (insertItemStack (emptyStack ext (p.itemStackId.getD ctx.newId) p))) fun _ b =>
        stackRows b.itemStackLedger (p.itemStackId.getD ctx.newId) = [] := by
    have hwrites := execute_writes
      (.insertItemStack (emptyStack ext (p.itemStackId.getD ctx.newId) p))
    refine Triple.of_cases (fun s hs hp e h => hwrites.error hs trivial h) fun s hs hp u s' h => ?_
    refine ⟨(hwrites.ok hs trivial h).1, ?_⟩
    obtain ⟨_, b, checks, hrun, hs'⟩ := execute_eq_ok.1 h
    change s' = _ at hs'
    subst hs'
    obtain ⟨rows, hrows, hrun⟩ := except_bind_eq_ok.1 hrun
    have habsent := (Table.insert?_eq_some_iff.1 (insertRow_eq_ok.1 hrows)).1
    simp only [except_bind_eq_ok, check_eq_ok, pure, Except.pure, Except.ok.injEq,
      Prod.mk.injEq] at hrun
    obtain ⟨_, _, _, _, _, _, rfl, _⟩ := hrun
    exact hp.unused habsent
  refine hinsert.bind fun _ => Triple.bind (R := fun _ _ => True) ?_ fun _ => (Reads.pure _).writes
  refine insertItemStackLedgerEvent_spares
    (p := genesisPayload ext ctx (p.itemStackId.getD ctx.newId) p) (fun b hb => ?_)
    fun _ _ _ _ => trivial
  change stackRows b.itemStackLedger _ = [] at hb
  rw [latestOf_eq]
  change ledgerExtends (LedgerChain.highest ledgerSequence (stackRows b.itemStackLedger
    (p.itemStackId.getD ctx.newId))) _ = _
  rw [hb]
  exact check_eq_ok.2 ⟨rfl, rfl, rfl, rfl, rfl⟩

theorem fundItemStackEscrow_writes (p : TransferQuantityFromItemStackToItemStackEscrow)
    (source : ItemStackRow) (id : Uuid) (existing : Option ItemStackEscrowRow) :
    Writes (fundItemStackEscrow ctx p source id existing) := by
  cases existing with
  | some escrow =>
    refine (checkedAdd_reads _ _ _).seq fun _ => ?_
    exact execute_writes (.updateItemStackEscrowQuantity _ _)
  | none => exact execute_writes (.insertItemStackEscrow _ _ _ _ _ _)

theorem ensureItemStackEscrowCompatible_reads (p : TransferQuantityFromItemStackToItemStackEscrow)
    (source : ItemStackRow) (existing : Option ItemStackEscrowRow) :
    Reads (ensureItemStackEscrowCompatible p source existing) := by
  cases existing with
  | none => exact Reads.pure ()
  | some escrow => exact Reads.ensure_bind rfl fun _ => Reads.ensure rfl

theorem transferQuantityFromItemStackToItemStackEscrow_spares
    (p : TransferQuantityFromItemStackToItemStackEscrow) :
    Spares (StackLedgers ext) (transferQuantityFromItemStackToItemStackEscrow ext ctx p)
      fun _ _ => True := by
  refine Reads.ensure_seq rfl fun _ => (lockTradeInstance_reads _).seq fun trade => ?_
  refine Reads.ensure_seq rfl fun _ => Reads.ensure_seq rfl fun _ => ?_
  refine (lockItemStack_spares _ _).bind fun source => ?_
  refine Reads.ensure_seq rfl fun _ => Reads.ensure_seq rfl fun _ => ?_
  refine Reads.ensure_seq rfl fun _ => (lockItemStackEscrowOptional_reads _).seq fun existing => ?_
  refine (ensureItemStackEscrowCompatible_reads _ _ _).seq fun _ => checkedSub_seq ?_
  refine posting_spares ctx (-p.quantity) (R := fun _ => True) (sub_eq_add_neg _ _)
    (fun b hb => hb.1) (fun b hb => ?_) (fun _ _ _ _ _ => trivial) ?_
  · obtain ⟨_, hid, hfound⟩ := hb
    rw [hid]
    exact hfound
  · exact (fundItemStackEscrow_writes ctx p source _ existing).bind fun _ => (Reads.pure _).writes

theorem validateOwnerRule_reads (rule : EscrowOwnerRule) (m n : Int) (name : String) :
    Reads (validateOwnerRule rule m n name) := by
  cases rule with
  | newOwner => exact Reads.ensure rfl
  | previousOwner => exact Reads.ensure rfl

theorem ensureActiveWalletEscrowMatchesItemRelease_reads (clock : DateTime) (id : Uuid)
    (quantity : Int) :
    Reads (ensureActiveWalletEscrowMatchesItemRelease ext clock id quantity) := by
  refine (lockTradeInstance_reads _).bind fun _ => Reads.ensure_bind rfl fun _ => ?_
  refine Reads.ensure_bind rfl fun _ => (selectSum_reads _).bind fun _ => ?_
  exact Reads.ensure_bind rfl fun _ => Reads.ensure rfl

theorem releaseOrUpdateItemStackEscrow_writes (id : Uuid) (after : Int) (stepId : Uuid) :
    Writes (releaseOrUpdateItemStackEscrow id after stepId) := by
  unfold releaseOrUpdateItemStackEscrow
  split_ifs
  · exact execute_writes (.releaseItemStackEscrow _ _)
  · exact execute_writes (.updateItemStackEscrowQuantity _ _)

theorem updateTradeRemainingQuantity_writes (id : Uuid) (before after : Int) :
    Writes (updateTradeRemainingQuantity id before after) := by
  refine Writes.bind ?_ fun _ => (Reads.ensure rfl).writes
  exact Writes.statement fun b e h =>
    (updateTradeRemaining_constrained id before after b).not_refusal h

theorem transferQuantityFromItemStackEscrowToItemStack_spares
    (p : TransferQuantityFromItemStackEscrowToItemStack) (rule : EscrowOwnerRule) :
    Spares (StackLedgers ext) (transferQuantityFromItemStackEscrowToItemStack ext ctx p rule)
      fun _ _ => True := by
  refine Reads.ensure_seq rfl fun _ => (lockItemStackEscrow_reads _).seq fun escrow => ?_
  refine Reads.ensure_seq rfl fun _ => Reads.ensure_seq rfl fun _ => ?_
  refine (lockItemStack_spares _ _).bind fun destination => ?_
  refine Reads.ensure_seq rfl fun _ => Reads.ensure_seq rfl fun _ => ?_
  refine (validateOwnerRule_reads _ _ _ _).seq fun _ => ?_
  refine (Reads.when (ensureActiveWalletEscrowMatchesItemRelease_reads ext _ _ _)).seq fun _ => ?_
  refine checkedAdd_seq ?_
  refine posting_spares ctx p.quantity (R := fun _ => True) rfl (fun b hb => hb.1) (fun b hb => ?_)
    (fun _ _ _ _ _ => trivial) ?_
  · obtain ⟨_, hid, hfound⟩ := hb
    rw [hid]
    exact hfound
  · refine checkedSub_seq ?_
    refine (releaseOrUpdateItemStackEscrow_writes _ _ _).bind fun _ => ?_
    exact (updateTradeRemainingQuantity_writes _ _ _).bind fun _ => (Reads.pure _).writes

theorem mergeItemStacks_spares (p : MergeItemStacksWithIdenticalItemTypeAndIdenticalOwner) :
    Spares (StackLedgers ext) (mergeItemStacksWithIdenticalItemTypeAndIdenticalOwner ext ctx p)
      fun _ _ => True := by
  by_cases hdistinct : p.sourceItemStackId ≠ p.destinationItemStackId
  swap
  · have hfails : mergeItemStacksWithIdenticalItemTypeAndIdenticalOwner ext ctx p =
        Tx.ensure (p.sourceItemStackId ≠ p.destinationItemStackId) _ >>= _ := rfl
    rw [hfails, Tx.ensure, if_neg hdistinct]
    exact fun _ _ _ => unrefused_of_other rfl
  refine Reads.ensure_seq rfl fun _ => ?_
  refine (lockItemStack_spares _ _).bind fun source => ?_
  refine (lockItemStack_spares _ _).bind fun destination => ?_
  refine Reads.ensure_seq rfl fun _ => Reads.ensure_seq rfl fun _ => ?_
  refine Reads.ensure_seq rfl fun _ => checkedAdd_seq ?_
  refine posting_spares ctx source.quantity
    (R := fun b => StackLedgers ext b ∧ b.itemStack.find? source.itemStackId = some source) rfl
    (fun b hb => hb.1.1) (fun b hb => ?_) (fun b b' checks hb posting => ?_) ?_
  · obtain ⟨_, hid, hfound⟩ := hb
    rw [hid]
    exact hfound
  · obtain ⟨⟨hledgers, hsource, hfound⟩, hdestination, _⟩ := hb
    refine ⟨hledgers.posted posting, ?_⟩
    cases posting with
    | posted found valid nonneg l entry =>
      have hne : destination.itemStackId ≠ source.itemStackId := by
        rw [hsource, hdestination]
        exact hdistinct.symm
      rw [Table.find?_set_ne hne, hsource]
      exact hfound
  · refine posting_spares ctx (-source.quantity) (R := fun _ => True) (add_neg_cancel _).symm
      (fun b hb => hb.1) (fun b hb => hb.2) (fun _ _ _ _ _ => trivial) ?_
    exact (Reads.pure _).writes

/-- No operation meets an objection of the triggers, and each leaves the ledgers in order. -/
theorem executeSettlementCommand_spares (c : SettlementCommand) :
    Spares (StackLedgers ext) (executeSettlementCommand ext ctx c) fun _ => StackLedgers ext := by
  have hspares : Spares (StackLedgers ext) (executeSettlementCommand ext ctx c) fun _ _ => True := by
    cases c with
    | createNewEmptyItemStack p => exact createNewEmptyItemStack_spares ext ctx p
    | transferQuantityFromItemStackToItemStackEscrow p =>
      exact transferQuantityFromItemStackToItemStackEscrow_spares ext ctx p
    | transferQuantityFromItemStackEscrowToItemStackWithNewOwner p =>
      exact transferQuantityFromItemStackEscrowToItemStack_spares ext ctx p .newOwner
    | transferQuantityFromItemStackEscrowToItemStackWithPreviousOwner p =>
      exact transferQuantityFromItemStackEscrowToItemStack_spares ext ctx p .previousOwner
    | mergeItemStacksWithIdenticalItemTypeAndIdenticalOwner p =>
      exact mergeItemStacks_spares ext ctx p
    | _ =>
      -- the others write no ledger of a stack
      refine Writes.spares ?_ _
      repeat' first
        | refine Writes.bind ?_ fun _ => ?_
        | exact (Reads.ensure rfl).writes
        | exact (select_reads _).writes
        | exact (selectSum_reads _).writes
        | exact (Reads.fromOption rfl).writes
        | exact (Reads.pure _).writes
        | exact execute_writes (by constructor)
        | refine Triple.when ?_
        | unfold fundWalletEscrow
        | unfold releaseOrUpdateWalletEscrow
        | split
  refine Triple.of_cases (fun s hs hp e h => hspares.error hs hp h) fun s hs hp out s' h => ?_
  obtain ⟨checks, heffect, _⟩ := executeSettlementCommand_effect h
  exact ⟨(hspares.ok hs hp h).1, hp.steps (Effect.ledgerSteps heffect)⟩

end Operations

section Authorization

theorem authorizeReturns_reads (actor : Int) (id : Uuid) (operations : List SettlementCommand)
    (itemReturns walletReturns : ℕ) :
    Reads (authorizeReturns actor id operations itemReturns walletReturns) := by
  induction operations generalizing itemReturns walletReturns with
  | nil => exact Reads.pure _
  | cons c rest ih =>
    cases c
    all_goals
      repeat' first
        | exact ih _ _
        | refine Reads.bind ?_ fun _ => ?_
        | exact Reads.ensure rfl
        | exact select_reads _
        | exact Reads.fromOption rfl

theorem authorizePlan_reads (command : ExecuteBatchCommand) : Reads (authorizePlan command) := by
  repeat' first
    | exact authorizeReturns_reads _ _ _ _ _
    | refine Reads.bind ?_ fun _ => ?_
    | exact Reads.ensure rfl
    | exact select_reads _
    | exact Reads.fromOption rfl
    | exact Reads.fail rfl
    | refine Reads.when ?_
    | unfold authorizeIssue
    | split

end Authorization

end EveTrade.SettlementTriggers
