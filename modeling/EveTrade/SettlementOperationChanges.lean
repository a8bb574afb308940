import EveTrade.SettlementDelivery

set_option autoImplicit false

/-!
# What a call may do to durable operations

Every call of a publisher or a worker leaves the operations and the completed records alone, queues one
operation, updates one, or executes a batch. From that list follow what holds of every row and what
keeps an operation in agreement with the record of its key.
-/
namespace EveTrade.SettlementOperationChanges

open KeyedTable FieldText UuidText SettlementTypes SettlementSchema SettlementExecutor
  SettlementWork SettlementService SettlementDelivery

def Unsettled (s : OperationState) : Prop := s = .failed ∨ s = .cancelled ∨ s = .expired

instance (s : OperationState) : Decidable (Unsettled s) := inferInstanceAs (Decidable (_ ∨ _))

def IsCompleted (db : Db) (k : String) : Prop := ∃ batchId, Completed db k batchId

instance (db : Db) (k : String) : Decidable (IsCompleted db k) :=
  decidable_of_iff (∃ r ∈ db.idempotencyRecord.find? k, r.idempotencyState = .completed)
    ⟨fun ⟨r, hr, hs⟩ => ⟨_, r, hr, hs, rfl⟩, fun ⟨_, r, hr, hs, _⟩ => ⟨r, hr, hs⟩⟩

section Transitions

variable {s t : OperationState}

theorem transition_of_terminal (h : validOperationTransition s t = true)
    (hs : isTerminalOperation s = true) : t = s := by
  cases s <;> cases t <;> first | rfl | (revert h hs; decide)

theorem transition_of_started (h : validOperationTransition s t = true)
    (hs : s = .processing ∨ s = .succeeded) :
    (t = .processing ∨ t = .succeeded) ∨ Unsettled t := by
  rcases hs with rfl | rfl <;> cases t <;> revert h <;> decide

theorem transition_to_unsucceeded (h : validOperationTransition s t = true)
    (ht : t ≠ .succeeded) : s ≠ .succeeded := by
  rintro rfl
  cases t <;> first | exact ht rfl | (revert h; decide)

end Transitions

section Changes

variable {batchId : Option Uuid} {o : SettlementOperationRow} {k : String}

def Refers (db : Db) (work : Work) : Prop :=
  ∃ o ∈ db.settlementOperation.rows,
    o.operationId.text = work.operationId ∧ o.idempotencyKey = work.idempotencyKey

def Started (o : SettlementOperationRow) : Prop :=
  o.operationState = .processing ∨ o.operationState = .succeeded

/-- What one call may do to operations and to completed records. -/
inductive Change (db : Db) : Db → Prop
  | same {db' : Db} (operations : db'.settlementOperation = db.settlementOperation)
      (records : ∀ k batchId, Completed db' k batchId ↔ Completed db k batchId) : Change db db'
  | queued (o : SettlementOperationRow) (operations : Table SettlementOperationRow)
      (inserted : db.settlementOperation.insert? o = some operations)
      (fresh : ∀ q ∈ db.settlementOperation.rows, q.operationId ≠ o.operationId)
      (state : o.operationState = .queued) :
      Change db { db with settlementOperation := operations }
  | updated (request : UpdateSettlementOperationRequest) (batchId : Option Uuid)
      (o : SettlementOperationRow) (found : Updated request db batchId o)
      (justified : request.state = .succeeded → trim o.idempotencyKey = o.idempotencyKey →
        ∃ id, Completed db o.idempotencyKey (some id) ∧
          batchId.or o.settlementBatchId = some id) :
      Change db { db with settlementOperation :=
        db.settlementOperation.modify o.idempotencyKey (updatedOperation request batchId) }
  | executed {db' : Db} (work : Work) (id : Uuid) (refers : Refers db work)
      (started : ∀ o ∈ db.settlementOperation.rows, o.operationId.text = work.operationId →
        Started o)
      (effect : ExecutionEffect (trim work.idempotencyKey) db db' id) : Change db db'

theorem Change.refl (db : Db) : Change db db := .same rfl fun _ _ => Iff.rfl

/-- How the row of one operation may change. -/
structure RowMove (o o' : SettlementOperationRow) : Prop where
  operationId : o'.operationId = o.operationId
  idempotencyKey : o'.idempotencyKey = o.idempotencyKey
  terminal : isTerminalOperation o.operationState = true → o'.operationState = o.operationState
  started : Started o → Started o' ∨ Unsettled o'.operationState

theorem RowMove.refl (o : SettlementOperationRow) : RowMove o o :=
  ⟨rfl, rfl, fun _ => rfl, .inl⟩

theorem updatedOperation_move {db : Db} {request : UpdateSettlementOperationRequest}
    (h : Updated request db batchId o) :
    RowMove o (updatedOperation request batchId o) :=
  ⟨rfl, rfl, transition_of_terminal h.transition, transition_of_started h.transition⟩

theorem succeedOperation_key (id : Uuid) (o : SettlementOperationRow) :
    (succeedOperation id o).idempotencyKey = o.idempotencyKey := by
  unfold succeedOperation
  split_ifs <;> rfl

theorem succeedOperation_of_started (id : Uuid) (h : Started o) :
    (succeedOperation id o).operationState = .succeeded ∧
      (succeedOperation id o).settlementBatchId = some id := by
  unfold succeedOperation
  rw [if_pos (.inr h)]
  exact ⟨rfl, rfl⟩

theorem succeedOperation_move (id : Uuid) (o : SettlementOperationRow) :
    RowMove o (succeedOperation id o) := by
  refine ⟨?_, succeedOperation_key id o, ?_, ?_⟩
  · unfold succeedOperation
    split_ifs <;> rfl
  · intro hterminal
    unfold succeedOperation
    split_ifs with h
    · rcases h with h | h | h
      · rw [h] at hterminal
        cases hterminal
      · rw [h] at hterminal
        cases hterminal
      · exact h.symm
    · rfl
  · intro hstarted
    exact .inl (.inr (succeedOperation_of_started id hstarted).1)

variable {db db' : Db}

theorem modify_origin {f : SettlementOperationRow → SettlementOperationRow}
    (hf : ∀ o, (f o).idempotencyKey = o.idempotencyKey)
    (hmove : ∀ o ∈ db.settlementOperation.rows, o.idempotencyKey = k → RowMove o (f o))
    {o' : SettlementOperationRow} (ho' : o' ∈ (db.settlementOperation.modify k f).rows) :
    ∃ o ∈ db.settlementOperation.rows, RowMove o o' := by
  obtain ⟨o, ho, rfl⟩ := (Table.mem_modify _ k f hf o').1 ho'
  refine ⟨o, ho, ?_⟩
  split_ifs with hk
  · exact hmove o ho hk
  · exact .refl o

theorem updated_unique {request : UpdateSettlementOperationRequest}
    {o q : SettlementOperationRow} (h : Updated request db batchId o)
    (hq : q ∈ db.settlementOperation.rows) (hk : q.idempotencyKey = o.idempotencyKey) : q = o :=
  Table.mem_unique hq h.mem hk

theorem Change.rows (h : Change db db') :
    (∀ o' ∈ db'.settlementOperation.rows, ∃ o ∈ db.settlementOperation.rows, RowMove o o') ∨
      ∃ n, n.operationState = .queued ∧
        (∀ q ∈ db.settlementOperation.rows, q.operationId ≠ n.operationId) ∧
        (∀ q ∈ db.settlementOperation.rows, q.idempotencyKey ≠ n.idempotencyKey) ∧
        ∀ o' ∈ db'.settlementOperation.rows, o' ∈ db.settlementOperation.rows ∨ o' = n := by
  cases h with
  | same operations records =>
    refine .inl fun o' ho' => ?_
    rw [operations] at ho'
    exact ⟨o', ho', .refl o'⟩
  | queued n operations inserted fresh state =>
    have hkey := Table.find?_eq_none_iff.1 (Table.insert?_eq_some_iff.1 inserted).1
    exact .inr ⟨n, state, fresh, hkey, fun o' ho' => (Table.mem_insert inserted).1 ho'⟩
  | updated request batchId o found justified =>
    refine .inl fun o' ho' => modify_origin (f := updatedOperation request batchId)
      (fun _ => rfl) ?_ ho'
    intro q hq hk
    obtain rfl := updated_unique found hq hk
    exact updatedOperation_move found
  | executed work id refers started effect =>
    refine .inl fun o' ho' => ?_
    rw [effect.operations] at ho'
    exact modify_origin (f := succeedOperation id) (succeedOperation_key id)
      (fun q _ _ => succeedOperation_move id q) ho'

theorem Change.origin (h : Change db db') {o' : SettlementOperationRow}
    (ho' : o' ∈ db'.settlementOperation.rows) :
    (∃ o ∈ db.settlementOperation.rows, RowMove o o') ∨
      ∀ q ∈ db.settlementOperation.rows, q.operationId ≠ o'.operationId := by
  rcases h.rows with hmoved | ⟨n, _, hid, _, hrows⟩
  · exact .inl (hmoved o' ho')
  · rcases hrows o' ho' with hold | rfl
    · exact .inl ⟨o', hold, .refl o'⟩
    · exact .inr hid

theorem modify_successor {f : SettlementOperationRow → SettlementOperationRow}
    (hf : ∀ o, (f o).idempotencyKey = o.idempotencyKey)
    (hid : ∀ o, (f o).operationId = o.operationId) (ho : o ∈ db.settlementOperation.rows) :
    ∃ o' ∈ (db.settlementOperation.modify k f).rows,
      o'.operationId = o.operationId ∧ o'.idempotencyKey = o.idempotencyKey := by
  refine ⟨_, (Table.mem_modify _ k f hf _).2 ⟨o, ho, rfl⟩, ?_⟩
  split_ifs
  · exact ⟨hid o, hf o⟩
  · exact ⟨rfl, rfl⟩

theorem Change.successor (h : Change db db') (ho : o ∈ db.settlementOperation.rows) :
    ∃ o' ∈ db'.settlementOperation.rows,
      o'.operationId = o.operationId ∧ o'.idempotencyKey = o.idempotencyKey := by
  cases h with
  | same operations records => exact ⟨o, operations ▸ ho, rfl, rfl⟩
  | queued q operations inserted fresh state =>
    exact ⟨o, (Table.mem_insert inserted).2 (.inl ho), rfl, rfl⟩
  | updated request batchId q found justified =>
    exact modify_successor (f := updatedOperation request batchId) (fun _ => rfl) (fun _ => rfl) ho
  | executed work id refers started effect =>
    rw [effect.operations]
    exact modify_successor (succeedOperation_key id)
      (fun q => (succeedOperation_move id q).operationId) ho

theorem Change.refers (h : Change db db') {work : Work} (hr : Refers db work) :
    Refers db' work := by
  obtain ⟨o, ho, hid, hkey⟩ := hr
  obtain ⟨o', ho', hid', hkey'⟩ := h.successor ho
  exact ⟨o', ho', by rw [hid', hid], hkey'.trans hkey⟩

theorem Change.completed (h : Change db db')
    (hc : Completed db k batchId) : Completed db' k batchId := by
  cases h with
  | same operations records => exact (records k batchId).2 hc
  | queued o operations inserted fresh state => exact hc
  | updated request b o found justified => exact hc
  | executed work id refers started effect =>
    by_cases hk : k = trim work.idempotencyKey
    · subst hk
      rw [effect.kept batchId hc]
      exact effect.completed
    · exact (effect.others k batchId hk).2 hc

end Changes

section Agreeing

variable {db db' : Db}

/-- The operation is settled exactly when the record of its key is completed, and with its batch. -/
def Agrees (db : Db) (o : SettlementOperationRow) : Prop :=
  trim o.idempotencyKey = o.idempotencyKey →
    (o.operationState = .succeeded →
      ∃ id, Completed db o.idempotencyKey (some id) ∧ o.settlementBatchId = some id) ∧
    (o.operationState ≠ .succeeded → ¬ IsCompleted db o.idempotencyKey)

structure RowsInv (db : Db) : Prop where
  ids : ∀ o ∈ db.settlementOperation.rows, ∀ q ∈ db.settlementOperation.rows,
    o.operationId = q.operationId → o.idempotencyKey = q.idempotencyKey
  trims : ∀ o ∈ db.settlementOperation.rows, ∀ q ∈ db.settlementOperation.rows,
    trim o.idempotencyKey = trim q.idempotencyKey → o.idempotencyKey = q.idempotencyKey
  agrees : ∀ o ∈ db.settlementOperation.rows, Agrees db o

def DistinctIds (db : Db) : Prop :=
  ∀ o ∈ db.settlementOperation.rows, ∀ q ∈ db.settlementOperation.rows,
    o.operationId = q.operationId → o = q

theorem RowsInv.distinct (h : RowsInv db) : DistinctIds db :=
  fun o ho q hq he => Table.mem_unique ho hq (h.ids o ho q hq he)

theorem RowsInv.unique (h : RowsInv db) {o q : SettlementOperationRow}
    (ho : o ∈ db.settlementOperation.rows) (hq : q ∈ db.settlementOperation.rows)
    (he : o.operationId = q.operationId) : o = q :=
  h.distinct o ho q hq he

theorem agrees_congr {o : SettlementOperationRow}
    (h : ∀ k batchId, Completed db' k batchId ↔ Completed db k batchId) (ha : Agrees db o) :
    Agrees db' o := by
  intro htrim
  obtain ⟨hs, hn⟩ := ha htrim
  constructor
  · intro hstate
    obtain ⟨id, hc, hid⟩ := hs hstate
    exact ⟨id, (h _ _).2 hc, hid⟩
  · rintro hstate ⟨batchId, hc⟩
    exact hn hstate ⟨batchId, (h _ _).1 hc⟩

theorem executed_started {work : Work} {o : SettlementOperationRow} (hinv : RowsInv db)
    (refers : Refers db work)
    (started : ∀ o ∈ db.settlementOperation.rows, o.operationId.text = work.operationId → Started o)
    (ho : o ∈ db.settlementOperation.rows) (htrim : trim o.idempotencyKey = o.idempotencyKey)
    (hk : o.idempotencyKey = trim work.idempotencyKey) : Started o := by
  obtain ⟨q, hq, hid, hkey⟩ := refers
  have hsame : o.idempotencyKey = q.idempotencyKey := by
    apply hinv.trims o ho q hq
    rw [htrim, hk, hkey]
  obtain rfl := Table.mem_unique ho hq hsame
  exact started o ho hid

theorem Change.agrees (h : Change db db') (hinv : RowsInv db)
    (halone : ∀ o ∈ db'.settlementOperation.rows,
      (∀ q ∈ db.settlementOperation.rows, q.idempotencyKey ≠ o.idempotencyKey) →
      ¬ IsCompleted db (trim o.idempotencyKey)) :
    ∀ o ∈ db'.settlementOperation.rows, Agrees db' o := by
  intro o' ho'
  cases h with
  | same operations records =>
    rw [operations] at ho'
    exact agrees_congr records (hinv.agrees o' ho')
  | queued o operations inserted fresh state =>
    rcases (Table.mem_insert inserted).1 ho' with hold | rfl
    · exact hinv.agrees o' hold
    · intro htrim
      have hkey := Table.find?_eq_none_iff.1 (Table.insert?_eq_some_iff.1 inserted).1
      refine ⟨fun hs => ?_, fun _ hc => ?_⟩
      · rw [state] at hs
        cases hs
      · exact halone o' ho' hkey (htrim.symm ▸ hc)
  | updated request batchId o found justified =>
    obtain ⟨q, hq, rfl⟩ := (Table.mem_modify _ _ (updatedOperation request batchId)
      (fun _ => rfl) o').1 ho'
    split_ifs with hk
    · obtain rfl := updated_unique found hq hk
      intro htrim
      refine ⟨fun hs => justified hs htrim, fun hs => ?_⟩
      exact (hinv.agrees q hq htrim).2 (transition_to_unsucceeded found.transition hs)
    · exact hinv.agrees q hq
  | executed work id refers started effect =>
    rw [effect.operations] at ho'
    obtain ⟨q, hq, rfl⟩ := (Table.mem_modify _ _ (succeedOperation id)
      (succeedOperation_key id) o').1 ho'
    split_ifs with hk
    · intro htrim
      rw [succeedOperation_key] at htrim ⊢
      have hstarted := executed_started hinv refers started hq htrim hk
      obtain ⟨hs, hbatch⟩ := succeedOperation_of_started id hstarted
      refine ⟨fun _ => ⟨id, ?_, hbatch⟩, fun hne => absurd hs hne⟩
      have hkey : q.idempotencyKey = trim work.idempotencyKey := hk
      rw [hkey]
      exact effect.completed
    · intro htrim
      obtain ⟨hs, hn⟩ := hinv.agrees q hq htrim
      refine ⟨fun hstate => ?_, fun hstate hc => ?_⟩
      · obtain ⟨b, hc, hb⟩ := hs hstate
        exact ⟨b, (effect.others _ _ hk).2 hc, hb⟩
      · obtain ⟨b, hc⟩ := hc
        exact hn hstate ⟨b, (effect.others _ _ hk).1 hc⟩

theorem Change.rowsInv (h : Change db db') (hinv : RowsInv db)
    (halone : ∀ o ∈ db'.settlementOperation.rows,
      (∀ q ∈ db.settlementOperation.rows, q.idempotencyKey ≠ o.idempotencyKey) →
      (∀ q ∈ db.settlementOperation.rows, trim q.idempotencyKey ≠ trim o.idempotencyKey) ∧
        ¬ IsCompleted db (trim o.idempotencyKey)) : RowsInv db' := by
  refine ⟨?_, ?_, h.agrees hinv fun o ho hk => (halone o ho hk).2⟩
  · intro o' ho' q' hq' he
    rcases h.rows with hmoved | ⟨n, _, hid, _, hrows⟩
    · obtain ⟨o, ho, mo⟩ := hmoved o' ho'
      obtain ⟨q, hq, mq⟩ := hmoved q' hq'
      rw [mo.idempotencyKey, mq.idempotencyKey]
      exact hinv.ids o ho q hq (by rw [← mo.operationId, ← mq.operationId, he])
    · rcases hrows o' ho' with ho | rfl <;> rcases hrows q' hq' with hq | rfl
      · exact hinv.ids o' ho q' hq he
      · exact absurd he (hid o' ho)
      · exact absurd he.symm (hid q' hq)
      · rfl
  · intro o' ho' q' hq' he
    rcases h.rows with hmoved | ⟨n, _, _, hkey, hrows⟩
    · obtain ⟨o, ho, mo⟩ := hmoved o' ho'
      obtain ⟨q, hq, mq⟩ := hmoved q' hq'
      rw [mo.idempotencyKey, mq.idempotencyKey] at he ⊢
      exact hinv.trims o ho q hq he
    · rcases hrows o' ho' with ho | rfl <;> rcases hrows q' hq' with hq | rfl
      · exact hinv.trims o' ho q' hq he
      · exact absurd he ((halone q' hq' hkey).1 o' ho)
      · exact absurd he.symm ((halone o' ho' hkey).1 q' hq)
      · rfl

end Agreeing

end EveTrade.SettlementOperationChanges
