import EveTrade.SettlementRecords

set_option autoImplicit false

/-!
# What a later transaction keeps

A completed record, its batch and its steps are not changed by any later transaction.
-/
namespace EveTrade.SettlementStability

open KeyedTable TransactionMonad UuidText SettlementTypes SettlementCommands SettlementSchema
  SettlementExecutor SettlementOutcome SettlementRecords

/-- The record of the key is completed, for one fingerprint and with one batch. -/
def CompletedAs (db : Db) (k fingerprint : String) (id : Uuid) : Prop :=
  ∃ r, db.idempotencyRecord.find? k = some r ∧ r.idempotencyState = .completed ∧
    r.requestFingerprint = fingerprint ∧ r.resultSettlementBatchId = some id

/-- The batch exists and its steps read back as the results. -/
def ReadsBack (db : Db) (id : Uuid) (results : List StepExecutionResult) : Prop :=
  (∃ b, db.settlementBatch.find? id = some b) ∧ replaySteps (batchSteps db id) = .ok results

theorem CompletedAs.unique {db : Db} {k fp fp' : String} {id id' : Uuid}
    (h : CompletedAs db k fp id) (h' : CompletedAs db k fp' id') : fp = fp' ∧ id = id' := by
  obtain ⟨r, hr, _, rfl, hid⟩ := h
  obtain ⟨r', hr', _, rfl, hid'⟩ := h'
  rw [hr] at hr'
  obtain rfl := Option.some.inj hr'
  rw [hid] at hid'
  exact ⟨rfl, Option.some.inj hid'⟩

theorem ReadsBack.unique {db : Db} {id : Uuid} {rs rs' : List StepExecutionResult}
    (h : ReadsBack db id rs) (h' : ReadsBack db id rs') : rs = rs' := by
  have he := h.2.symm.trans h'.2
  exact Except.ok.inj he

section Stability

variable {ext : External} {env : ExecEnv} {command : ExecuteBatchCommand} {fingerprint : String}
  {existing : Option IdempotencyRecordRow} {db db' : Db} {settlement : Settlement}

theorem Settled.references
    (h : Settled ext env command fingerprint existing db settlement db')
    (hrefs : References db) : References db' := by
  rcases Settled.audit_cases h with ⟨hr, hb, hs, _⟩ | ⟨row, hchange, _⟩
  · constructor
    · rw [hr, hb]
      exact hrefs.batchRecord
    · rw [hs, hb]
      exact hrefs.stepBatch
  · exact hchange.references hrefs

theorem Settled.completedAs
    (h : Settled ext env command fingerprint existing db settlement db') {k fp : String} {id : Uuid}
    (hc : CompletedAs db k fp id) : CompletedAs db' k fp id := by
  obtain ⟨r, hr, hstate, hfp, hid⟩ := hc
  rcases Settled.audit_cases h with ⟨hsame, _⟩ | ⟨row, hchange, _⟩
  · exact ⟨r, by rw [hsame]; exact hr, hstate, hfp, hid⟩
  · by_cases hk : command.idempotencyKey = k
    · subst hk
      have hfailed := (hchange.record_before hr).1
      rw [hstate] at hfailed
      cases hfailed
    · exact ⟨r, by rw [hchange.find_record, if_neg hk]; exact hr, hstate, hfp, hid⟩

theorem Settled.readsBack
    (h : Settled ext env command fingerprint existing db settlement db') {id : Uuid}
    {rs : List StepExecutionResult} (hr : ReadsBack db id rs) : ReadsBack db' id rs := by
  obtain ⟨⟨b, hb⟩, hsteps⟩ := hr
  rcases Settled.audit_cases h with ⟨_, hbatch, hstep, _⟩ | ⟨row, hchange, _⟩
  · refine ⟨⟨b, by rw [hbatch]; exact hb⟩, ?_⟩
    unfold batchSteps
    rw [hstep]
    exact hsteps
  · obtain ⟨attempt, batch, steps, hw, _⟩ := hchange.written
    refine ⟨?_, by rw [hchange.batchSteps hb]; exact hsteps⟩
    rw [Table.find?_insert hw.batch]
    split_ifs with hk
    · exact ⟨batch, rfl⟩
    · exact ⟨b, hb⟩

theorem Settled.find_record_ne
    (h : Settled ext env command fingerprint existing db settlement db') {k : String}
    (hk : command.idempotencyKey ≠ k) :
    db'.idempotencyRecord.find? k = db.idempotencyRecord.find? k := by
  rcases Settled.audit_cases h with ⟨hsame, _⟩ | ⟨row, hchange, _⟩
  · rw [hsame]
  · rw [hchange.find_record, if_neg hk]

theorem Settled.of_stale
    (h : Settled ext env command fingerprint none db settlement db') {r : IdempotencyRecordRow}
    (hr : db.idempotencyRecord.find? command.idempotencyKey = some r) :
    db' = db ∧ ∃ e, settlement = .answered (.error e) := by
  have absurdOpened : ∀ record number,
      ¬ Opened env command fingerprint none db record number := by
    intro record number ho
    cases ho.record with
    | inserted absent =>
      rw [absent] at hr
      cases hr
  cases h with
  | refused e => exact ⟨rfl, e, rfl⟩
  | replaying r batchId seen _ _ _ _ => cases seen
  | failed record number _ opened _ _ _ _ _ => exact absurd opened (absurdOpened _ _)
  | completed record number _ opened _ _ _ _ _ _ => exact absurd opened (absurdOpened _ _)

theorem Settled.of_conflict
    (h : Settled ext env command fingerprint existing db settlement db')
    (locked : ∀ r ∈ existing, db.idempotencyRecord.find? command.idempotencyKey = some r)
    {r : IdempotencyRecordRow}
    (hr : db.idempotencyRecord.find? command.idempotencyKey = some r)
    (hfp : r.requestFingerprint ≠ fingerprint) :
    db' = db ∧ ∃ e, settlement = .answered (.error e) := by
  cases existing with
  | none => exact Settled.of_stale h hr
  | some q =>
    have hq := locked q rfl
    rw [hr] at hq
    obtain rfl := Option.some.inj hq
    have absurdOpened : ∀ record number,
        ¬ Opened env command fingerprint (some r) db record number := by
      intro record number ho
      cases ho.record with
      | reset _ _ same _ => exact hfp same
    cases h with
    | refused e => exact ⟨rfl, e, rfl⟩
    | replaying q batchId seen same _ _ _ =>
      obtain rfl := Option.some.inj seen
      exact absurd same hfp
    | failed record number _ opened _ _ _ _ _ => exact absurd opened (absurdOpened _ _)
    | completed record number _ opened _ _ _ _ _ _ => exact absurd opened (absurdOpened _ _)

theorem Settled.of_completed
    (h : Settled ext env command fingerprint existing db settlement db') {fp : String} {id : Uuid}
    (locked : ∀ r ∈ existing, db.idempotencyRecord.find? command.idempotencyKey = some r)
    (hc : CompletedAs db command.idempotencyKey fp id) :
    db'.business = db.business ∧
      ((∃ e, settlement = .answered (.error e)) ∨ settlement = .replaying id) := by
  obtain ⟨r, hr, hstate, _, hid⟩ := hc
  have absurdOpened : ∀ record number,
      ¬ Opened env command fingerprint existing db record number := by
    intro record number ho
    cases ho.record with
    | inserted absent =>
      rw [absent] at hr
      cases hr
    | reset q found _ failed =>
      rw [found] at hr
      obtain rfl := Option.some.inj hr
      rw [hstate] at failed
      cases failed
  cases h with
  | refused e => exact ⟨rfl, .inl ⟨e, rfl⟩⟩
  | replaying q batchId seen _ _ _ result =>
    have hq := locked q seen
    rw [hr] at hq
    obtain rfl := Option.some.inj hq
    rw [hid] at result
    obtain rfl := Option.some.inj result
    exact ⟨rfl, .inr rfl⟩
  | failed record number _ opened _ _ _ _ _ => exact absurd opened (absurdOpened _ _)
  | completed record number _ opened _ _ _ _ _ _ => exact absurd opened (absurdOpened _ _)

theorem Settled.batches {k : String}
    (h : Settled ext env command fingerprint existing db settlement db')
    (hb : ∀ b ∈ db.settlementBatch.rows, b.idempotencyKey = k → b.batchState = .completed →
      ∃ fp, CompletedAs db k fp b.settlementBatchId) :
    ∀ b ∈ db'.settlementBatch.rows, b.idempotencyKey = k → b.batchState = .completed →
      ∃ fp, CompletedAs db' k fp b.settlementBatchId := by
  intro b hmem hkey hstate
  rcases Settled.audit_cases h with ⟨_, hbatch, _⟩ | ⟨row, hchange, _⟩
  · rw [hbatch] at hmem
    obtain ⟨fp, hc⟩ := hb b hmem hkey hstate
    exact ⟨fp, Settled.completedAs h hc⟩
  · obtain ⟨attempt, batch, steps, hw, hid, hbkey, hcompleted, _⟩ := hchange.written
    rcases (Table.mem_insert hw.batch).1 hmem with hmem | rfl
    · obtain ⟨fp, hc⟩ := hb b hmem hkey hstate
      exact ⟨fp, Settled.completedAs h hc⟩
    · obtain ⟨hrow, hresult⟩ := hcompleted hstate
      refine ⟨row.requestFingerprint, row, ?_, hrow, rfl, by rw [hresult, hid]⟩
      rw [hchange.find_record, if_pos (hbkey.symm.trans hkey)]

theorem Settled.readable {k : String}
    (h : Settled ext env command fingerprint existing db settlement db') (hrefs : References db)
    (hr : ∀ fp id, CompletedAs db k fp id → ∃ rs, ReadsBack db id rs) :
    ∀ fp id, CompletedAs db' k fp id → ∃ rs, ReadsBack db' id rs := by
  intro fp id hc
  by_cases hold : ∃ fp' id', CompletedAs db k fp' id'
  · obtain ⟨fp', id', hc'⟩ := hold
    obtain ⟨_, rfl⟩ := (Settled.completedAs h hc').unique hc
    obtain ⟨rs, hrs⟩ := hr fp' id' hc'
    exact ⟨rs, Settled.readsBack h hrs⟩
  · obtain ⟨r, hrec, hstate, hfp, hid⟩ := hc
    cases h with
    | refused e => exact absurd ⟨fp, id, r, hrec, hstate, hfp, hid⟩ hold
    | replaying q batchId _ _ _ _ _ => exact absurd ⟨fp, id, r, hrec, hstate, hfp, hid⟩ hold
    | failed record number _ opened attempted e audit _ _ =>
      rw [Table.find?_put audit.record] at hrec
      split_ifs at hrec with hk
      · obtain rfl := Option.some.inj hrec
        cases hstate
      · exact absurd ⟨fp, id, r, hrec, hstate, hfp, hid⟩ hold
    | completed record number _ opened checks outputs _ _ audit _ =>
      rw [Table.find?_put audit.record] at hrec
      split_ifs at hrec with hk
      · obtain rfl := Option.some.inj hrec
        obtain rfl := Option.some.inj hid
        refine ⟨_, ⟨batchCompleted (openBatchRow env command), ?_⟩,
          replaySteps_of_completed hrefs audit⟩
        exact Table.find?_insert_self audit.batch
      · exact absurd ⟨fp, id, r, hrec, hstate, hfp, hid⟩ hold

end Stability

end EveTrade.SettlementStability
