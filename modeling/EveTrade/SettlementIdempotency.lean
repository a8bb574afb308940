import EveTrade.LocalDevWorld
import EveTrade.SettlementIdempotencyInvariant

set_option autoImplicit false

/-!
# One settlement per idempotency key
-/
namespace EveTrade.SettlementIdempotency

open KeyedTable TransactionMonad JsonText UuidText SettlementTypes SettlementCommands
  SettlementSchema SettlementExecutor SettlementOutcome SettlementRecords SettlementStability
  SettlementInterleaving SettlementIdempotencyInvariant LocalDevWorld

section Alone

variable {ext : External} {w : World} {j : ℕ} {c : Call}

def runAlone (ext : External) (j : ℕ) (w : World) : World :=
  run ext [.advance j, .advance j, .advance j] w

theorem perform_advance (hj : w.calls[j]? = some c) :
    perform ext (.advance j) w =
      ⟨(nextPhase ext c (w.calls.any (Call.locks c.key)) w.db).2, w.calls.set j
        (c.withPhase (nextPhase ext c (w.calls.any (Call.locks c.key)) w.db).1)⟩ := by
  simp [perform, hj]

theorem getElem?_set_call (hj : w.calls[j]? = some c) (d : Call) :
    (w.calls.set j d)[j]? = some d := by
  obtain ⟨hlt, _⟩ := List.getElem?_eq_some_iff.1 hj
  rw [List.getElem?_set_self hlt]

theorem perform_ended {r : Except SettlementError BatchExecutionResult}
    (hj : w.calls[j]? = some c) (hphase : c.phase = .ended r) :
    perform ext (.advance j) w = ⟨w.db, w.calls.set j (c.withPhase (.ended r))⟩ := by
  rw [perform_advance hj]
  simp [nextPhase, hphase]

theorem withPhase_withPhase (p q : Phase) : (c.withPhase p).withPhase q = c.withPhase q := rfl

theorem advance_twice_of_looked {existing : Option IdempotencyRecordRow}
    {faults : List (Option DbError)} (hj : w.calls[j]? = some c)
    (hphase : c.phase = .looked existing faults) :
    run ext [.advance j, .advance j] w =
      ⟨(finishReplay c.env c.command (settle ext c.env c.command
          (buildRequestFingerprint ext c.command) existing ⟨w.db, [], faults⟩)).2,
        w.calls.set j (c.withPhase (.ended (finishReplay c.env c.command (settle ext c.env c.command
          (buildRequestFingerprint ext c.command) existing ⟨w.db, [], faults⟩)).1))⟩ := by
  have h₁ := @perform_advance ext w j c hj
  simp only [nextPhase, hphase] at h₁
  change perform ext (.advance j) (perform ext (.advance j) w) = _
  rw [h₁]
  generalize settle ext c.env c.command (buildRequestFingerprint ext c.command) existing
    ⟨w.db, [], faults⟩ = r
  obtain ⟨settlement, db'⟩ := r
  have hj' := getElem?_set_call hj (c.withPhase (afterSettle settlement))
  rw [perform_advance (w := ⟨db', w.calls.set j _⟩) hj']
  cases settlement with
  | answered r => simp [afterSettle, nextPhase, Call.withPhase, finishReplay, List.set_set]
  | replaying id => simp [afterSettle, nextPhase, Call.withPhase, finishReplay, List.set_set]

/-- A call whose steps are not interrupted is one execution of the batch. -/
theorem runAlone_eq_executeBatch (hj : w.calls[j]? = some c) (hphase : c.phase = .started)
    (hprepared : Prepared ext c) (hfree : w.calls.any (Call.locks c.key) = false) :
    runAlone ext j w =
      ⟨(executeBatch ext c.env c.command w.db).2,
        w.calls.set j (c.withPhase (.ended (executeBatch ext c.env c.command w.db).1))⟩ := by
  have h₁ := @perform_advance ext w j c hj
  simp only [nextPhase, hphase, hfree, Bool.false_eq_true, if_false] at h₁
  have hexecute : executeBatch ext c.env c.command w.db =
      finishLookup ext c.env c.command (buildRequestFingerprint ext c.command) w.db
        (lookup c.command ⟨w.db, [], c.env.faults⟩) := by
    have hp : prepare ext c.command = .ok (buildRequestFingerprint ext c.command) := hprepared
    simp only [executeBatch, hp]
  change run ext [.advance j, .advance j] (perform ext (.advance j) w) = _
  rw [h₁, hexecute]
  cases hl : lookup c.command ⟨w.db, [], c.env.faults⟩ with
  | error e =>
    have hj' := getElem?_set_call hj (c.withPhase (.ended (.error e)))
    have h₂ := @perform_ended ext ⟨w.db, w.calls.set j _⟩ j _ _ hj' rfl
    simp only [List.set_set, withPhase_withPhase] at h₂
    change perform ext (.advance j) (perform ext (.advance j) ⟨w.db, _⟩) = _
    rw [h₂, h₂]
    rfl
  | ok p =>
    obtain ⟨existing, s⟩ := p
    obtain ⟨hdata, hdeferred, _⟩ := lookup_eq_ok hl
    have hs : (⟨w.db, [], s.faults⟩ : DbSession) = s := by
      obtain ⟨d, f, g⟩ := s
      obtain rfl : d = w.db := hdata
      obtain rfl : f = [] := hdeferred
      rfl
    have hj' := getElem?_set_call hj (c.withPhase (.looked existing s.faults))
    have h₂ := @advance_twice_of_looked ext ⟨w.db, w.calls.set j _⟩ j _ _ _ hj' rfl
    rw [h₂]
    simp [Call.withPhase, finishLookup, hs, List.set_set]

end Alone

section Replay

variable {ext : External} {env : ExecEnv} {command : ExecuteBatchCommand} {db : Db}

def CleanEnv (env : ExecEnv) : Prop :=
  (∀ f ∈ env.faults, f = none) ∧ ∀ f ∈ env.replayFaults, f = none

theorem loadReplayedSteps_of_clean (h : CleanEnv env) (id : Uuid) :
    loadReplayedSteps env id db = replaySteps (batchSteps db id) := by
  have hnone := Session.Clean.nextFault (s := (⟨(), [], env.replayFaults⟩ : Session Unit Unit DbError)) h.2
  unfold Session.nextFault at hnone
  unfold loadReplayedSteps
  rw [hnone]

theorem settle_of_completed {id : Uuid} {r : IdempotencyRecordRow} {s : DbSession} (hs : s.Clean)
    (hdeferred : s.deferred = []) (hstate : r.idempotencyState = .completed)
    (hfp : r.requestFingerprint = buildRequestFingerprint ext command)
    (hid : r.resultSettlementBatchId = some id)
    (hassert : ∀ a ∈ command.requestFingerprint, a = buildRequestFingerprint ext command) :
    settle ext env command (buildRequestFingerprint ext command) (some r) s =
      (.replaying id, operationCompleted command.idempotencyKey id s.data) := by
  have hresolve : resolveIdempotency command (buildRequestFingerprint ext command) (some r) s =
      .ok (some id, s) := by
    refine Tx.ensure_bind_eq_ok.2 ⟨hfp, ?_⟩
    refine validateRequestFingerprintAssertion_bind_eq_ok.2 ⟨hassert, ?_⟩
    rw [hstate]
    exact Tx.fromOption_bind_eq_ok.2 ⟨id, hid, rfl⟩
  have hreplay : ∃ s', replayOperation command id s = .ok ((), s') ∧
      s'.data = operationCompleted command.idempotencyKey id s.data := by
    have hclean := hs.wrote (operationCompleted command.idempotencyKey id s.data) []
    exact ⟨_, Tx.unit_bind_eq_ok.2 ⟨_, executeDb_eq_ok.2 ⟨hs.nextFault, _, rfl, rfl⟩,
      Tx.commit_of_clean hclean (by simp [hdeferred])⟩, rfl⟩
  obtain ⟨s', hs', hdata⟩ := hreplay
  unfold settle
  rw [hresolve]
  dsimp only
  rw [hs']
  dsimp only
  rw [hdata]

theorem replayAnswer_of_clean {id : Uuid} {rs : List StepExecutionResult} (hclean : CleanEnv env)
    (hr : ReadsBack db id rs) :
    replayAnswer env command id db = .ok ⟨id, command.idempotencyKey, .completed, true, rs⟩ := by
  unfold replayAnswer
  rw [loadReplayedSteps_of_clean hclean, hr.2]
  rfl

theorem executeBatch_of_completed {id : Uuid} {rs : List StepExecutionResult} (hclean : CleanEnv env)
    (hprepared : prepare ext command = .ok (buildRequestFingerprint ext command))
    (hassert : ∀ a ∈ command.requestFingerprint, a = buildRequestFingerprint ext command)
    (hc : CompletedAs db command.idempotencyKey (buildRequestFingerprint ext command) id)
    (hr : ReadsBack db id rs) :
    executeBatch ext env command db =
      (.ok ⟨id, command.idempotencyKey, .completed, true, rs⟩,
        operationCompleted command.idempotencyKey id db) := by
  obtain ⟨r, hrec, hstate, hfp, hid⟩ := hc
  have hsession : (⟨db, [], env.faults⟩ : DbSession).Clean := hclean.1
  obtain ⟨existing, s, hlookup, hs, hdeferred⟩ := lookup_succeeds command _ hsession
  obtain ⟨hdata, _, rfl⟩ := lookup_eq_ok hlookup
  have hreads : ReadsBack (operationCompleted command.idempotencyKey id db) id rs := hr
  unfold executeBatch
  rw [hprepared]
  dsimp only
  rw [hlookup]
  change finishReplay env command (settle ext env command _ (db.idempotencyRecord.find? _) s) = _
  rw [hrec, settle_of_completed hs hdeferred hstate hfp hid hassert, hdata]
  dsimp only [finishReplay]
  rw [replayAnswer_of_clean hclean hreads]

theorem executeBatch_of_conflict {r : IdempotencyRecordRow}
    (hr : db.idempotencyRecord.find? command.idempotencyKey = some r)
    (hfp : r.requestFingerprint ≠ buildRequestFingerprint ext command) :
    ∃ e, executeBatch ext env command db = (.error e, db) := by
  rcases executeBatch_cases ext env command db with h | ⟨fp, settlement, db', hp, hsettled, he⟩
  · exact h
  · obtain rfl := (prepare_eq_ok hp).1
    obtain ⟨rfl, e, rfl⟩ := Settled.of_conflict hsettled (fun q hq => hq) hr hfp
    exact ⟨e, he⟩

end Replay

section Guarantee

variable (ext : External) (k : String)

/-- What holds of a key that was unused at the start, in every world the calls can reach. -/
structure IdempotentKey (w : World) : Prop where
  /-- Business rows change only in the step in which a call commits its batch. -/
  effects_committed : ∀ a, (perform ext a w).db.business ≠ w.db.business →
    ∃ j c r, a = .advance j ∧ (perform ext a w).calls[j]? = some c ∧ c.Committed r
  commits_once : ∀ (i j : ℕ) (c c' : Call) (r r' : BatchExecutionResult), w.calls[i]? = some c →
    w.calls[j]? = some c' → c.key = k → c'.key = k → c.Committed r → c'.Committed r' → i = j
  batch_once : ∀ b ∈ w.db.settlementBatch.rows, ∀ b' ∈ w.db.settlementBatch.rows,
    b.idempotencyKey = k → b'.idempotencyKey = k → b.batchState = .completed →
    b'.batchState = .completed → b = b'
  /-- Calls of the committed fingerprint that start after the commit answer with the original
  batch and its step results, and leave the business rows. -/
  replays : ∀ (i : ℕ) (c : Call) (r : BatchExecutionResult), w.calls[i]? = some c → c.key = k →
    c.Committed r → ∀ (as : List Action) (j : ℕ) (d : Call), w.calls.length ≤ j →
    (run ext as w).calls[j]? = some d → d.key = k →
    buildRequestFingerprint ext d.command = buildRequestFingerprint ext c.command →
    (∀ a ∈ d.command.requestFingerprint, a = buildRequestFingerprint ext d.command) →
    (NoCollision ext d.command c.command → Prepared ext d) ∧
    (perform ext (.advance j) (run ext as w)).db.business = (run ext as w).db.business ∧
    (∀ r', d.phase = .ended (.ok r') → r' = { r with idempotentReplay := true }) ∧
    (d.phase = .started → (run ext as w).calls.any (Call.locks k) = false → CleanEnv d.env →
      (runAlone ext j (run ext as w)).calls[j]? =
          some (d.withPhase (.ended (.ok { r with idempotentReplay := true }))) ∧
        (runAlone ext j (run ext as w)).db.business = (run ext as w).db.business)
  /-- Calls of another fingerprint than the recorded one answer with an error and change nothing. -/
  conflicts : ∀ r, w.db.idempotencyRecord.find? k = some r → ∀ (j : ℕ) (c : Call),
    w.calls[j]? = some c → c.key = k →
    buildRequestFingerprint ext c.command ≠ r.requestFingerprint →
    (perform ext (.advance j) w).db = w.db ∧ (∀ res, c.phase ≠ .ended (.ok res)) ∧
    (∀ existing faults, c.phase = .looked existing faults → ∃ e,
      perform ext (.advance j) w = ⟨w.db, w.calls.set j (c.withPhase (.ended (.error e)))⟩) ∧
    (c.phase = .started → w.calls.any (Call.locks k) = false → ∃ e,
      runAlone ext j w = ⟨w.db, w.calls.set j (c.withPhase (.ended (.error e)))⟩)

variable {ext k} {w : World}

theorem perform_keeps_ended (a : Action) {i : ℕ} {c : Call}
    {r : Except SettlementError BatchExecutionResult} (hi : w.calls[i]? = some c)
    (hphase : c.phase = .ended r) : (perform ext a w).calls[i]? = some c := by
  have hkeep : ∀ (j : ℕ) (d : Call) (p : Phase), w.calls[j]? = some d →
      (d.phase = .ended r → p = .ended r) → (w.calls.set j (d.withPhase p))[i]? = some c := by
    intro j d p hj hp
    by_cases hij : j = i
    · subst hij
      rw [hj] at hi
      obtain rfl := Option.some.inj hi
      rw [getElem?_set_call hj, hp hphase, ← hphase]
      rfl
    · rw [List.getElem?_set_ne hij]
      exact hi
  rcases perform_cases ext a w with ⟨env, command, _, he⟩ | he | ⟨j, d, _, hj, he⟩ | ⟨j, d, _, hj, he⟩
  · rw [he]
    obtain ⟨hlt, _⟩ := List.getElem?_eq_some_iff.1 hi
    rw [List.getElem?_append_left hlt]
    exact hi
  · rw [he]
    exact hi
  · rw [he]
    exact hkeep j d _ hj fun hd => by rw [hd]; rfl
  · rw [he]
    exact hkeep j d _ hj fun hd => by simp [nextPhase, hd]

theorem run_keeps_ended (as : List Action) {i : ℕ} {c : Call}
    {r : Except SettlementError BatchExecutionResult} (hi : w.calls[i]? = some c)
    (hphase : c.phase = .ended r) : (run ext as w).calls[i]? = some c := by
  induction as generalizing w with
  | nil => exact hi
  | cons a as ih => exact ih (perform_keeps_ended a hi hphase)

theorem inv_effects_committed (hw : Inv ext k w) (a : Action)
    (h : (perform ext a w).db.business ≠ w.db.business) :
    ∃ j c r, a = .advance j ∧ (perform ext a w).calls[j]? = some c ∧ c.Committed r := by
  rcases perform_cases ext a w with ⟨env, command, _, he⟩ | he | ⟨j, c, _, hj, he⟩ | ⟨j, c, ha, hj, he⟩
  · exact absurd (by rw [he]) h
  · exact absurd (by rw [he]) h
  · exact absurd (by rw [he]) h
  · rw [he] at h ⊢
    have hok := hw.calls j c hj
    cases hphase : c.phase with
    | looked existing faults =>
      simp only [CallOk, hphase] at hok
      simp only [nextPhase, hphase] at h ⊢
      have hsettled := @settle_settled ext c.env c.command (buildRequestFingerprint ext c.command)
        existing ⟨w.db, [], faults⟩ rfl hok.2
      generalize settle ext c.env c.command (buildRequestFingerprint ext c.command) existing
        ⟨w.db, [], faults⟩ = out at h hsettled ⊢
      obtain ⟨settlement, db'⟩ := out
      cases hsettled with
      | refused e => exact absurd rfl h
      | replaying r batchId _ _ _ _ _ => exact absurd rfl h
      | failed record number _ _ attempted e _ hb _ => exact absurd hb h
      | completed record number _ _ checks outputs _ _ _ _ =>
        exact ⟨j, _, _, ha, getElem?_set_call hj _, rfl, rfl⟩
    | started =>
      simp only [nextPhase, hphase] at h
      split_ifs at h
      · exact absurd rfl h
      · split at h
        · exact absurd rfl h
        · exact absurd rfl h
    | replaying id =>
      simp only [nextPhase, hphase] at h
      exact absurd rfl h
    | ended r =>
      simp only [nextPhase, hphase] at h
      exact absurd rfl h
    | crashed =>
      simp only [nextPhase, hphase] at h
      exact absurd rfl h

theorem inv_batch_once (hw : Inv ext k w) {b b' : SettlementBatchRow}
    (hb : b ∈ w.db.settlementBatch.rows) (hb' : b' ∈ w.db.settlementBatch.rows)
    (hk : b.idempotencyKey = k) (hk' : b'.idempotencyKey = k) (hs : b.batchState = .completed)
    (hs' : b'.batchState = .completed) : b = b' := by
  obtain ⟨fp, hc⟩ := hw.batches b hb hk hs
  obtain ⟨fp', hc'⟩ := hw.batches b' hb' hk' hs'
  exact Table.mem_unique hb hb' (hc.unique hc').2

theorem inv_advance_keeps_business (hw : Inv ext k w) {j : ℕ} {c : Call} {fp : String} {id : Uuid}
    (hj : w.calls[j]? = some c) (hk : c.key = k) (hc : CompletedAs w.db k fp id) :
    (perform ext (.advance j) w).db.business = w.db.business := by
  by_contra hne
  obtain ⟨i, d, r, ha, hd, hcommit⟩ := inv_effects_committed hw _ hne
  obtain rfl : j = i := by injection ha
  rw [perform_advance hj] at hd
  obtain rfl := Option.some.inj ((getElem?_set_call hj _).symm.trans hd)
  have hok := hw.calls j c hj
  cases hphase : c.phase with
  | looked existing faults =>
    simp only [CallOk, hphase] at hok
    simp only [nextPhase, hphase] at hcommit
    exact Settled.not_completed_before (settle_settled (s := ⟨w.db, [], faults⟩) rfl hok.2) hok.2
      hcommit (hk ▸ hc)
  | started =>
    apply hne
    rw [perform_advance hj]
    simp only [nextPhase, hphase]
    split_ifs
    · rfl
    · split <;> rfl
  | replaying id' =>
    apply hne
    rw [perform_advance hj]
    simp only [nextPhase, hphase]
  | ended r' =>
    apply hne
    rw [perform_advance hj]
    simp only [nextPhase, hphase]
  | crashed =>
    apply hne
    rw [perform_advance hj]
    simp only [nextPhase, hphase]

theorem inv_committed (hw : Inv ext k w) {i : ℕ} {c : Call} {r : BatchExecutionResult}
    (hi : w.calls[i]? = some c) (hk : c.key = k) (hc : c.Committed r) :
    Prepared ext c ∧ r.idempotencyKey = k ∧ r.batchState = .completed ∧
      CompletedAs w.db k (buildRequestFingerprint ext c.command) r.settlementBatchId ∧
      ReadsBack w.db r.settlementBatchId r.stepResults := by
  have hok := hw.calls i c hi
  simp only [CallOk, hc.1] at hok
  exact ⟨hok.1, hok.2 hk⟩

theorem inv_replayed_answer (hw : Inv ext k w) {i j : ℕ} {c d : Call}
    {r r' : BatchExecutionResult} (hi : w.calls[i]? = some c) (hj : w.calls[j]? = some d)
    (hij : i ≠ j) (hkc : c.key = k) (hkd : d.key = k) (hc : c.Committed r)
    (hd : d.phase = .ended (.ok r')) : r' = { r with idempotentReplay := true } := by
  obtain ⟨_, hkey, hstate, hcompleted, hreads⟩ := inv_committed hw hi hkc hc
  have hok := hw.calls j d hj
  simp only [CallOk, hd] at hok
  obtain ⟨hkey', hstate', hcompleted', hreads'⟩ := hok.2 hkd
  have hid := (hcompleted.unique hcompleted').2
  rw [← hid] at hreads'
  have hresults := hreads.unique hreads'
  have hreplay : r'.idempotentReplay = true := by
    cases hb : r'.idempotentReplay with
    | true => rfl
    | false => exact absurd (hw.once i j c d r r' hi hj hkc hkd hc ⟨hd, hb⟩) hij
  obtain ⟨id, key, state, replay, results⟩ := r
  obtain ⟨id', key', state', replay', results'⟩ := r'
  simp only at hid hkey hkey' hstate hstate' hresults hreplay
  subst hid hkey hkey' hstate hstate' hresults hreplay
  rfl

theorem inv_replays (hserde : Function.Injective ext.serdeDateTime) (hw : Inv ext k w) {i j : ℕ}
    {c d : Call} {r : BatchExecutionResult} (hi : w.calls[i]? = some c)
    (hj : w.calls[j]? = some d) (hij : i ≠ j) (hkc : c.key = k) (hkd : d.key = k)
    (hc : c.Committed r)
    (hfp : buildRequestFingerprint ext d.command = buildRequestFingerprint ext c.command)
    (hassert : ∀ a ∈ d.command.requestFingerprint, a = buildRequestFingerprint ext d.command) :
    (NoCollision ext d.command c.command → Prepared ext d) ∧
      (perform ext (.advance j) w).db.business = w.db.business ∧
      (∀ r', d.phase = .ended (.ok r') → r' = { r with idempotentReplay := true }) ∧
      (d.phase = .started → w.calls.any (Call.locks k) = false → CleanEnv d.env →
        (runAlone ext j w).calls[j]? =
            some (d.withPhase (.ended (.ok { r with idempotentReplay := true }))) ∧
          (runAlone ext j w).db.business = w.db.business) := by
  obtain ⟨hprepared, hkey, hstate, hcompleted, hreads⟩ := inv_committed hw hi hkc hc
  refine ⟨?_, inv_advance_keeps_business hw hj hkd hcompleted, ?_, ?_⟩
  · intro hsha
    unfold Prepared
    rw [hfp]
    exact prepare_of_fingerprint_eq hsha hserde hprepared hfp
  · intro r' hd
    exact inv_replayed_answer hw hi hj hij hkc hkd hc hd
  · intro hphase hfree hclean
    have hok := hw.calls j d hj
    simp only [CallOk, hphase] at hok
    have hcompleted' : CompletedAs w.db d.command.idempotencyKey
        (buildRequestFingerprint ext d.command) r.settlementBatchId := by
      rw [hfp, show d.command.idempotencyKey = k from hkd]
      exact hcompleted
    have hexecute := executeBatch_of_completed hclean hok hassert hcompleted' hreads
    rw [runAlone_eq_executeBatch hj hphase hok (by rw [hkd]; exact hfree), hexecute]
    refine ⟨?_, rfl⟩
    rw [getElem?_set_call hj]
    have hresult : (⟨r.settlementBatchId, d.command.idempotencyKey, .completed, true,
        r.stepResults⟩ : BatchExecutionResult) = { r with idempotentReplay := true } := by
      rw [show d.command.idempotencyKey = r.idempotencyKey from hkd.trans hkey.symm, ← hstate]
    rw [hresult]

theorem inv_conflicts (hw : Inv ext k w) {r : IdempotencyRecordRow}
    (hr : w.db.idempotencyRecord.find? k = some r) {j : ℕ} {c : Call} (hj : w.calls[j]? = some c)
    (hk : c.key = k) (hfp : buildRequestFingerprint ext c.command ≠ r.requestFingerprint) :
    (perform ext (.advance j) w).db = w.db ∧ (∀ res, c.phase ≠ .ended (.ok res)) ∧
      (∀ existing faults, c.phase = .looked existing faults → ∃ e,
        perform ext (.advance j) w = ⟨w.db, w.calls.set j (c.withPhase (.ended (.error e)))⟩) ∧
      (c.phase = .started → w.calls.any (Call.locks k) = false → ∃ e,
        runAlone ext j w = ⟨w.db, w.calls.set j (c.withPhase (.ended (.error e)))⟩) := by
  have hok := hw.calls j c hj
  have hr' : w.db.idempotencyRecord.find? c.command.idempotencyKey = some r := by
    rw [show c.command.idempotencyKey = k from hk]
    exact hr
  have hlooked : ∀ existing faults, c.phase = .looked existing faults → ∃ e,
      perform ext (.advance j) w = ⟨w.db, w.calls.set j (c.withPhase (.ended (.error e)))⟩ := by
    intro existing faults hphase
    simp only [CallOk, hphase] at hok
    have hsettled := @settle_settled ext c.env c.command (buildRequestFingerprint ext c.command)
      existing ⟨w.db, [], faults⟩ rfl hok.2
    obtain ⟨hdb, e, he⟩ := Settled.of_conflict hsettled hok.2 hr' (fun h => hfp h.symm)
    refine ⟨e, ?_⟩
    rw [perform_advance hj]
    simp only [nextPhase, hphase, hdb, he, afterSettle]
  refine ⟨?_, ?_, hlooked, ?_⟩
  · cases hphase : c.phase with
    | looked existing faults =>
      obtain ⟨e, he⟩ := hlooked existing faults hphase
      rw [he]
    | started =>
      rw [perform_advance hj]
      simp only [nextPhase, hphase]
      split_ifs
      · rfl
      · split <;> rfl
    | replaying id => simp [perform_advance hj, nextPhase, hphase]
    | ended r' => simp [perform_advance hj, nextPhase, hphase]
    | crashed => simp [perform_advance hj, nextPhase, hphase]
  · intro res hphase
    simp only [CallOk, hphase] at hok
    obtain ⟨_, _, ⟨q, hq, _, hqfp, _⟩, _⟩ := hok.2 hk
    rw [hr] at hq
    obtain rfl := Option.some.inj hq
    exact hfp hqfp.symm
  · intro hphase hfree
    simp only [CallOk, hphase] at hok
    obtain ⟨e, he⟩ := @executeBatch_of_conflict ext c.env _ _ _ hr' (fun h => hfp h.symm)
    refine ⟨e, ?_⟩
    rw [runAlone_eq_executeBatch hj hphase hok (by rw [hk]; exact hfree), he]

/-- In every interleaving of calls, a key that was unused is settled at most once; later calls
replay its batch or are refused. -/
theorem unused_key_is_idempotent (hserde : Function.Injective ext.serdeDateTime) {db : Db}
    (hrefs : References db) (hfresh : db.idempotencyRecord.find? k = none) (as : List Action) :
    IdempotentKey ext k (run ext as ⟨db, []⟩) := by
  have hw : Inv ext k (run ext as ⟨db, []⟩) := (Inv.initial hrefs hfresh).of_run as
  refine ⟨inv_effects_committed hw, hw.once, ?_, ?_, ?_⟩
  · intro b hb b' hb' hk hk' hs hs'
    exact inv_batch_once hw hb hb' hk hk' hs hs'
  · intro i c r hi hk hc bs j d hlen hj hkd hfp hassert
    have hi' : (run ext bs (run ext as ⟨db, []⟩)).calls[i]? = some c := run_keeps_ended bs hi hc.1
    have hij : i ≠ j := by
      obtain ⟨hlt, _⟩ := List.getElem?_eq_some_iff.1 hi
      omega
    exact inv_replays hserde (hw.of_run bs) hi' hj hij hk hkd hc hfp hassert
  · intro r hr j c hj hk hfp
    exact inv_conflicts hw hr hj hk hfp

def issueOnce : ExecuteBatchCommand := issueTradeCommand "issue-1" (.ofNat 1) (.ofNat 2) 4 none

/-- The seeded world settles one issue, whose key is then spent. -/
theorem unused_key_is_idempotent_issue :
    (localDevWorld transparent).idempotencyRecord.find? "issue-1" = none ∧
      ((run transparent [.start (quietEnv 100) issueOnce, .advance 0, .advance 0]
          ⟨localDevWorld transparent, []⟩).calls.map fun c =>
        match c.phase with
        | .ended (.ok r) => some r.idempotentReplay
        | _ => none) = [some false] ∧
      IdempotentKey transparent "issue-1"
        (run transparent [.start (quietEnv 100) issueOnce, .advance 0, .advance 0]
          ⟨localDevWorld transparent, []⟩) :=
  ⟨by decide +kernel, by decide +kernel,
    unused_key_is_idempotent transparent_serdeDateTime_injective
      (localDevWorld_references transparent) (by decide +kernel) _⟩

end Guarantee

section FingerprintText

/-- The text that is hashed for a request is that of another one exactly when both ask for the same
plan; the key, the request id, the creating service and the asserted fingerprint have no part in it. -/
theorem fingerprint_text_eq_iff (ext : External) (hserde : Function.Injective ext.serdeDateTime)
    (c c' : ExecuteBatchCommand) :
    (render (fingerprintMaterial ext c) = render (fingerprintMaterial ext c') ↔
      c.intent = c'.intent ∧ c.externalRequestId = c'.externalRequestId ∧
        c.causedByCapsuleerId = c'.causedByCapsuleerId ∧ c.operations = c'.operations) ∧
    ∀ (key service : String) (asserted : Option String) (requestId : Option Uuid),
      render (fingerprintMaterial ext
        { c with
          idempotencyKey := key
          createdByService := service
          requestFingerprint := asserted
          requestId := requestId }) =
      render (fingerprintMaterial ext c) := by
  refine ⟨⟨?_, ?_⟩, ?_⟩
  · intro h
    exact samePlan_of_fingerprintMaterial_eq hserde (render_injective h)
  · intro h
    rw [fingerprintMaterial_eq_of_samePlan h]
  · intro key service asserted requestId
    rfl

/-- An issue of another quantity has another text. -/
theorem fingerprint_text_eq_iff_issue :
    render (fingerprintMaterial transparent issueOnce) ≠
      render (fingerprintMaterial transparent
        (issueTradeCommand "issue-1" (.ofNat 1) (.ofNat 2) 5 none)) := by
  intro h
  have hplan := (fingerprint_text_eq_iff transparent transparent_serdeDateTime_injective _ _).1.1 h
  revert hplan
  decide

end FingerprintText

end EveTrade.SettlementIdempotency
