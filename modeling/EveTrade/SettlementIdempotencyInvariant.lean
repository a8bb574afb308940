import EveTrade.SettlementInterleaving
import EveTrade.SettlementStability

set_option autoImplicit false

/-!
# The invariant of one idempotency key

What holds in every world the calls can reach, seen from one key that was unused at the start.
-/
namespace EveTrade.SettlementIdempotencyInvariant

open KeyedTable TransactionMonad UuidText SettlementTypes SettlementCommands SettlementSchema
  SettlementExecutor SettlementOutcome SettlementRecords SettlementStability SettlementInterleaving

section Invariant

variable (ext : External) (k : String)

def Prepared (c : Call) : Prop :=
  prepare ext c.command = .ok (buildRequestFingerprint ext c.command)

/-- What a call of the key may rely on in its phase. -/
def CallOk (db : Db) (c : Call) : Prop :=
  match c.phase with
  | .started => Prepared ext c
  | .looked existing _ =>
    Prepared ext c ∧ ∀ r ∈ existing, db.idempotencyRecord.find? c.key = some r
  | .replaying id =>
    Prepared ext c ∧ (c.key = k → CompletedAs db k (buildRequestFingerprint ext c.command) id)
  | .ended (.ok r) =>
    Prepared ext c ∧ (c.key = k → r.idempotencyKey = k ∧ r.batchState = .completed ∧
      CompletedAs db k (buildRequestFingerprint ext c.command) r.settlementBatchId ∧
      ReadsBack db r.settlementBatchId r.stepResults)
  | .ended (.error _) => True
  | .crashed => True

structure Inv (w : World) : Prop where
  references : References w.db
  batches : ∀ b ∈ w.db.settlementBatch.rows, b.idempotencyKey = k → b.batchState = .completed →
    ∃ fp, CompletedAs w.db k fp b.settlementBatchId
  readable : ∀ fp id, CompletedAs w.db k fp id → ∃ rs, ReadsBack w.db id rs
  calls : ∀ (j : ℕ) (c : Call), w.calls[j]? = some c → CallOk ext k w.db c
  exclusive : ∀ (i j : ℕ) (c c' : Call), w.calls[i]? = some c → w.calls[j]? = some c' → c.key = c'.key →
    c.holdsRecord = true → c'.holdsRecord = true → i = j
  once : ∀ (i j : ℕ) (c c' : Call) (r r' : BatchExecutionResult), w.calls[i]? = some c → w.calls[j]? = some c' → c.key = k → c'.key = k →
    c.Committed r → c'.Committed r' → i = j

end Invariant

section Preservation

variable {ext : External} {k : String} {w : World}
variable {db db' : Db} {existing : Option IdempotencyRecordRow} {settlement : Settlement} {c : Call}

theorem CallOk.settled {c d : Call} (hc : CallOk ext k db c)
    (h : Settled ext d.env d.command (buildRequestFingerprint ext d.command) existing db settlement
      db')
    (hlock : c.key = d.key → c.holdsRecord = true → existing = none) : CallOk ext k db' c := by
  unfold CallOk at hc ⊢
  split at hc
  · exact hc
  · rename_i seen faults hphase
    refine ⟨hc.1, ?_⟩
    intro r hr
    obtain rfl : seen = some r := hr
    by_cases hk : d.command.idempotencyKey = c.key
    · have hnone : existing = none := hlock hk.symm (by simp [Call.holdsRecord, hphase])
      subst hnone
      have hfound := hc.2 r rfl
      rw [← hk] at hfound ⊢
      rw [(Settled.of_stale h hfound).1]
      exact hfound
    · rw [Settled.find_record_ne h hk]
      exact hc.2 r rfl
  · exact ⟨hc.1, fun hk => Settled.completedAs h (hc.2 hk)⟩
  · refine ⟨hc.1, fun hk => ?_⟩
    obtain ⟨h₁, h₂, h₃, h₄⟩ := hc.2 hk
    exact ⟨h₁, h₂, Settled.completedAs h h₃, Settled.readsBack h h₄⟩
  · trivial
  · trivial

theorem getElem?_set_cases {α : Type} {l : List α} {i j : ℕ} {a b : α}
    (h : (l.set j a)[i]? = some b) : (i = j ∧ b = a) ∨ (i ≠ j ∧ l[i]? = some b) := by
  by_cases hij : j = i
  · subst hij
    rw [List.getElem?_set] at h
    simp only [if_true] at h
    split_ifs at h
    · exact .inl ⟨rfl, (Option.some.inj h).symm⟩
  · rw [List.getElem?_set_ne hij] at h
    exact .inr ⟨fun he => hij he.symm, h⟩

theorem Inv.set_phase (hw : Inv ext k w) {j : ℕ} {p : Phase}
    (hj : w.calls[j]? = some c) (hok : CallOk ext k w.db (c.withPhase p))
    (hhold : (c.withPhase p).holdsRecord = true → w.calls.any (Call.locks c.key) = false)
    (hcommit : ∀ r, (c.withPhase p).Committed r → c.Committed r) :
    Inv ext k ⟨w.db, w.calls.set j (c.withPhase p)⟩ where
  references := hw.references
  batches := hw.batches
  readable := hw.readable
  calls := by
    intro i d hd
    rcases getElem?_set_cases hd with ⟨_, rfl⟩ | ⟨_, hd⟩
    · exact hok
    · exact hw.calls i d hd
  exclusive := by
    have hfree : ∀ (i : ℕ) (d : Call), w.calls[i]? = some d → d.key = c.key → d.holdsRecord = true →
        (c.withPhase p).holdsRecord = true → False := by
      intro i d hd hkey hholds hp
      have hall := hhold hp
      rw [List.any_eq_false] at hall
      apply hall d (List.mem_of_getElem? hd)
      simp [Call.locks, hkey, hholds]
    intro i i' d d' hd hd' hkey hh hh'
    rcases getElem?_set_cases hd with ⟨rfl, rfl⟩ | ⟨_, hold⟩
    · rcases getElem?_set_cases hd' with ⟨rfl, rfl⟩ | ⟨_, hd'⟩
      · rfl
      · exact (hfree i' d' hd' hkey.symm hh' hh).elim
    · rcases getElem?_set_cases hd' with ⟨rfl, rfl⟩ | ⟨_, hd'⟩
      · exact (hfree i d hold hkey hh hh').elim
      · exact hw.exclusive i i' d d' hold hd' hkey hh hh'
  once := by
    intro i i' d d' r r' hd hd' hkey hkey' hc hc'
    rcases getElem?_set_cases hd with ⟨rfl, rfl⟩ | ⟨_, hold⟩
    · rcases getElem?_set_cases hd' with ⟨rfl, rfl⟩ | ⟨_, hd'⟩
      · rfl
      · exact hw.once _ _ c d' r r' hj hd' hkey hkey' (hcommit r hc) hc'
    · rcases getElem?_set_cases hd' with ⟨rfl, rfl⟩ | ⟨_, hd'⟩
      · exact hw.once _ _ d c r r' hold hj hkey hkey' hc (hcommit r' hc')
      · exact hw.once i i' d d' r r' hold hd' hkey hkey' hc hc'

theorem getElem?_concat_cases {α : Type} {l : List α} {i : ℕ} {a b : α}
    (h : (l ++ [a])[i]? = some b) : l[i]? = some b ∨ (i = l.length ∧ b = a) := by
  by_cases hi : i < l.length
  · rw [List.getElem?_append_left hi] at h
    exact .inl h
  · rw [List.getElem?_append_right (by omega), List.getElem?_singleton] at h
    split_ifs at h with h0
    exact .inr ⟨by omega, (Option.some.inj h).symm⟩

theorem Inv.append (hw : Inv ext k w) (hok : CallOk ext k w.db c)
    (hhold : c.holdsRecord = false) (hcommit : ∀ r, ¬ c.Committed r) :
    Inv ext k ⟨w.db, w.calls ++ [c]⟩ where
  references := hw.references
  batches := hw.batches
  readable := hw.readable
  calls := by
    intro i d hd
    rcases getElem?_concat_cases hd with hd | ⟨_, rfl⟩
    · exact hw.calls i d hd
    · exact hok
  exclusive := by
    intro i i' d d' hd hd' hkey hh hh'
    rcases getElem?_concat_cases hd with hd | ⟨rfl, rfl⟩
    · rcases getElem?_concat_cases hd' with hd' | ⟨rfl, rfl⟩
      · exact hw.exclusive i i' d d' hd hd' hkey hh hh'
      · rw [hhold] at hh'
        cases hh'
    · rw [hhold] at hh
      cases hh
  once := by
    intro i i' d d' r r' hd hd' hkey hkey' hc hc'
    rcases getElem?_concat_cases hd with hd | ⟨rfl, rfl⟩
    · rcases getElem?_concat_cases hd' with hd' | ⟨rfl, rfl⟩
      · exact hw.once i i' d d' r r' hd hd' hkey hkey' hc hc'
      · exact absurd hc' (hcommit r')
    · exact absurd hc (hcommit r)

theorem begin_ok (env : ExecEnv) (command : ExecuteBatchCommand) (db : Db) :
    CallOk ext k db (begin ext env command) ∧ (begin ext env command).holdsRecord = false ∧
      ∀ r, ¬ (begin ext env command).Committed r := by
  unfold begin
  cases hp : prepare ext command with
  | error e =>
    refine ⟨trivial, rfl, ?_⟩
    rintro r ⟨hphase, _⟩
    cases hphase
  | ok fp =>
    refine ⟨?_, rfl, ?_⟩
    · change prepare ext command = _
      rw [hp, (prepare_eq_ok hp).1]
    · rintro r ⟨hphase, _⟩
      cases hphase

theorem crashedPhase_ok {db : Db} (h : CallOk ext k db c) :
    CallOk ext k db (c.withPhase (crashedPhase c.phase)) ∧
      (c.withPhase (crashedPhase c.phase)).holdsRecord = false ∧
      ∀ r, (c.withPhase (crashedPhase c.phase)).Committed r → c.Committed r := by
  obtain ⟨env, command, phase⟩ := c
  cases phase with
  | ended answer => exact ⟨h, rfl, fun _ hc => hc⟩
  | started => exact ⟨trivial, rfl, fun r hc => by cases hc.1⟩
  | looked existing faults => exact ⟨trivial, rfl, fun r hc => by cases hc.1⟩
  | replaying id => exact ⟨trivial, rfl, fun r hc => by cases hc.1⟩
  | crashed => exact ⟨trivial, rfl, fun r hc => by cases hc.1⟩

theorem Settled.callOk
    (h : Settled ext c.env c.command (buildRequestFingerprint ext c.command) existing db settlement
      db') (hrefs : References db) (hprepared : Prepared ext c)
    (hlocked : ∀ r ∈ existing, db.idempotencyRecord.find? c.key = some r) :
    CallOk ext k db' (c.withPhase (afterSettle settlement)) := by
  cases h with
  | refused e => trivial
  | failed record number _ opened attempted e audit _ _ => trivial
  | replaying r batchId seen same _ completed result =>
    refine ⟨hprepared, ?_⟩
    rintro rfl
    exact ⟨r, hlocked r seen, completed, same, result⟩
  | completed record number _ opened checks outputs _ _ audit _ =>
    refine ⟨hprepared, ?_⟩
    rintro rfl
    refine ⟨rfl, rfl, ⟨recordCompleted c.env.settlementBatchId record, ?_, rfl,
      opened.record.requestFingerprint, rfl⟩, ⟨batchCompleted (openBatchRow c.env c.command), ?_⟩,
      replaySteps_of_completed hrefs audit⟩
    · rw [Table.find?_put audit.record, if_pos]
      exact opened.record.key
    · exact Table.find?_insert_self audit.batch

theorem Settled.not_completed_before {r : BatchExecutionResult}
    (h : Settled ext c.env c.command (buildRequestFingerprint ext c.command) existing db settlement
      db') (hlocked : ∀ r ∈ existing, db.idempotencyRecord.find? c.key = some r)
    (hcommit : (c.withPhase (afterSettle settlement)).Committed r) {fp : String} {id : Uuid} :
    ¬ CompletedAs db c.key fp id := by
  intro hc
  rcases (Settled.of_completed h hlocked hc).2 with ⟨e, rfl⟩ | rfl
  · cases hcommit.1
  · cases hcommit.1

theorem afterSettle_holdsRecord (c : Call) (settlement : Settlement) :
    (c.withPhase (afterSettle settlement)).holdsRecord = false := by
  cases settlement with
  | answered r => rfl
  | replaying id => rfl

theorem Inv.of_settled (hw : Inv ext k w) {j : ℕ} {faults : List (Option DbError)}
    {db' : Db} (hj : w.calls[j]? = some c) (hphase : c.phase = .looked existing faults)
    (h : Settled ext c.env c.command (buildRequestFingerprint ext c.command) existing w.db
      settlement db') :
    Inv ext k ⟨db', w.calls.set j (c.withPhase (afterSettle settlement))⟩ := by
  have hok := hw.calls j c hj
  simp only [CallOk, hphase] at hok
  obtain ⟨hprepared, hlocked⟩ := hok
  have hother : ∀ i d, i ≠ j → w.calls[i]? = some d → CallOk ext k db' d := by
    intro i d hij hd
    refine (hw.calls i d hd).settled h ?_
    intro hkey hholds
    cases existing with
    | none => rfl
    | some r =>
      have hself : c.holdsRecord = true := by simp [Call.holdsRecord, hphase]
      exact absurd (hw.exclusive i j d c hd hj hkey hholds hself) hij
  have hfresh : ∀ i d r r', i ≠ j → w.calls[i]? = some d → d.key = k → c.key = k →
      d.Committed r → ¬ (c.withPhase (afterSettle settlement)).Committed r' := by
    intro i d r r' hij hd hkey hckey hcd hcc
    have hdok := hw.calls i d hd
    simp only [CallOk, hcd.1] at hdok
    obtain ⟨_, _, hcompleted, _⟩ := hdok.2 hkey
    exact Settled.not_completed_before h hlocked hcc (hckey ▸ hcompleted)
  refine ⟨Settled.references h hw.references, Settled.batches h hw.batches,
    Settled.readable h hw.references hw.readable, ?_, ?_, ?_⟩
  · intro i d hd
    rcases getElem?_set_cases hd with ⟨rfl, rfl⟩ | ⟨hij, hd⟩
    · exact Settled.callOk h hw.references hprepared hlocked
    · exact hother i d hij hd
  · intro i i' d d' hd hd' hkey hh hh'
    rcases getElem?_set_cases hd with ⟨rfl, rfl⟩ | ⟨_, hd⟩
    · rw [afterSettle_holdsRecord] at hh
      cases hh
    · rcases getElem?_set_cases hd' with ⟨rfl, rfl⟩ | ⟨_, hd'⟩
      · rw [afterSettle_holdsRecord] at hh'
        cases hh'
      · exact hw.exclusive i i' d d' hd hd' hkey hh hh'
  · intro i i' d d' r r' hd hd' hkey hkey' hc hc'
    rcases getElem?_set_cases hd with ⟨rfl, rfl⟩ | ⟨hij, hold⟩
    · rcases getElem?_set_cases hd' with ⟨rfl, rfl⟩ | ⟨hij', hd'⟩
      · rfl
      · exact absurd hc (hfresh i' d' r' r hij' hd' hkey' hkey hc')
    · rcases getElem?_set_cases hd' with ⟨rfl, rfl⟩ | ⟨_, hd'⟩
      · exact absurd hc' (hfresh i d r r' hij hold hkey hkey' hc)
      · exact hw.once i i' d d' r r' hold hd' hkey hkey' hc hc'

theorem replayAnswer_eq_ok {env : ExecEnv} {command : ExecuteBatchCommand} {id : Uuid} {db : Db}
    {r : BatchExecutionResult} (h : replayAnswer env command id db = .ok r) :
    r.settlementBatchId = id ∧ r.idempotencyKey = command.idempotencyKey ∧
      r.batchState = .completed ∧ r.idempotentReplay = true ∧
      replaySteps (batchSteps db id) = .ok r.stepResults := by
  obtain ⟨results, hload, h⟩ := except_bind_eq_ok.1 h
  obtain rfl := Except.ok.inj h
  refine ⟨rfl, rfl, rfl, rfl, ?_⟩
  unfold loadReplayedSteps at hload
  split at hload
  · cases hload
  · exact hload

theorem Inv.advance (hw : Inv ext k w) {j : ℕ} (hj : w.calls[j]? = some c) :
    Inv ext k ⟨(nextPhase ext c (w.calls.any (Call.locks c.key)) w.db).2, w.calls.set j
      (c.withPhase (nextPhase ext c (w.calls.any (Call.locks c.key)) w.db).1)⟩ := by
  have hok := hw.calls j c hj
  have hsame : c.holdsRecord = false → Inv ext k ⟨w.db, w.calls.set j (c.withPhase c.phase)⟩ := by
    intro hhold
    refine hw.set_phase hj hok (fun hh => ?_) (fun r hc => hc)
    change c.holdsRecord = true at hh
    rw [hhold] at hh
    cases hh
  cases hphase : c.phase with
  | started =>
    simp only [CallOk, hphase] at hok
    simp only [nextPhase, hphase]
    split_ifs with hlocked
    · rw [← hphase]
      exact hsame (by simp [Call.holdsRecord, hphase])
    · cases hl : lookup c.command ⟨w.db, [], c.env.faults⟩ with
      | error e =>
        refine hw.set_phase hj trivial (fun hh => by cases hh) ?_
        rintro r ⟨hp, _⟩
        cases hp
      | ok p =>
        obtain ⟨existing, s⟩ := p
        obtain ⟨_, _, hexisting⟩ := lookup_eq_ok hl
        refine hw.set_phase hj ⟨hok, ?_⟩ (fun _ => by simpa using hlocked) ?_
        · intro r hr
          rw [hexisting] at hr
          exact hr
        · rintro r ⟨hp, _⟩
          cases hp
  | looked existing faults =>
    simp only [CallOk, hphase] at hok
    simp only [nextPhase, hphase]
    exact hw.of_settled hj hphase (settle_settled (s := ⟨w.db, [], faults⟩) rfl hok.2)
  | replaying id =>
    simp only [CallOk, hphase] at hok
    simp only [nextPhase, hphase]
    refine hw.set_phase hj ?_ (fun hh => by cases hh) ?_
    · cases ha : replayAnswer c.env c.command id w.db with
      | error e => trivial
      | ok r =>
        obtain ⟨hid, hkey, hstate, _, hsteps⟩ := replayAnswer_eq_ok ha
        refine ⟨hok.1, fun hk => ⟨hkey.trans hk, hstate, hid ▸ hok.2 hk, ?_⟩⟩
        obtain ⟨rs, hrs⟩ := hw.readable _ _ (hok.2 hk)
        exact ⟨hid ▸ hrs.1, hid ▸ hsteps⟩
    · rintro r ⟨hp, hreplay⟩
      have ha : replayAnswer c.env c.command id w.db = .ok r := by
        injection hp
      rw [(replayAnswer_eq_ok ha).2.2.2.1] at hreplay
      cases hreplay
  | ended r =>
    simp only [nextPhase, hphase]
    rw [← hphase]
    exact hsame (by simp [Call.holdsRecord, hphase])
  | crashed =>
    simp only [nextPhase, hphase]
    rw [← hphase]
    exact hsame (by simp [Call.holdsRecord, hphase])

theorem Inv.of_perform (hw : Inv ext k w) (a : Action) : Inv ext k (perform ext a w) := by
  rcases perform_cases ext a w with ⟨env, command, _, he⟩ | he | ⟨j, c, _, hj, he⟩ | ⟨j, c, _, hj, he⟩
  · obtain ⟨hok, hhold, hcommit⟩ := @begin_ok ext k env command w.db
    rw [he]
    exact hw.append hok hhold hcommit
  · rw [he]
    exact hw
  · obtain ⟨hok, hhold, hcommit⟩ := crashedPhase_ok (hw.calls j c hj)
    rw [he]
    exact hw.set_phase hj hok (fun hh => by rw [hhold] at hh; cases hh) hcommit
  · rw [he]
    exact hw.advance hj

theorem Inv.of_run (hw : Inv ext k w) (as : List Action) : Inv ext k (run ext as w) := by
  induction as generalizing w with
  | nil => exact hw
  | cons a as ih => exact ih (hw.of_perform a)

theorem Inv.initial {db : Db} (hrefs : References db)
    (hfresh : db.idempotencyRecord.find? k = none) : Inv ext k ⟨db, []⟩ where
  references := hrefs
  batches := by
    intro b hb hkey _
    obtain ⟨r, hr⟩ := hrefs.batchRecord b hb
    rw [hkey, hfresh] at hr
    cases hr
  readable := by
    rintro fp id ⟨r, hr, _⟩
    rw [hfresh] at hr
    cases hr
  calls := by
    intro j c hc
    cases hc
  exclusive := by
    intro i j c c' hc
    cases hc
  once := by
    intro i j c c' r r' hc
    cases hc

end Preservation

end EveTrade.SettlementIdempotencyInvariant
