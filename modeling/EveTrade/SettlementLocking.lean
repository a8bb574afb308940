import EveTrade.SettlementIdempotency
import EveTrade.SettlementTradeLocks

set_option autoImplicit false

/-!
# Settlement calls behind their advisory locks

Before a call looks up the record of its key it takes the advisory locks of its trades, one after
the other, and it holds them until its transaction commits or is rolled back. A call that finds a
lock taken waits. Without the locks these are the calls of `SettlementInterleaving`.
-/
namespace EveTrade.SettlementLocking

open KeyedTable TransactionMonad UuidText SettlementTypes SettlementCommands SettlementSchema
  SettlementStatements SettlementPlan SettlementExecutor SettlementOutcome SettlementRecords
  SettlementStability SettlementInterleaving SettlementIdempotencyInvariant SettlementIdempotency
  SettlementTradeLocks TradeCalls

/-- A call, and the advisory locks it has still to take. -/
structure LockingCall where
  call : Call
  wanted : List Uuid

structure LockingWorld where
  db : Db
  calls : List LockingCall

def inTransaction : Phase → Bool
  | .started => true
  | .looked _ _ => true
  | _ => false

namespace LockingCall

def holds (id : Uuid) (l : LockingCall) : Bool :=
  inTransaction l.call.phase && decide (id ∈ advisoryLockIds l.call.command ∧ id ∉ l.wanted)

def running (l : LockingCall) : Bool := inTransaction l.call.phase && l.wanted.isEmpty

def withPhase (p : Phase) (l : LockingCall) : LockingCall := { l with call := l.call.withPhase p }

end LockingCall

def LockingWorld.forget (w : LockingWorld) : World := ⟨w.db, w.calls.map fun l => l.call⟩

section Steps

variable (ext : External)

def proceed (j : ℕ) (l : LockingCall) (w : LockingWorld) : LockingWorld :=
  let r := nextPhase ext l.call (w.forget.calls.any (Call.locks l.call.key)) w.db
  ⟨r.2, w.calls.set j (l.withPhase r.1)⟩

def advanceLocked (j : ℕ) (l : LockingCall) (w : LockingWorld) : LockingWorld :=
  match l.call.phase, l.wanted with
  | .started, id :: rest =>
    if w.calls.any (LockingCall.holds id) then w
    else { w with calls := w.calls.set j { l with wanted := rest } }
  | _, _ => proceed ext j l w

def performLocked (a : Action) (w : LockingWorld) : LockingWorld :=
  match a with
  | .start env command =>
    { w with calls := w.calls ++ [⟨begin ext env command, advisoryLockIds command⟩] }
  | .advance j =>
    match w.calls[j]? with
    | none => w
    | some l => advanceLocked ext j l w
  | .crash j =>
    match w.calls[j]? with
    | none => w
    | some l => { w with calls := w.calls.set j (l.withPhase (crashedPhase l.call.phase)) }

def runLocked : List Action → LockingWorld → LockingWorld
  | [], w => w
  | a :: as, w => runLocked as (performLocked ext a w)

/-- What an action can do. -/
inductive LockedStep (a : Action) (w : LockingWorld) : LockingWorld → Prop
  | same : LockedStep a w w
  | started (env : ExecEnv) (command : ExecuteBatchCommand) (action : a = .start env command) :
      LockedStep a w ⟨w.db, w.calls ++ [⟨begin ext env command, advisoryLockIds command⟩]⟩
  | acquired (j : ℕ) (l : LockingCall) (id : Uuid) (rest : List Uuid) (found : w.calls[j]? = some l)
      (waiting : l.call.phase = .started) (next : l.wanted = id :: rest)
      (free : ∀ l' ∈ w.calls, l'.holds id = false) :
      LockedStep a w ⟨w.db, w.calls.set j { l with wanted := rest }⟩
  | proceeded (j : ℕ) (l : LockingCall) (action : a = .advance j) (found : w.calls[j]? = some l)
      (locked : l.call.phase = .started → l.wanted = []) : LockedStep a w (proceed ext j l w)
  | crashed (j : ℕ) (l : LockingCall) (action : a = .crash j) (found : w.calls[j]? = some l) :
      LockedStep a w ⟨w.db, w.calls.set j (l.withPhase (crashedPhase l.call.phase))⟩

theorem performLocked_step (a : Action) (w : LockingWorld) :
    LockedStep ext a w (performLocked ext a w) := by
  cases a with
  | start env command => exact .started env command rfl
  | crash j =>
    cases hj : w.calls[j]? with
    | none =>
      simp only [performLocked, hj]
      exact .same
    | some l =>
      simp only [performLocked, hj]
      exact .crashed j l rfl hj
  | advance j =>
    cases hj : w.calls[j]? with
    | none =>
      simp only [performLocked, hj]
      exact .same
    | some l =>
      simp only [performLocked, hj]
      unfold advanceLocked
      split
      · rename_i id rest hphase hwanted
        split_ifs with hheld
        · exact .same
        · refine .acquired j l id rest hj hphase hwanted fun l' hl' => ?_
          simp only [List.any_eq_true, not_exists, not_and, Bool.not_eq_true] at hheld
          exact hheld l' hl'
      · rename_i hnot
        refine .proceeded j l rfl hj fun hphase => ?_
        cases hwanted : l.wanted with
        | nil => rfl
        | cons id rest => exact (hnot id rest hphase hwanted).elim

variable {ext} {w w' : LockingWorld} {a : Action}

theorem forget_getElem? {j : ℕ} {l : LockingCall} (h : w.calls[j]? = some l) :
    w.forget.calls[j]? = some l.call := by
  simp [LockingWorld.forget, h]

theorem LockedStep.forget (h : LockedStep ext a w w') :
    w'.forget = w.forget ∨ w'.forget = perform ext a w.forget := by
  cases h with
  | same => exact .inl rfl
  | started env command action =>
    subst action
    right
    simp [LockingWorld.forget, perform]
  | acquired j l id rest found waiting next free =>
    left
    obtain ⟨hlt, hget⟩ := List.getElem?_eq_some_iff.1 (forget_getElem? found)
    have hself : w.forget.calls.set j l.call = w.forget.calls := by
      rw [← hget]
      exact List.set_getElem_self hlt
    simp only [LockingWorld.forget, List.map_set] at hself ⊢
    rw [hself]
  | proceeded j l action found locked =>
    subst action
    right
    rw [perform_advance (forget_getElem? found)]
    simp only [proceed, LockingWorld.forget, List.map_set]
    rfl
  | crashed j l action found =>
    subst action
    right
    have hcrash : perform ext (.crash j) w.forget = ⟨w.forget.db,
        w.forget.calls.set j (l.call.withPhase (crashedPhase l.call.phase))⟩ := by
      simp [perform, forget_getElem? found]
    rw [hcrash]
    simp only [LockingWorld.forget, List.map_set]
    rfl

theorem LockedStep.inv {k : String} (h : LockedStep ext a w w') (hw : Inv ext k w.forget) :
    Inv ext k w'.forget := by
  rcases h.forget with hsame | hstep
  · rw [hsame]
    exact hw
  · rw [hstep]
    exact hw.of_perform a

end Steps

section Exclusion

variable {ext : External} {w w' : LockingWorld} {a : Action}

def LocksExclusive (w : LockingWorld) : Prop :=
  ∀ (i j : ℕ) (l l' : LockingCall) (id : Uuid), w.calls[i]? = some l → w.calls[j]? = some l' →
    i ≠ j → l.holds id = true → l'.holds id = false

theorem holds_iff {id : Uuid} {l : LockingCall} :
    l.holds id = true ↔ inTransaction l.call.phase = true ∧
      id ∈ advisoryLockIds l.call.command ∧ id ∉ l.wanted := by
  simp [LockingCall.holds]

theorem holds_begin (env : ExecEnv) (command : ExecuteBatchCommand) (id : Uuid) :
    LockingCall.holds id ⟨begin ext env command, advisoryLockIds command⟩ = false := by
  rw [← Bool.not_eq_true, holds_iff]
  rintro ⟨_, hmem, hnot⟩
  exact hnot hmem

theorem nextPhase_inTransaction {c : Call} {locked : Bool} {db : Db}
    (h : inTransaction (nextPhase ext c locked db).1 = true) : inTransaction c.phase = true := by
  cases hphase : c.phase with
  | started => rfl
  | looked existing faults => rfl
  | replaying id =>
    simp only [nextPhase, hphase] at h
    cases h
  | ended r =>
    simp only [nextPhase, hphase] at h
    cases h
  | crashed =>
    simp only [nextPhase, hphase] at h
    cases h

theorem crashedPhase_inTransaction (p : Phase) : inTransaction (crashedPhase p) = false := by
  cases p <;> rfl

theorem LocksExclusive.set (hw : LocksExclusive w) {j : ℕ} {l l₁ : LockingCall}
    (found : w.calls[j]? = some l)
    (holds : ∀ id, l₁.holds id = true → l.holds id = true ∨ ∀ l' ∈ w.calls, l'.holds id = false)
    (db' : Db) : LocksExclusive ⟨db', w.calls.set j l₁⟩ := by
  have other : ∀ (i : ℕ) (l' : LockingCall) (id : Uuid), i ≠ j → w.calls[i]? = some l' →
      l₁.holds id = true → l'.holds id = false := by
    intro i l' id hij hi hid
    rcases holds id hid with hold | hfree
    · exact hw j i l l' id found hi (Ne.symm hij) hold
    · exact hfree l' (List.mem_of_getElem? hi)
  intro i i' d d' id hd hd' hne hid
  rcases getElem?_set_cases hd with ⟨rfl, rfl⟩ | ⟨hij, hold⟩
  · rcases getElem?_set_cases hd' with ⟨rfl, _⟩ | ⟨hij', hd'⟩
    · exact absurd rfl hne
    · exact other i' d' id hij' hd' hid
  · rcases getElem?_set_cases hd' with ⟨rfl, rfl⟩ | ⟨_, hd'⟩
    · by_contra hheld
      rw [Bool.not_eq_false] at hheld
      rw [other i d id hij hold hheld] at hid
      cases hid
    · exact hw i i' d d' id hold hd' hne hid

theorem LocksExclusive.append (hw : LocksExclusive w) (env : ExecEnv) (command : ExecuteBatchCommand) :
    LocksExclusive ⟨w.db, w.calls ++ [⟨begin ext env command, advisoryLockIds command⟩]⟩ := by
  intro i j l l' id hi hj hne hid
  rcases getElem?_concat_cases hi with hi | ⟨_, rfl⟩
  · rcases getElem?_concat_cases hj with hj | ⟨_, rfl⟩
    · exact hw i j l l' id hi hj hne hid
    · exact holds_begin env command id
  · rw [holds_begin] at hid
    cases hid

theorem LockedStep.locksExclusive (h : LockedStep ext a w w') (hw : LocksExclusive w) :
    LocksExclusive w' := by
  cases h with
  | same => exact hw
  | started env command action => exact hw.append env command
  | acquired j l id rest found waiting next free =>
    refine hw.set found (fun id' hid' => ?_) _
    obtain ⟨htransaction, hmem, hrest⟩ := holds_iff.1 hid'
    by_cases hid : id' = id
    · subst hid
      exact .inr free
    · refine .inl (holds_iff.2 ⟨htransaction, hmem, ?_⟩)
      rw [next]
      exact fun hwanted => (List.mem_cons.1 hwanted).elim hid hrest
  | proceeded j l action found locked =>
    refine hw.set found (fun id hid => ?_) _
    obtain ⟨htransaction, hmem, hwanted⟩ := holds_iff.1 hid
    exact .inl (holds_iff.2 ⟨nextPhase_inTransaction htransaction, hmem, hwanted⟩)
  | crashed j l action found =>
    refine hw.set found (fun id hid => ?_) _
    have htransaction : inTransaction (crashedPhase l.call.phase) = true := (holds_iff.1 hid).1
    rw [crashedPhase_inTransaction] at htransaction
    cases htransaction

theorem LocksExclusive.of_run (hw : LocksExclusive w) (as : List Action) :
    LocksExclusive (runLocked ext as w) := by
  induction as generalizing w with
  | nil => exact hw
  | cons a as ih => exact ih ((performLocked_step ext a w).locksExclusive hw)

theorem running_holds {l : LockingCall} {trade : Uuid} (hrunning : l.running = true)
    (hmem : trade ∈ advisoryLockIds l.call.command) : l.holds trade = true := by
  simp only [LockingCall.running, Bool.and_eq_true, List.isEmpty_iff] at hrunning
  rw [holds_iff, hrunning.2]
  exact ⟨hrunning.1, hmem, List.not_mem_nil⟩

end Exclusion

section Invariant

variable (ext : External) (k : String)

/-- What the locks give in every world the calls can reach, seen from one key that was unused. -/
structure LockInv (w : LockingWorld) : Prop where
  base : Inv ext k w.forget
  looked : ∀ l ∈ w.calls, ∀ existing faults, l.call.phase = .looked existing faults →
    l.wanted = [] ∧ (CleanEnv l.call.env → ∀ f ∈ faults, f = none)
  exclusive : LocksExclusive w
  /-- A call that found no record shares no lock with the call that has committed the key. -/
  unseen : ∀ (i j : ℕ) (l l' : LockingCall) (r : BatchExecutionResult) (faults : List (Option DbError)),
    w.calls[i]? = some l → w.calls[j]? = some l' → l.call.Committed r → l.call.key = k →
    l'.call.phase = .looked none faults → l'.call.key = k →
    ∀ id ∈ advisoryLockIds l.call.command, id ∉ advisoryLockIds l'.call.command

variable {ext k} {w w' : LockingWorld} {a : Action}

theorem LockInv.initial {db : Db} (hrefs : References db)
    (hfresh : db.idempotencyRecord.find? k = none) : LockInv ext k ⟨db, []⟩ where
  base := Inv.initial hrefs hfresh
  looked := by simp
  exclusive := by simp [LocksExclusive]
  unseen := by simp

theorem nextPhase_looked {c : Call} {locked : Bool} {db : Db}
    {existing : Option IdempotencyRecordRow} {faults : List (Option DbError)}
    (h : (nextPhase ext c locked db).1 = .looked existing faults) :
    c.phase = .started ∧ existing = db.idempotencyRecord.find? c.key ∧
      (CleanEnv c.env → ∀ f ∈ faults, f = none) := by
  cases hphase : c.phase with
  | started =>
    simp only [nextPhase, hphase] at h
    split_ifs at h with hlocked
    cases hl : lookup c.command ⟨db, [], c.env.faults⟩ with
    | error e =>
      rw [hl] at h
      cases h
    | ok p =>
      obtain ⟨found, s⟩ := p
      rw [hl] at h
      obtain ⟨rfl, rfl⟩ := Phase.looked.inj h
      refine ⟨rfl, (lookup_eq_ok hl).2.2, fun hclean => ?_⟩
      obtain ⟨_, s', hl', hs', _⟩ := lookup_succeeds c.command ⟨db, [], c.env.faults⟩ hclean.1
      rw [hl] at hl'
      obtain ⟨_, rfl⟩ := Prod.mk.inj (Except.ok.inj hl')
      exact hs'
  | looked seen faults' =>
    simp only [nextPhase, hphase] at h
    cases hsettle : (settle ext c.env c.command (buildRequestFingerprint ext c.command) seen
      ⟨db, [], faults'⟩).1 with
    | answered r =>
      rw [hsettle] at h
      cases h
    | replaying id =>
      rw [hsettle] at h
      cases h
  | replaying id =>
    simp only [nextPhase, hphase] at h
    cases h
  | ended r =>
    simp only [nextPhase, hphase] at h
    cases h
  | crashed =>
    simp only [nextPhase, hphase] at h
    cases h

theorem nextPhase_committed {c : Call} {locked : Bool} {db : Db} {r : BatchExecutionResult}
    (h : (c.withPhase (nextPhase ext c locked db).1).Committed r) :
    c.Committed r ∨ ∃ existing faults, c.phase = .looked existing faults := by
  obtain ⟨hended, hfresh⟩ := h
  change (nextPhase ext c locked db).1 = _ at hended
  cases hphase : c.phase with
  | started =>
    simp only [nextPhase, hphase] at hended
    split_ifs at hended
    split at hended
    · cases hended
    · cases hended
  | looked existing faults => exact .inr ⟨existing, faults, rfl⟩
  | replaying id =>
    simp only [nextPhase, hphase] at hended
    rw [(replayAnswer_eq_ok (Phase.ended.inj hended)).2.2.2.1] at hfresh
    cases hfresh
  | ended answer =>
    simp only [nextPhase, hphase] at hended
    exact .inl ⟨hphase.trans hended, hfresh⟩
  | crashed =>
    simp only [nextPhase, hphase] at hended
    cases hended

theorem LockInv.of_set (hw : LockInv ext k w) {j : ℕ} {l₁ : LockingCall} {db' : Db}
    (base : Inv ext k (LockingWorld.forget ⟨db', w.calls.set j l₁⟩))
    (exclusive : LocksExclusive ⟨db', w.calls.set j l₁⟩)
    (looked : ∀ existing faults, l₁.call.phase = .looked existing faults →
      l₁.wanted = [] ∧ (CleanEnv l₁.call.env → ∀ f ∈ faults, f = none))
    (commits : ∀ r, l₁.call.Committed r → l₁.call.key = k → ∀ (i : ℕ) (l' : LockingCall)
      (faults : List (Option DbError)), i ≠ j → w.calls[i]? = some l' →
      l'.call.phase = .looked none faults → l'.call.key = k →
      ∀ id ∈ advisoryLockIds l₁.call.command, id ∉ advisoryLockIds l'.call.command)
    (looks : ∀ faults, l₁.call.phase = .looked none faults → l₁.call.key = k →
      ∀ (i : ℕ) (l' : LockingCall) (r : BatchExecutionResult), i ≠ j → w.calls[i]? = some l' →
      l'.call.Committed r → l'.call.key = k →
      ∀ id ∈ advisoryLockIds l'.call.command, id ∉ advisoryLockIds l₁.call.command) :
    LockInv ext k ⟨db', w.calls.set j l₁⟩ where
  base := base
  looked := by
    intro l' hl' existing faults hphase
    rcases List.mem_or_eq_of_mem_set hl' with hold | rfl
    · exact hw.looked l' hold existing faults hphase
    · exact looked existing faults hphase
  exclusive := exclusive
  unseen := by
    intro i i' d d' r faults hd hd' hcommitted hkey hphase hkey'
    rcases getElem?_set_cases hd with ⟨rfl, rfl⟩ | ⟨hij, hold⟩
    · rcases getElem?_set_cases hd' with ⟨_, rfl⟩ | ⟨hij', hd'⟩
      · rw [hcommitted.1] at hphase
        cases hphase
      · exact commits r hcommitted hkey i' d' faults hij' hd' hphase hkey'
    · rcases getElem?_set_cases hd' with ⟨rfl, rfl⟩ | ⟨_, hd'⟩
      · exact looks faults hphase hkey' i d r hij hold hcommitted hkey
      · exact hw.unseen i i' d d' r faults hold hd' hcommitted hkey hphase hkey'

theorem LockInv.of_started (hw : LockInv ext k w) (env : ExecEnv) (command : ExecuteBatchCommand)
    (base : Inv ext k (LockingWorld.forget
      ⟨w.db, w.calls ++ [⟨begin ext env command, advisoryLockIds command⟩]⟩)) :
    LockInv ext k ⟨w.db, w.calls ++ [⟨begin ext env command, advisoryLockIds command⟩]⟩ where
  base := base
  looked := by
    intro l hl existing faults hphase
    rcases List.mem_append.1 hl with hl | hl
    · exact hw.looked l hl existing faults hphase
    · obtain rfl := List.mem_singleton.1 hl
      unfold begin at hphase
      dsimp only at hphase
      split at hphase
      · cases hphase
      · cases hphase
  exclusive := hw.exclusive.append env command
  unseen := by
    obtain ⟨_, hholds, hcommit⟩ := @begin_ok ext k env command w.db
    intro i j l l' r faults hi hj hcommitted hkey hphase hkey'
    rcases getElem?_concat_cases hi with hi | ⟨_, rfl⟩
    · rcases getElem?_concat_cases hj with hj | ⟨_, rfl⟩
      · exact hw.unseen i j l l' r faults hi hj hcommitted hkey hphase hkey'
      · unfold begin at hphase
        dsimp only at hphase
        split at hphase
        · cases hphase
        · cases hphase
    · exact absurd hcommitted (hcommit r)

theorem LockInv.of_proceeded (hw : LockInv ext k w) {j : ℕ} {l : LockingCall}
    (found : w.calls[j]? = some l) (locked : l.call.phase = .started → l.wanted = [])
    (base : Inv ext k (proceed ext j l w).forget) (exclusive : LocksExclusive (proceed ext j l w)) :
    LockInv ext k (proceed ext j l w) := by
  refine hw.of_set base exclusive ?_ ?_ ?_
  · intro existing faults hphase
    obtain ⟨hstarted, _, hclean⟩ := nextPhase_looked hphase
    exact ⟨locked hstarted, hclean⟩
  · intro r hcommitted hkey i l' faults hij hi hphase hkey' id hid hid'
    rcases nextPhase_committed hcommitted with hbefore | ⟨existing, seen, hlooked⟩
    · exact hw.unseen j i l l' r faults found hi hbefore hkey hphase hkey' id hid hid'
    · -- Both calls are past their locks, and share one.
      have hwanted := (hw.looked l (List.mem_of_getElem? found) existing seen hlooked).1
      have hwanted' := (hw.looked l' (List.mem_of_getElem? hi) none faults hphase).1
      have hholds : l.holds id = true := by
        rw [holds_iff, hlooked, hwanted]
        exact ⟨rfl, hid, List.not_mem_nil⟩
      have hholds' : l'.holds id = true := by
        rw [holds_iff, hphase, hwanted']
        exact ⟨rfl, hid', List.not_mem_nil⟩
      rw [hw.exclusive j i l l' id found hi (Ne.symm hij) hholds] at hholds'
      cases hholds'
  · intro faults hphase hkey i l' r hij hi hcommitted hkey'
    obtain ⟨_, hnone, _⟩ := nextPhase_looked hphase
    obtain ⟨_, _, _, ⟨q, hq, _⟩, _⟩ := inv_committed hw.base (forget_getElem? hi) hkey' hcommitted
    change none = w.db.idempotencyRecord.find? l.call.key at hnone
    rw [show l.call.key = k from hkey] at hnone
    exact absurd (hnone.trans hq) (by simp)

theorem LockedStep.lockInv (h : LockedStep ext a w w') (hw : LockInv ext k w) :
    LockInv ext k w' := by
  have base := h.inv hw.base
  have exclusive := h.locksExclusive hw.exclusive
  cases h with
  | same => exact hw
  | started env command action => exact hw.of_started env command base
  | proceeded j l action found locked => exact hw.of_proceeded found locked base exclusive
  | acquired j l id rest found waiting next free =>
    refine hw.of_set base exclusive ?_ ?_ ?_
    · intro existing faults hphase
      rw [show l.call.phase = .started from waiting] at hphase
      cases hphase
    · intro r hcommitted
      have hended : l.call.phase = .ended (.ok r) := hcommitted.1
      rw [waiting] at hended
      cases hended
    · intro faults hphase
      rw [show l.call.phase = .started from waiting] at hphase
      cases hphase
  | crashed j l action found =>
    have hphase := crashedPhase_inTransaction l.call.phase
    refine hw.of_set base exclusive ?_ ?_ ?_
    · intro existing faults hlooked
      change crashedPhase l.call.phase = _ at hlooked
      rw [hlooked] at hphase
      cases hphase
    · intro r hcommitted hkey i l' faults hij hi
      have hok := hw.base.calls j l.call (forget_getElem? found)
      exact hw.unseen j i l l' r faults found hi ((crashedPhase_ok hok).2.2 r hcommitted) hkey
    · intro faults hlooked
      change crashedPhase l.call.phase = _ at hlooked
      rw [hlooked] at hphase
      cases hphase

theorem LockInv.of_run (hw : LockInv ext k w) (as : List Action) :
    LockInv ext k (runLocked ext as w) := by
  induction as generalizing w with
  | nil => exact hw
  | cons a as ih => exact ih ((performLocked_step ext a w).lockInv hw)

end Invariant

section Replays

variable {ext : External} {k : String} {i j : ℕ} {c : Call} {r : BatchExecutionResult}
  {env : ExecEnv} {command : ExecuteBatchCommand} {w w' : LockingWorld} {a : Action}

/-- What is asked of a second call of a key for the plan that another call has committed. -/
structure DuplicateOf (ext : External) (k : String) (c : Call) (env : ExecEnv)
    (command : ExecuteBatchCommand) : Prop where
  original : c.key = k
  key : command.idempotencyKey = k
  plan : SamePlan command c.command
  assertion : ∀ a ∈ command.requestFingerprint, a = buildRequestFingerprint ext command
  clean : CleanEnv env
  locks : advisoryLockIds c.command ≠ []

theorem DuplicateOf.fingerprint (h : DuplicateOf ext k c env command) :
    buildRequestFingerprint ext command = buildRequestFingerprint ext c.command := by
  unfold buildRequestFingerprint hashJson
  rw [fingerprintMaterial_eq_of_samePlan h.plan]

theorem DuplicateOf.advisoryLockIds_eq (h : DuplicateOf ext k c env command) :
    advisoryLockIds command = advisoryLockIds c.command := by
  unfold advisoryLockIds
  rw [h.plan.2.2.2]

/-- Call `i` has committed, and call `j`, if it has ended, was answered from its batch. -/
structure AnsweredFrom (ext : External) (k : String) (i j : ℕ) (c : Call) (r : BatchExecutionResult)
    (env : ExecEnv) (command : ExecuteBatchCommand) (w : LockingWorld) : Prop where
  inv : LockInv ext k w
  committed : w.forget.calls[i]? = some c
  duplicate : ∃ d, w.calls[j]? = some d ∧ d.call.env = env ∧ d.call.command = command ∧
    ∀ answer, d.call.phase = .ended answer → answer = .ok { r with idempotentReplay := true }

theorem exists_of_forget (h : w.forget.calls[i]? = some c) :
    ∃ l, w.calls[i]? = some l ∧ l.call = c := by
  simp only [LockingWorld.forget, List.getElem?_map, Option.map_eq_some_iff] at h
  exact h

theorem nextPhase_duplicate (hd : DuplicateOf ext k c env command) (hcommit : c.Committed r)
    (h : LockInv ext k w) (hi : w.forget.calls[i]? = some c) {d : LockingCall}
    (hj : w.calls[j]? = some d) (henv : d.call.env = env) (hcommand : d.call.command = command)
    (answered : ∀ answer, d.call.phase = .ended answer →
      answer = .ok { r with idempotentReplay := true }) {locked : Bool}
    {answer : Except SettlementError BatchExecutionResult}
    (hended : (nextPhase ext d.call locked w.db).1 = .ended answer) :
    answer = .ok { r with idempotentReplay := true } := by
  have hclean : CleanEnv d.call.env := henv ▸ hd.clean
  have hkey : d.call.key = k := by
    unfold Call.key
    rw [hcommand]
    exact hd.key
  have hfp : buildRequestFingerprint ext d.call.command = buildRequestFingerprint ext c.command := by
    rw [hcommand]
    exact hd.fingerprint
  obtain ⟨_, hrkey, hrstate, hcompleted, hreads⟩ := inv_committed h.base hi hd.original hcommit
  have hok := h.base.calls j d.call (forget_getElem? hj)
  cases hphase : d.call.phase with
  | started =>
    simp only [nextPhase, hphase] at hended
    split_ifs at hended
    obtain ⟨existing, s, hlookup, _⟩ :=
      lookup_succeeds d.call.command ⟨w.db, [], d.call.env.faults⟩ hclean.1
    rw [hlookup] at hended
    cases hended
  | looked existing faults =>
    simp only [CallOk, hphase] at hok
    simp only [nextPhase, hphase] at hended
    cases existing with
    | none =>
      obtain ⟨l, hl, rfl⟩ := exists_of_forget hi
      obtain ⟨id, hid⟩ := List.exists_mem_of_ne_nil _ hd.locks
      refine absurd ?_ (h.unseen i j l d r faults hl hj hcommit hd.original hphase hkey id hid)
      rw [hcommand, hd.advisoryLockIds_eq]
      exact hid
    | some q =>
      obtain ⟨q', hq', hstate, hqfp, hid⟩ := hcompleted
      have hq := hok.2 q rfl
      rw [show d.call.key = k from hkey, hq'] at hq
      obtain rfl := Option.some.inj hq
      have hfaults := (h.looked d (List.mem_of_getElem? hj) _ faults hphase).2 hclean
      have hassert : ∀ a ∈ d.call.command.requestFingerprint,
          a = buildRequestFingerprint ext d.call.command := by
        rw [hcommand]
        exact hd.assertion
      have hsession : (⟨w.db, [], faults⟩ : DbSession).Clean := hfaults
      rw [settle_of_completed hsession rfl hstate (hqfp.trans hfp.symm) hid hassert] at hended
      cases hended
  | replaying id =>
    simp only [CallOk, hphase] at hok
    simp only [nextPhase, hphase] at hended
    obtain rfl := (hcompleted.unique (hok.2 hkey)).2
    have hrows : ReadsBack w.db r.settlementBatchId r.stepResults := hreads
    rw [replayAnswer_of_clean hclean hrows] at hended
    rw [← Phase.ended.inj hended]
    have hresult : d.call.command.idempotencyKey = r.idempotencyKey := hkey.trans hrkey.symm
    rw [hresult, ← hrstate]
  | ended answer' =>
    simp only [nextPhase, hphase] at hended
    rw [← Phase.ended.inj hended]
    exact answered answer' hphase
  | crashed =>
    simp only [nextPhase, hphase] at hended
    cases hended

theorem LockedStep.answeredFrom (hd : DuplicateOf ext k c env command) (hcommit : c.Committed r)
    (step : LockedStep ext a w w') (h : AnsweredFrom ext k i j c r env command w) :
    AnsweredFrom ext k i j c r env command w' := by
  have hcommitted : w'.forget.calls[i]? = some c := by
    rcases step.forget with hsame | hstep
    · rw [hsame]
      exact h.committed
    · rw [hstep]
      exact perform_keeps_ended a h.committed hcommit.1
  refine ⟨step.lockInv h.inv, hcommitted, ?_⟩
  obtain ⟨d, hj, henv, hcommand, answered⟩ := h.duplicate
  -- A step of another call leaves this one as it is.
  have hother : ∀ {j' : ℕ} {l₁ : LockingCall}, j' ≠ j → (w.calls.set j' l₁)[j]? = some d := by
    intro j' l₁ hne
    rw [List.getElem?_set_ne hne]
    exact hj
  have hself : ∀ {l₁ : LockingCall}, (w.calls.set j l₁)[j]? = some l₁ := by
    intro l₁
    obtain ⟨hlt, _⟩ := List.getElem?_eq_some_iff.1 hj
    exact List.getElem?_set_self hlt
  cases step with
  | same => exact ⟨d, hj, henv, hcommand, answered⟩
  | started env' command' action =>
    obtain ⟨hlt, _⟩ := List.getElem?_eq_some_iff.1 hj
    exact ⟨d, by rw [List.getElem?_append_left hlt]; exact hj, henv, hcommand, answered⟩
  | acquired j' l id rest found waiting next free =>
    by_cases hjj : j' = j
    · subst hjj
      obtain rfl := Option.some.inj (found.symm.trans hj)
      exact ⟨_, hself, henv, hcommand, answered⟩
    · exact ⟨d, hother hjj, henv, hcommand, answered⟩
  | proceeded j' l action found locked =>
    by_cases hjj : j' = j
    · subst hjj
      obtain rfl := Option.some.inj (found.symm.trans hj)
      refine ⟨_, hself, henv, hcommand, fun answer hended => ?_⟩
      exact nextPhase_duplicate hd hcommit h.inv h.committed hj henv hcommand answered hended
    · exact ⟨d, hother hjj, henv, hcommand, answered⟩
  | crashed j' l action found =>
    by_cases hjj : j' = j
    · subst hjj
      obtain rfl := Option.some.inj (found.symm.trans hj)
      refine ⟨_, hself, henv, hcommand, fun answer hended => ?_⟩
      change crashedPhase l.call.phase = .ended answer at hended
      cases hphase : l.call.phase with
      | ended answer' =>
        rw [hphase] at hended
        rw [← Phase.ended.inj hended]
        exact answered answer' hphase
      | started => rw [hphase] at hended; cases hended
      | looked existing faults => rw [hphase] at hended; cases hended
      | replaying id => rw [hphase] at hended; cases hended
      | crashed => rw [hphase] at hended; cases hended
    · exact ⟨d, hother hjj, henv, hcommand, answered⟩

theorem AnsweredFrom.of_run (hd : DuplicateOf ext k c env command) (hcommit : c.Committed r)
    (h : AnsweredFrom ext k i j c r env command w) (as : List Action) :
    AnsweredFrom ext k i j c r env command (runLocked ext as w) := by
  induction as generalizing w with
  | nil => exact h
  | cons a as ih => exact ih ((performLocked_step ext a w).answeredFrom hd hcommit h)

end Replays

section Serialized

variable {ext : External}

def inProgress : Phase → Bool
  | .ended _ => false
  | .crashed => false
  | _ => true

/-- Batches that can write one trade run one after the other, and a call that waits for another call
of its key and plan is answered from what that call has committed. -/
structure Serialized (ext : External) (unused : String → Prop) (w : LockingWorld) : Prop where
  one_by_one : ∀ (i j : ℕ) (l l' : LockingCall) (trade : Uuid), w.calls[i]? = some l →
    w.calls[j]? = some l' → i ≠ j → CanWrite ext l.call.command trade →
    CanWrite ext l'.call.command trade → l.running = true → l'.running = false
  replays : ∀ (i j : ℕ) (l d : LockingCall) (r : BatchExecutionResult), w.calls[i]? = some l →
    w.calls[j]? = some d → unused l.call.key → l.call.Committed r → d.call.key = l.call.key →
    SamePlan d.call.command l.call.command →
    (∀ a ∈ d.call.command.requestFingerprint, a = buildRequestFingerprint ext d.call.command) →
    CleanEnv d.call.env → inProgress d.call.phase = true →
    ∀ (as : List Action) (d' : LockingCall) (answer : Except SettlementError BatchExecutionResult),
      (runLocked ext as w).calls[j]? = some d' → d'.call.phase = .ended answer →
      answer = .ok { r with idempotentReplay := true }

theorem advisoryLockIds_ne_nil {command : ExecuteBatchCommand}
    (valid : validatePlanSemantics command = .ok ()) (completing : partialAccept command = false) :
    advisoryLockIds command ≠ [] := by
  have hmem : ∃ id, id ∈ advisoryLockIds command := by
    simp only [mem_advisoryLockIds]
    unfold validatePlanSemantics at valid
    split at valid
    · cases valid
    · split at valid
      · obtain ⟨p, hops, _, hid, _⟩ := validateIssue_eq_ok valid
        rw [hops]
        exact ⟨_, _, List.mem_cons_self, hid⟩
      · rename_i hintent
        obtain ⟨p, hops, _⟩ := validateAccept_eq_ok valid
        simp only [partialAccept, hintent, hops, AcceptPlan.any_changesState, decide_true,
          Bool.true_and, Bool.not_eq_false'] at completing
        obtain ⟨s, hs⟩ := Option.isSome_iff_exists.1 completing
        rw [hops]
        exact ⟨s.tradeInstanceId, .modifyTradeInstanceState s, by simp [AcceptPlan.operations, hs],
          rfl⟩
      · obtain ⟨p, hops, _⟩ := validateCancel_eq_ok valid
        rw [hops]
        exact ⟨p.state.tradeInstanceId, .modifyTradeInstanceState p.state,
          by simp [CancelPlan.operations], rfl⟩
      · cases valid
  obtain ⟨id, hid⟩ := hmem
  exact List.ne_nil_of_mem hid

theorem proceed_commands {P : ExecuteBatchCommand → Prop} {a : Action} {w w' : LockingWorld}
    (step : LockedStep ext a w w') (started : ∀ env command, a = .start env command → P command)
    (h : ∀ l ∈ w.calls, P l.call.command) : ∀ l ∈ w'.calls, P l.call.command := by
  have hset : ∀ {j : ℕ} {l l₁ : LockingCall}, w.calls[j]? = some l →
      l₁.call.command = l.call.command → ∀ l' ∈ w.calls.set j l₁, P l'.call.command := by
    intro j l l₁ hj hsame l' hl'
    rcases List.mem_or_eq_of_mem_set hl' with hold | rfl
    · exact h l' hold
    · rw [hsame]
      exact h l (List.mem_of_getElem? hj)
  cases step with
  | same => exact h
  | started env command action =>
    intro l hl
    rcases List.mem_append.1 hl with hl | hl
    · exact h l hl
    · obtain rfl := List.mem_singleton.1 hl
      exact started env command action
  | acquired j l id rest found waiting next free => exact hset found rfl
  | proceeded j l action found locked => exact hset found rfl
  | crashed j l action found => exact hset found rfl

theorem run_commands {P : ExecuteBatchCommand → Prop} (as : List Action) {w : LockingWorld}
    (started : ∀ env command, Action.start env command ∈ as → P command)
    (h : ∀ l ∈ w.calls, P l.call.command) :
    ∀ l ∈ (runLocked ext as w).calls, P l.call.command := by
  induction as generalizing w with
  | nil => exact h
  | cons a as ih =>
    refine ih (fun env command hmem => started env command (List.mem_cons_of_mem a hmem)) ?_
    refine proceed_commands (performLocked_step ext a w) ?_ h
    rintro env command rfl
    exact started env command List.mem_cons_self

theorem serialized_of_run {db : Db} (hrefs : References db) (as : List Action)
    (started : ∀ env command, Action.start env command ∈ as →
      validatePlanSemantics command = .ok () ∧ partialAccept command = false) :
    Serialized ext (fun k => db.idempotencyRecord.find? k = none) (runLocked ext as ⟨db, []⟩) := by
  have hcommands : ∀ l ∈ (runLocked ext as ⟨db, []⟩).calls,
      validatePlanSemantics l.call.command = .ok () ∧ partialAccept l.call.command = false :=
    run_commands as started (by simp)
  have hexclusive : LocksExclusive (runLocked ext as ⟨db, []⟩) :=
    LocksExclusive.of_run (by simp [LocksExclusive]) as
  refine ⟨?_, ?_⟩
  · intro i j l l' trade hi hj hij hwrite hwrite' hrunning
    obtain ⟨hvalid, hcompleting⟩ := hcommands l (List.mem_of_getElem? hi)
    obtain ⟨hvalid', hcompleting'⟩ := hcommands l' (List.mem_of_getElem? hj)
    have hholds := running_holds hrunning (covered_of_completing hvalid hcompleting trade hwrite)
    by_contra hrunning'
    rw [Bool.not_eq_false] at hrunning'
    have hholds' := running_holds hrunning' (covered_of_completing hvalid' hcompleting' trade hwrite')
    rw [hexclusive i j l l' trade hi hj hij hholds] at hholds'
    cases hholds'
  · intro i j l d r hi hj hfresh hcommit hkey hplan hassert hclean hprogress as' d' answer hd' hended
    have hinv : LockInv ext l.call.key (runLocked ext as ⟨db, []⟩) :=
      (LockInv.initial hrefs hfresh).of_run as
    obtain ⟨hvalid, hcompleting⟩ := hcommands l (List.mem_of_getElem? hi)
    have hd : DuplicateOf ext l.call.key l.call d.call.env d.call.command :=
      ⟨rfl, hkey, hplan, hassert, hclean, advisoryLockIds_ne_nil hvalid hcompleting⟩
    have hstart : AnsweredFrom ext l.call.key i j l.call r d.call.env d.call.command
        (runLocked ext as ⟨db, []⟩) := by
      refine ⟨hinv, forget_getElem? hi, d, hj, rfl, rfl, fun answer hended => ?_⟩
      rw [hended] at hprogress
      cases hprogress
    obtain ⟨e, he, _, _, hanswer⟩ := (hstart.of_run hd hcommit as').duplicate
    rw [hd'] at he
    obtain rfl := Option.some.inj he
    exact hanswer answer hended

end Serialized

section Race

variable {ext : External} {env env' : ExecEnv} {command : ExecuteBatchCommand} {db : Db}

def pair (env env' : ExecEnv) (command : ExecuteBatchCommand) (p q : Phase) (db : Db) :
    LockingWorld :=
  ⟨db, [⟨⟨env, command, p⟩, []⟩, ⟨⟨env', command, q⟩, []⟩]⟩

theorem performLocked_advance {w : LockingWorld} {j : ℕ} {l : LockingCall}
    (found : w.calls[j]? = some l) (free : l.wanted = []) :
    performLocked ext (.advance j) w = proceed ext j l w := by
  simp only [performLocked, found]
  unfold advanceLocked
  split
  · rename_i id rest _ hwanted
    rw [free] at hwanted
    cases hwanted
  · rfl

theorem advance_first (p q : Phase) (locked : Bool)
    (hlocked : (pair env env' command p q db).forget.calls.any
      (Call.locks command.idempotencyKey) = locked) :
    performLocked ext (.advance 0) (pair env env' command p q db) =
      pair env env' command (nextPhase ext ⟨env, command, p⟩ locked db).1 q
        (nextPhase ext ⟨env, command, p⟩ locked db).2 := by
  rw [performLocked_advance (w := pair env env' command p q db) rfl rfl]
  subst hlocked
  rfl

theorem advance_second (p q : Phase) (locked : Bool)
    (hlocked : (pair env env' command p q db).forget.calls.any
      (Call.locks command.idempotencyKey) = locked) :
    performLocked ext (.advance 1) (pair env env' command p q db) =
      pair env env' command p (nextPhase ext ⟨env', command, q⟩ locked db).1
        (nextPhase ext ⟨env', command, q⟩ locked db).2 := by
  rw [performLocked_advance (w := pair env env' command p q db) rfl rfl]
  subst hlocked
  rfl

def raceSchedule (env env' : ExecEnv) (command : ExecuteBatchCommand) : List Action :=
  [.start env command, .start env' command, .advance 0, .advance 1, .advance 0, .advance 1]

theorem nextPhase_started {existing : Option IdempotencyRecordRow} {s : DbSession}
    (h : lookup command ⟨db, [], env.faults⟩ = .ok (existing, s)) :
    nextPhase ext ⟨env, command, .started⟩ false db = (.looked existing s.faults, db) := by
  simp only [nextPhase, Bool.false_eq_true, if_false, h]

theorem settle_of_unseen {r : IdempotencyRecordRow} {s : DbSession} (hs : s.Clean)
    (hassert : ∀ a ∈ command.requestFingerprint, a = buildRequestFingerprint ext command)
    (hfound : s.data.idempotencyRecord.find? command.idempotencyKey = some r) :
    settle ext env command (buildRequestFingerprint ext command) none s =
      (.answered (.error (.database (.uniqueViolation "idempotency_record_pkey"))), s.data) := by
  have hinsert : insertIdempotencyRecord command.idempotencyKey (buildRequestFingerprint ext command)
      command.createdByService s =
        .error (.database (.uniqueViolation "idempotency_record_pkey")) := by
    have hrow : s.data.idempotencyRecord.insert? (newIdempotencyRecord command.idempotencyKey
        (buildRequestFingerprint ext command) command.createdByService) = none := by
      rw [Option.eq_none_iff_forall_ne_some]
      intro records hrecords
      have habsent := (Table.insert?_eq_some_iff.1 hrecords).1
      change s.data.idempotencyRecord.find? command.idempotencyKey = none at habsent
      rw [hfound] at habsent
      cases habsent
    unfold insertIdempotencyRecord executeDb Tx.statement
    rw [hs.nextFault]
    dsimp only
    simp only [insertRow, hrow]
    rfl
  have hresolve : resolveIdempotency command (buildRequestFingerprint ext command) none s =
      .error (.database (.uniqueViolation "idempotency_record_pkey")) := by
    refine Tx.bind_eq_error.2 (.inr ⟨(), s, Tx.ensure_eq_ok.2 ⟨hassert, rfl⟩, ?_⟩)
    exact Tx.bind_eq_error.2 (.inl hinsert)
  unfold settle
  rw [hresolve]

theorem settled_ne_looked (settlement : Settlement) (r : IdempotencyRecordRow)
    (faults : List (Option DbError)) : afterSettle settlement ≠ .looked (some r) faults := by
  cases settlement <;> simp [afterSettle]

theorem pair_unlocked {p q : Phase} (hp : ∀ r faults, p ≠ .looked (some r) faults)
    (hq : ∀ r faults, q ≠ .looked (some r) faults) :
    (pair env env' command p q db).forget.calls.any (Call.locks command.idempotencyKey) = false := by
  have hholds : ∀ {e : ExecEnv} {p : Phase}, (∀ r faults, p ≠ .looked (some r) faults) →
      Call.holdsRecord ⟨e, command, p⟩ = false := by
    intro e p hp
    unfold Call.holdsRecord
    split
    · rename_i r faults heq
      exact absurd heq (hp r faults)
    · rfl
  simp [pair, LockingWorld.forget, Call.locks, hholds hp, hholds hq]

/-- Two first executions of a command without locks may both find no record. The second then ends
with an error of the database, though the first has committed. -/
theorem race_ends_in_error (unlocked : advisoryLockIds command = [])
    (hfresh : db.idempotencyRecord.find? command.idempotencyKey = none)
    (committed : commits (executeBatch ext env command db).1 = true) (clean : CleanEnv env') :
    ∃ r, r.idempotentReplay = false ∧
      (runLocked ext (raceSchedule env env' command) ⟨db, []⟩).calls.map (fun l => l.call.phase) =
        [.ended (.ok r),
          .ended (.error (.database (.uniqueViolation "idempotency_record_pkey")))] := by
  cases hprepare : prepare ext command with
  | error e =>
    simp only [executeBatch, hprepare] at committed
    cases committed
  | ok fp =>
    obtain ⟨rfl, _⟩ := prepare_eq_ok hprepare
    simp only [executeBatch, hprepare] at committed
    cases hlookup : lookup command ⟨db, [], env.faults⟩ with
    | error e =>
      rw [hlookup] at committed
      cases committed
    | ok p =>
      obtain ⟨existing, s⟩ := p
      obtain ⟨hdata, hdeferred, hexisting⟩ := lookup_eq_ok hlookup
      obtain ⟨existing', s', hlookup', hclean', _⟩ :=
        lookup_succeeds command ⟨db, [], env'.faults⟩ clean.1
      obtain ⟨_, _, hexisting'⟩ := lookup_eq_ok hlookup'
      obtain rfl : existing = none := hexisting.trans hfresh
      obtain rfl : existing' = none := hexisting'.trans hfresh
      have hsession : s = ⟨db, [], s.faults⟩ := by
        obtain ⟨d, f, g⟩ := s
        obtain rfl : d = db := hdata
        obtain rfl : f = [] := hdeferred
        rfl
      rw [hlookup] at committed
      change commits (finishReplay env command (settle ext env command _ none s)).1 = true at committed
      rw [hsession] at committed
      have hsettled := @settle_settled ext env command (buildRequestFingerprint ext command) none
        ⟨db, [], s.faults⟩ rfl (by simp)
      have hstart : runLocked ext [.start env command, .start env' command] ⟨db, []⟩ =
          pair env env' command .started .started db := by
        simp only [runLocked, performLocked, begin, hprepare, unlocked, pair]
        rfl
      have hfirst : performLocked ext (.advance 0) (pair env env' command .started .started db) =
          pair env env' command (.looked none s.faults) .started db := by
        rw [advance_first _ _ false (pair_unlocked (by simp) (by simp)), nextPhase_started hlookup]
      have hsecond : performLocked ext (.advance 1)
          (pair env env' command (.looked none s.faults) .started db) =
            pair env env' command (.looked none s.faults) (.looked none s'.faults) db := by
        rw [advance_second _ _ false (pair_unlocked (by simp) (by simp)), nextPhase_started hlookup']
      have hrun : runLocked ext (raceSchedule env env' command) ⟨db, []⟩ =
          performLocked ext (.advance 1) (performLocked ext (.advance 0)
            (pair env env' command (.looked none s.faults) (.looked none s'.faults) db)) := by
        rw [← hsecond, ← hfirst, ← hstart]
        rfl
      rw [hrun, advance_first _ _ false (pair_unlocked (by simp) (by simp)),
        advance_second _ _ false (pair_unlocked (by simp [nextPhase, settled_ne_looked])
          (by simp))]
      simp only [nextPhase]
      generalize settle ext env command (buildRequestFingerprint ext command) none
        ⟨db, [], s.faults⟩ = out at committed hsettled
      obtain ⟨settlement, db₁⟩ := out
      dsimp only at committed hsettled ⊢
      cases hsettled with
      | refused e => cases committed
      | failed record number _ opened attempted e audit _ _ => cases committed
      | replaying q batchId seen _ _ _ _ => cases seen
      | completed record number _ opened checks outputs _ _ audit _ =>
        have hfound : db₁.idempotencyRecord.find? command.idempotencyKey =
            some (recordCompleted env.settlementBatchId record) := by
          rw [Table.find?_put audit.record, if_pos]
          exact opened.record.key
        have hunseen := @settle_of_unseen ext env' command _ ⟨db₁, [], s'.faults⟩ hclean'
          opened.assertion hfound
        rw [hunseen]
        exact ⟨_, rfl, rfl⟩

end Race

section Claim

/-- The locks cover the trades a batch can write, unless it is an acceptance without completion,
which takes none. Batches that complete run one after the other on a trade, and their duplicates are
answered with the replay; the duplicate of an acceptance without completion may end with an error of
the database. -/
theorem advisory_locks_serialize_iff (ext : External) :
    (∀ command, validatePlanSemantics command = .ok () →
      (∃ env db, commits (executeBatch ext env command db).1 = true) →
      (Covered ext command ↔ partialAccept command = false)) ∧
    (∀ (db : Db) (as : List Action), References db →
      (∀ env command, Action.start env command ∈ as →
        validatePlanSemantics command = .ok () ∧ partialAccept command = false) →
      Serialized ext (fun k => db.idempotencyRecord.find? k = none) (runLocked ext as ⟨db, []⟩)) ∧
    ∀ (env env' : ExecEnv) (command : ExecuteBatchCommand) (db : Db),
      validatePlanSemantics command = .ok () → partialAccept command = true →
      db.idempotencyRecord.find? command.idempotencyKey = none →
      commits (executeBatch ext env command db).1 = true → CleanEnv env' →
      ∃ r, r.idempotentReplay = false ∧
        (runLocked ext (raceSchedule env env' command) ⟨db, []⟩).calls.map (fun l => l.call.phase) =
          [.ended (.ok r),
            .ended (.error (.database (.uniqueViolation "idempotency_record_pkey")))] := by
  refine ⟨?_, ?_, ?_⟩
  · rintro command valid ⟨env, db, committed⟩
    constructor
    · intro covered
      by_contra leftOpen
      rw [Bool.not_eq_false] at leftOpen
      exact partialAccept_uncovered valid leftOpen committed covered
    · exact covered_of_completing valid
  · intro db as hrefs started
    exact serialized_of_run hrefs as started
  · intro env env' command db valid leftOpen hfresh committed clean
    exact race_ends_in_error (partialAccept_unlocked valid leftOpen) hfresh committed clean

end Claim

section Seeded

open EveTrade.LocalDevWorld

def onOffer : Db := runCalls transparent offerOfTen (localDevWorld transparent)

def databaseError : Phase → Bool
  | .ended (.error (.database _)) => true
  | _ => false

def committedBatch : Phase → Bool
  | .ended answer => commits answer
  | _ => false

/-- Two calls take four of them under one key. The first commits, the second ends in an error. -/
theorem acceptFour_races :
    validatePlanSemantics acceptFour = .ok () ∧ advisoryLockIds acceptFour = [] ∧
    onOffer.idempotencyRecord.find? acceptFour.idempotencyKey = none ∧
    (runLocked transparent (raceSchedule (quietEnv 200) (quietEnv 300) acceptFour)
      ⟨onOffer, []⟩).calls.map (fun l => (committedBatch l.call.phase, databaseError l.call.phase)) =
        [(true, false), (false, true)] := by decide +kernel

theorem advisory_locks_serialize_iff_acceptFour :
    ¬ Covered transparent acceptFour ∧
    Serialized transparent (fun k => (localDevWorld transparent).idempotencyRecord.find? k = none)
      (runLocked transparent [.start (quietEnv 100) issueOnce, .start (quietEnv 200) issueOnce]
        ⟨localDevWorld transparent, []⟩) := by
  have hcommits : commits (executeBatch transparent (quietEnv 200) acceptFour onOffer).1 = true := by
    decide +kernel
  obtain ⟨hcovered, hserialized, _⟩ := advisory_locks_serialize_iff transparent
  refine ⟨fun covered => ?_, hserialized _ _ (localDevWorld_references transparent) ?_⟩
  · have hcompleting := (hcovered acceptFour (by decide +kernel) ⟨_, _, hcommits⟩).1 covered
    revert hcompleting
    decide +kernel
  · intro env command hmem
    have hcommand : command = issueOnce := by
      simp only [List.mem_cons, Action.start.injEq, List.not_mem_nil, or_false] at hmem
      rcases hmem with ⟨_, rfl⟩ | ⟨_, rfl⟩ <;> rfl
    subst hcommand
    decide +kernel

end Seeded

end EveTrade.SettlementLocking
