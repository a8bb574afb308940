import EveTrade.SettlementConservation
import EveTrade.SettlementOutcome

set_option autoImplicit false

/-!
# Totals along sequences of calls
-/
namespace EveTrade.SettlementTotals

open SettlementTypes SettlementCommands SettlementSchema SettlementConservation SettlementExecutor
  SettlementOutcome

/-- Both rows hold the same ISK, and the same items of each type at each station. -/
def SameTotals (b b' : Business) : Prop :=
  totalIsk b' = totalIsk b ∧ ∀ itemTypeId stationId,
    totalQuantity b' itemTypeId stationId = totalQuantity b itemTypeId stationId

theorem SameTotals.refl (b : Business) : SameTotals b b := ⟨rfl, fun _ _ => rfl⟩

theorem SameTotals.trans {b₁ b₂ b₃ : Business} (h : SameTotals b₁ b₂) (h' : SameTotals b₂ b₃) :
    SameTotals b₁ b₃ :=
  ⟨h'.1.trans h.1, fun i t => (h'.2 i t).trans (h.2 i t)⟩

theorem StepsRun.sameTotals {ext : External} {env : ExecEnv} {i : ℕ} {cs : List SettlementCommand}
    {b b' : Business} {checks : List DeferredCheck} {os : List OperationOutput}
    (h : StepsRun ext env i cs b b' checks os) : SameTotals b b' := by
  induction h with
  | nil => exact SameTotals.refl _
  | cons effect _ ih =>
    have hstep : SameTotals _ _ := ⟨Effect.totalIsk_eq effect, Effect.totalQuantity_eq effect⟩
    exact hstep.trans ih

theorem executeBatch_sameTotals (ext : External) (env : ExecEnv) (command : ExecuteBatchCommand)
    (db : Db) : SameTotals db.business (executeBatch ext env command db).2.business := by
  rcases executeBatch_cases ext env command db with ⟨e, he⟩ | ⟨fp, st, db', _, hsettled, he⟩
  · rw [he]
    exact SameTotals.refl _
  · rw [he, finishReplay_db]
    rcases hsettled.business_cases with hb | ⟨os, checks, hrun⟩
    · rw [hb]
      exact SameTotals.refl _
    · exact StepsRun.sameTotals hrun

theorem runCalls_sameTotals (ext : External) (calls : List (ExecEnv × ExecuteBatchCommand))
    (db : Db) : SameTotals db.business (runCalls ext calls db).business := by
  induction calls generalizing db with
  | nil => exact SameTotals.refl _
  | cons call calls ih =>
    obtain ⟨env, command⟩ := call
    exact (executeBatch_sameTotals ext env command db).trans (ih _)

/-- Settlement neither creates nor destroys ISK or items, in one call or in a sequence of them. -/
theorem settlement_conserves_totals (ext : External) :
    (∀ env command db,
      totalIsk (executeBatch ext env command db).2.business = totalIsk db.business ∧
      ∀ itemTypeId stationId,
        totalQuantity (executeBatch ext env command db).2.business itemTypeId stationId =
          totalQuantity db.business itemTypeId stationId) ∧
    ∀ calls db,
      totalIsk (runCalls ext calls db).business = totalIsk db.business ∧
      ∀ itemTypeId stationId,
        totalQuantity (runCalls ext calls db).business itemTypeId stationId =
          totalQuantity db.business itemTypeId stationId :=
  ⟨executeBatch_sameTotals ext, runCalls_sameTotals ext⟩

end EveTrade.SettlementTotals
