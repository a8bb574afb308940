import EveTrade.CiAggregate
import EveTrade.CiEvidence

set_option autoImplicit false

/-!
# From the start of a job to the gate

A job writes a marker when it starts and its bundle when it ends; the gate reads what all jobs
wrote. Every part of this checks what the one before it left.
-/
namespace EveTrade.CiPipeline

open PythonValues TransactionMonad CiEvidence
open EveTrade.CiAggregate (summarizeNeeds aggregateExitCode aggregateExitCode_eq_zero_iff
  assessEvidence_eq)

section Handover

variable {rt : Runtime} {env : String → String} {job : Job}

theorem actual_header (context : Context) (rest : Dict) : ∀ field ∈ requiredContextFields,
    actual rt (contextHeader context ++ rest) field = context field := by
  simp only [requiredContextFields, List.forall_mem_cons]
  exact ⟨rfl, rfl, rfl, rfl, rfl, rfl, by simp⟩

theorem matchesRun_header_iff (context expected : Context) (rest : Dict) :
    MatchesRun rt (contextHeader context ++ rest) expected ↔
      ∀ field ∈ requiredContextFields, context field ≠ "" ∧ context field = expected field := by
  have hschema : ((contextHeader context ++ rest : Dict).item "schema_version").isStr
      evidenceSchemaVersion = true := by
    rw [Value.isStr_iff]
    rfl
  rw [MatchesRun, and_iff_right hschema]
  refine forall₂_congr fun field hfield => ?_
  rw [actual_header _ _ field hfield]

theorem verify_startRecord {started : String} (expected : Context)
    (hcontext : ∀ field ∈ requiredContextFields, githubContext env field ≠ "") :
    verifyEvidenceContext rt (startRecord (githubContext env) job started) expected = [] ↔
      ∀ field ∈ requiredContextFields, expected field = githubContext env field := by
  have hdigest : (startRecord (githubContext env) job started).has "artifact_digest" = false := rfl
  rw [verify_eq_nil_iff, hdigest, startRecord, matchesRun_header_iff]
  refine ⟨fun h field hfield => (h.1 field hfield).2.symm, fun h => ⟨fun field hfield =>
    ⟨hcontext field hfield, (h field hfield).symm⟩, fun hno => absurd hno (by decide)⟩⟩

/-- A job can be finished from the marker of its start exactly in the same run and under its own
name, if it reports a status that there is. -/
theorem finish_after_start_iff (rt : Runtime) (env env' : String → String) (job job' : Job)
    (started now : String) {marker : Dict} (h : startEvidence env job started = .ok marker) :
    (∃ bundle, finishEvidence rt env' (.json (.dict marker)) none job' now = .ok bundle) ↔
      (∀ field ∈ requiredContextFields, githubContext env' field = githubContext env field) ∧
        job'.jobId = job.jobId ∧ job'.jobName = job.jobName ∧
        rt.lower (RunProvenance.strip job'.status) ∈
          ["success", "failure", "cancelled", "skipped"] := by
  obtain ⟨_, hcontext, hmarker⟩ := except_bind_eq_ok.mp h
  rw [requireContext_eq_ok] at hcontext
  obtain rfl := Except.ok.inj hmarker
  have hid : (startRecord (githubContext env) job started).item "job_id" = .str job.jobId := rfl
  have hname : (startRecord (githubContext env) job started).item "job_name" = .str job.jobName :=
    rfl
  have hat : required (startRecord (githubContext env) job started) "started_at" =
      .ok (.str started) := rfl
  simp only [finishEvidence_eq_ok, readJson, Except.ok.injEq, exists_eq_left', startErrors,
    List.append_eq_nil_iff, verify_startRecord _ hcontext, hid, hname, hat, loadCommandRecords,
    Value.isStr, exists_and_left, exists_eq, and_true]
  have hnamed : (if (!job.jobId == job'.jobId || !job.jobName == job'.jobName) = true then
      ["start marker job identity does not match final evidence"] else []) = [] ↔
      job.jobId = job'.jobId ∧ job.jobName = job'.jobName := by
    simp
  rw [hnamed]
  constructor
  · rintro ⟨-, ⟨hsame, hjob, hname⟩, hstatus⟩
    exact ⟨hsame, hjob.symm, hname.symm, hstatus⟩
  · rintro ⟨hsame, hjob, hname, hstatus⟩
    refine ⟨fun field hfield => ?_, ⟨hsame, hjob.symm, hname.symm⟩, hstatus⟩
    rw [hsame field hfield]
    exact hcontext field hfield

theorem finish_after_start_lint :
    ∃ bundle, finishEvidence plainRuntime buildEnv startMarker none lintJob "t1" = .ok bundle :=
  (finish_after_start_iff plainRuntime buildEnv buildEnv lintJob lintJob "t0" "t1" rfl).mpr
    ⟨fun _ _ => rfl, rfl, rfl, by decide⟩

/-- A finished bundle is evidence of the run it was made in, and of no other. -/
theorem finished_bundle_admitted_iff (rt : Runtime) (env : String → String) (start : Content)
    (commands : Option Directory) (job : Job) (now : String) {bundle : Dict}
    (h : finishEvidence rt env start commands job now = .ok bundle) (path name : String)
    (files : Directory) (hfile : (name, .json (.dict bundle)) ∈ jsonFiles files)
    (expected : Context) :
    bundle ∈ (loadEvidenceDirectory rt path (some files) expected).1 ↔
      ∀ field ∈ requiredContextFields, expected field = githubContext env field := by
  obtain ⟨hcontext, _, -, -, -, records, -, startedAt, -, rfl⟩ := finishEvidence_eq_ok.mp h
  generalize rt.lower (RunProvenance.strip job.status) = status at *
  have hsealed : Sealed rt (sign rt (unsignedBundle env job status startedAt records now)) := by
    refine ⟨?_, ?_⟩
    · rw [Value.isStr_iff, Dict.item, lookup_sign]
      rfl
    · rw [Value.isStr_iff]
      rfl
  rw [mem_evidence_iff, verify_eq_nil_iff, and_iff_right ⟨name, hfile⟩, and_iff_left fun _ => hsealed,
    sign, unsignedBundle, List.append_assoc, matchesRun_header_iff]
  exact ⟨fun h field hfield => (h field hfield).2.symm, fun h field hfield =>
    ⟨hcontext field hfield, (h field hfield).symm⟩⟩

theorem finished_bundle_admitted_lint :
    failedBundle ∈ (loadEvidenceDirectory plainRuntime "evidence"
      (some [("lint.json", .json (.dict failedBundle))]) (githubContext buildEnv)).1 :=
  (finished_bundle_admitted_iff plainRuntime buildEnv startMarker none lintJob "t1" rfl "evidence"
    "lint.json" _ (.head _) _).mpr fun _ _ => rfl

/-- The marker of a start is evidence of its run as well, although nothing has been done yet. -/
theorem start_marker_admitted_iff (rt : Runtime) (env : String → String) (job : Job)
    (started : String) {marker : Dict} (h : startEvidence env job started = .ok marker)
    (path name : String) (files : Directory)
    (hfile : (name, .json (.dict marker)) ∈ jsonFiles files) (expected : Context) :
    marker ∈ (loadEvidenceDirectory rt path (some files) expected).1 ↔
      ∀ field ∈ requiredContextFields, expected field = githubContext env field := by
  obtain ⟨_, hcontext, hmarker⟩ := except_bind_eq_ok.mp h
  obtain rfl := Except.ok.inj hmarker
  rw [mem_evidence_iff, and_iff_right ⟨name, hfile⟩,
    verify_startRecord _ (requireContext_eq_ok.mp hcontext)]

theorem start_marker_admitted_lint :
    startRecord (githubContext buildEnv) lintJob "t0" ∈ (loadEvidenceDirectory plainRuntime
      "evidence" (some [("start.json", startMarker)]) (githubContext buildEnv)).1 :=
  (start_marker_admitted_iff plainRuntime buildEnv lintJob "t0" rfl "evidence" "start.json" _
    (.head _) _).mpr fun _ _ => rfl

end Handover

section Gate

variable {rt : Runtime}

/-- The decision of the gate, as `main` makes it. -/
def gateExitCode (rt : Runtime) (env : String → String) (needs : Dict) (path : String)
    (directory : Option Directory) : Option Int :=
  let loaded := loadEvidenceDirectory rt path directory (githubContext env)
  aggregateExitCode rt.toPython needs loaded.1 loaded.2

theorem errors_eq_nil {path : String} {files : Directory} {expected : Context}
    (h : (loadEvidenceDirectory rt path (some files) expected).2 = []) :
    ∀ f ∈ jsonFiles files, ∃ bundle, f.2 = .json (.dict bundle) ∧
      verifyEvidenceContext rt bundle expected = [] := by
  intro f hf
  have hnone := List.flatMap_eq_nil_iff.mp h f hf
  cases hexamine : examine rt expected f.2 with
  | ok bundle => exact ⟨bundle, examine_ok_iff.mp hexamine⟩
  | error messages =>
    rw [hexamine, List.map_eq_nil_iff] at hnone
    unfold examine at hexamine
    split at hexamine
    · simp_all
    · split at hexamine <;> simp_all

/-- The gate opens only if every file in the directory belongs to the run, is sealed unless it has
no digest, and every job that is needed has succeeded and left a bundle with commands. -/
theorem green_gate_files (rt : Runtime) (env : String → String) (needs : Dict) (path : String)
    (directory : Option Directory) (h : gateExitCode rt env needs path directory = some 0) :
    ∃ files, directory = some files ∧
      (∀ f ∈ jsonFiles files, ∃ bundle : Dict, f.2 = .json (.dict bundle) ∧
        MatchesRun rt bundle (githubContext env) ∧
        (bundle.has "artifact_digest" = true → Sealed rt bundle)) ∧
      ∀ job ∈ summarizeNeeds rt.toPython needs, job.result = "success" ∧
        ∃ (name : String) (bundle : Dict), (name, Content.json (.dict bundle)) ∈ jsonFiles files ∧
          actual rt bundle "job_id" = job.job ∧ (bundle.item "commands").truthy = true := by
  have hverdict := aggregateExitCode_eq_zero_iff.mp h
  obtain ⟨jobs, hassess, -, -⟩ := hverdict
  obtain ⟨-, others, -, hmissing⟩ := assessEvidence_eq hassess
  have herrors := (List.append_eq_nil_iff.mp hmissing.symm).1
  cases directory with
  | none => cases herrors
  | some files =>
    refine ⟨files, rfl, fun f hf => ?_, fun job hjob => ?_⟩
    · obtain ⟨bundle, hbundle, hverify⟩ := errors_eq_nil herrors f hf
      exact ⟨bundle, hbundle, verify_eq_nil_iff.mp hverify⟩
    · have hcomplete := (aggregateExitCode_eq_zero_iff.mp h).complete
      obtain ⟨bundle, hbundle, hcommands⟩ := hcomplete.commands job hjob
      obtain ⟨hmem, hid⟩ := List.mem_filter.mp hbundle
      obtain ⟨⟨name, hfile⟩, -⟩ := (mem_evidence_iff path).mp hmem
      exact ⟨hcomplete.success job hjob, name, bundle, hfile, beq_iff_eq.mp hid, hcommands⟩

/-- What one job leaves, without a digest. -/
def lintFiles : Directory :=
  [("lint.json", .json (.dict (contextHeader (githubContext buildEnv) ++
    [("job_id", .str "lint"), ("commands", .list [.none])])))]

theorem green_gate_files_lint :
    ∃ files, some lintFiles = some files ∧ ∀ f ∈ jsonFiles files, ∃ bundle : Dict,
      f.2 = .json (.dict bundle) ∧ MatchesRun plainRuntime bundle (githubContext buildEnv) := by
  obtain ⟨files, hfiles, hbundles, -⟩ := green_gate_files plainRuntime buildEnv
    [("lint", .dict [("result", .str "success")])] "evidence" (some lintFiles) (by decide +kernel)
  refine ⟨files, hfiles, fun f hf => ?_⟩
  obtain ⟨bundle, hbundle, hmatch, -⟩ := hbundles f hf
  exact ⟨bundle, hbundle, hmatch⟩

end Gate

end EveTrade.CiPipeline
