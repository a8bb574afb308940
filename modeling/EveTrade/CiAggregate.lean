import EveTrade.PythonValues

set_option autoImplicit false

/-!
# The aggregate gate of the build

The last job of the build looks at the results of all others and at the evidence they left behind,
bundles of commands with their diagnostics. It ends with exit code 0 only if every job succeeded and
no evidence is missing, and writes a diagnosis with the same verdict and the counts of the tests.
-/
namespace EveTrade.CiAggregate

open PythonValues

section Needs

structure Job where
  job : String
  result : String
  outputs : Dict

def summarizeNeeds (py : Python) (needs : Dict) : List Job :=
  needs.map fun (name, rawValue) =>
    let value := rawValue.dict?.getD []
    { job := name
      result := py.lower (((value.itemD "result" (.str "unknown")).orElse (.str "unknown")).text py)
      outputs := (value.itemD "outputs" (.dict [])).dict?.getD [] }

/-- The bundles of a job, in the order in which they were loaded. -/
def bundlesOf (py : Python) (evidence : List Dict) (job : String) : List Dict :=
  evidence.filter fun bundle => (bundle.itemD "job_id" (.str "")).text py == job

end Needs

/-! Evidence is what other jobs wrote. Where it has another form than expected the interpreter raises
an exception, which is `none` here. -/

section Evidence

def commandsOf : List Dict → Option (List Value)
  | [] => some []
  | bundle :: bundles => do
    let commands ← (bundle.itemD "commands" (.list [])).items?
    let others ← commandsOf bundles
    some (commands ++ others)

def firstE2e : List Value → Option (Option Dict)
  | [] => some none
  | value :: values => do
    let diagnostic ← value.dict?
    if (diagnostic.item "type").isStr "e2e" then some (some diagnostic) else firstE2e values

/-- The first diagnostic of the integration tests, or nothing. -/
def e2eSummary : List Value → Option Dict
  | [] => some []
  | value :: values => do
    let command ← value.dict?
    let diagnostics ← (command.itemD "diagnostics" (.list [])).items?
    match ← firstE2e diagnostics with
    | some diagnostic => some diagnostic
    | none => e2eSummary values

/-- Commands are looked at up to the first one of the step that passed. -/
def anyPassed (step : String) : List Value → Option Bool
  | [] => some false
  | value :: values => do
    let command ← value.dict?
    if (command.item "step_name").isStr step && (command.item "exit_code").isZero then some true
    else anyPassed step values

def count (py : Python) (summary : Dict) (key : String) : Option Int :=
  (summary.itemD key (.int 0)).toInt py

def duration (py : Python) (summary : Dict) : Option PyFloat :=
  (summary.itemD "duration_seconds" (.float (.finite 0))).toFloat py

/-- The tests of `_successful_e2e_command`, each made only if those before it hold. -/
def passingSummary (py : Python) (summary : Dict) : Option Bool := do
  let collected ← count py summary "collected_count"
  if collected ≤ 0 then some false else do
    let passed ← count py summary "passed_count"
    if passed ≤ 0 then some false else do
      let failed ← count py summary "failed_count"
      if failed ≠ 0 then some false else do
        let errors ← count py summary "error_count"
        if errors ≠ 0 then some false else do
          let seconds ← duration py summary
          some seconds.positive

def successfulE2eCommand (py : Python) (bundles : List Dict) : Option Bool := do
  let commands ← commandsOf bundles
  let summary ← e2eSummary commands
  let passed ← anyPassed "Run observed integration tests" commands
  if passed then passingSummary py summary else some false

/-- The names of the steps that passed; they are put into a set, which only takes hashable ones. -/
def observedSteps : List Value → Option (List Value)
  | [] => some []
  | value :: values => do
    let command ← value.dict?
    if (command.item "exit_code").isZero then
      if (command.item "step_name").hashable then
        (observedSteps values).map fun steps => command.item "step_name" :: steps
      else none
    else observedSteps values

def requiredGoSteps : List String :=
  ["Run Go race detector", "Run Go tests", "Run Go vulnerability audit"]

def missingGoSteps (bundles : List Dict) : Option (List String) := do
  let commands ← commandsOf bundles
  let observed ← observedSteps commands
  some (requiredGoSteps.filter fun step => !observed.any fun name => name.isStr step)

end Evidence

section Assessment

structure AssessedJob extends Job where
  evidence : List Dict

def missingProducer (job : Job) (bundles : List Dict) : List String :=
  if bundles.isEmpty then ["mandatory producer evidence is missing for job " ++ job.job]
  else if job.result ≠ "skipped" ∧
      bundles.any (fun bundle => (bundle.item "commands").truthy) = false then
    ["mandatory command evidence is missing for job " ++ job.job]
  else []

def missingE2e (py : Python) (job : Job) (bundles : List Dict) : Option (List String) :=
  if job.job = "e2e" ∧ job.result = "success" then do
    let passed ← successfulE2eCommand py bundles
    some (if passed then []
      else ["successful e2e job lacks nonzero-duration passing test evidence"])
  else some []

def missingGo (job : Job) (bundles : List Dict) : Option (List String) :=
  if job.job = "go" ∧ job.result = "success" then do
    let steps ← missingGoSteps bundles
    some (steps.map fun step => "successful go job lacks passing command evidence for " ++ step)
  else some []

def assessJob (py : Python) (evidence : List Dict) (job : Job) : Option (List String) := do
  let bundles := bundlesOf py evidence job.job
  let e2e ← missingE2e py job bundles
  let go ← missingGo job bundles
  some (missingProducer job bundles ++ (e2e ++ go))

def assessJobs (py : Python) (evidence : List Dict) : List Job → Option (List String)
  | [] => some []
  | job :: jobs => do
    let missing ← assessJob py evidence job
    let others ← assessJobs py evidence jobs
    some (missing ++ others)

def assessEvidence (py : Python) (needs : Dict) (evidence : List Dict)
    (evidenceErrors : List String) : Option (List AssessedJob × List String) := do
  let jobs := summarizeNeeds py needs
  let missing ← assessJobs py evidence jobs
  some (jobs.map fun job => ⟨job, bundlesOf py evidence job.job⟩, evidenceErrors ++ missing)

def aggregateExitCode (py : Python) (needs : Dict) (evidence : List Dict)
    (evidenceErrors : List String) : Option Int := do
  let (jobs, missing) ← assessEvidence py needs evidence evidenceErrors
  if jobs.isEmpty || !missing.isEmpty then some 1
  else some (if jobs.all fun job => job.result == "success" then 0 else 1)

end Assessment

section Diagnosis

inductive E2eStatus where
  | notScheduled
  | passed
  | insufficientEvidence
  | failed
  | blocked
  | skipped
deriving DecidableEq

inductive ValidationResult where
  | passed
  | failed
deriving DecidableEq

inductive ProductStatus where
  | passed
  | failed
  | unresolved
deriving DecidableEq

inductive HarnessStatus where
  | ok
  | insufficientEvidence
  | ciWorkflowFailed
deriving DecidableEq

inductive AnalysisStatus where
  | ok
  | insufficientEvidence
deriving DecidableEq

structure E2eExecution where
  status : E2eStatus
  testsCollected : Int
  testsStarted : Int
  testsPassed : Int
  testsFailed : Int
  testsSkipped : Int
  durationSeconds : PyFloat

structure Diagnosis where
  validationResult : ValidationResult
  productStatus : ProductStatus
  harnessStatus : HarnessStatus
  analysisStatus : AnalysisStatus
  commands : List Value
  ciJobs : List Job
  e2eTest : E2eExecution
  missingEvidence : List String

def failureResults : List String := ["failure", "cancelled", "timed_out", "action_required"]

def e2eDependencies : List String :=
  ["go", "rust-trade-settlement", "terraform", "kubernetes", "python", "architecture",
    "gui-contract", "security"]

def e2eStatus (py : Python) (e2e : Option AssessedJob) (failedNames : List String) :
    Option E2eStatus :=
  match e2e with
  | none => some .notScheduled
  | some job =>
    if job.result = "success" then
      (successfulE2eCommand py job.evidence).map fun passed =>
        if passed then .passed else .insufficientEvidence
    else if job.result = "failure" then some .failed
    else if job.result = "skipped" then
      some (if e2eDependencies.any failedNames.contains then .blocked else .skipped)
    else if job.result = "cancelled" ∨ job.result = "timed_out" then some .blocked
    else some .insufficientEvidence

def e2eExecution (py : Python) (status : E2eStatus) (summary : Dict) : Option E2eExecution := do
  let collected ← count py summary "collected_count"
  let passed ← count py summary "passed_count"
  let failed ← count py summary "failed_count"
  let errors ← count py summary "error_count"
  let skipped ← count py summary "skipped_count"
  let seconds ← duration py summary
  some ⟨status, collected, collected, passed, failed + errors, skipped, seconds⟩

def diagnoseCiNeeds (py : Python) (needs : Dict) (evidence : List Dict)
    (evidenceErrors : List String) : Option Diagnosis := do
  let (jobs, missing) ← assessEvidence py needs evidence evidenceErrors
  let failedNames := (jobs.filter fun job => failureResults.contains job.result).map fun job =>
    job.job
  let status ← e2eStatus py (jobs.find? fun job => job.job == "e2e") failedNames
  let evidenceComplete := !jobs.isEmpty && missing.isEmpty
  let allSuccess := evidenceComplete && jobs.all fun job => job.result == "success"
  let commands ← commandsOf (jobs.flatMap AssessedJob.evidence)
  let summary ← e2eSummary commands
  let execution ← e2eExecution py status summary
  some
    { validationResult := if allSuccess then .passed else .failed
      productStatus :=
        if allSuccess && status == .passed then .passed
        else if status = .failed then .failed else .unresolved
      harnessStatus :=
        if allSuccess then .ok
        else if missing.isEmpty then .ciWorkflowFailed else .insufficientEvidence
      analysisStatus := if evidenceComplete then .ok else .insufficientEvidence
      commands := commands
      ciJobs := jobs.map AssessedJob.toJob
      e2eTest := execution
      missingEvidence := missing }

end Diagnosis

section Specification

variable (py : Python) (needs : Dict) (evidence : List Dict)

/-- There is a job, and every job succeeded and has evidence with commands. -/
structure Complete : Prop where
  nonempty : summarizeNeeds py needs ≠ []
  success : ∀ job ∈ summarizeNeeds py needs, job.result = "success"
  commands : ∀ job ∈ summarizeNeeds py needs, ∃ bundle ∈ bundlesOf py evidence job.job,
    (bundle.item "commands").truthy = true

def BundlesSucceed : Prop :=
  ∀ job ∈ summarizeNeeds py needs, ∀ bundle ∈ bundlesOf py evidence job.job,
    bundle.item "exit_status" = .str "success"

/-- The diagnostic is one of the integration tests, and recorded by a command of the bundles. -/
def Records (bundles : List Dict) (diagnostic : Dict) : Prop :=
  ∃ bundle ∈ bundles, ∃ commands, (bundle.itemD "commands" (.list [])).items? = some commands ∧
    ∃ command : Dict, Value.dict command ∈ commands ∧
      ∃ diagnostics, (command.itemD "diagnostics" (.list [])).items? = some diagnostics ∧
        Value.dict diagnostic ∈ diagnostics ∧ diagnostic.item "type" = .str "e2e"

def DiagnosticsClean : Prop :=
  ∀ job ∈ summarizeNeeds py needs, job.job = "e2e" →
    ∀ diagnostic, Records (bundlesOf py evidence job.job) diagnostic →
      count py diagnostic "failed_count" = some 0 ∧ count py diagnostic "error_count" = some 0

def allBundles : List Dict :=
  (summarizeNeeds py needs).flatMap fun job => bundlesOf py evidence job.job

/-- The counts of the first diagnostic of the integration tests that the bundles hold. -/
def CountsOf (bundles : List Dict) (passed failed : Int) : Prop :=
  ∃ summary, (commandsOf bundles).bind e2eSummary = some summary ∧
    count py summary "passed_count" = some passed ∧
      ∃ f e, count py summary "failed_count" = some f ∧ count py summary "error_count" = some e ∧
        failed = f + e

end Specification

section Verdicts

variable {py : Python} {needs : Dict} {evidence : List Dict} {evidenceErrors : List String}

theorem assessEvidence_eq {jobs : List AssessedJob} {missing : List String}
    (h : assessEvidence py needs evidence evidenceErrors = some (jobs, missing)) :
    jobs = (summarizeNeeds py needs).map (fun job => ⟨job, bundlesOf py evidence job.job⟩) ∧
      ∃ others, assessJobs py evidence (summarizeNeeds py needs) = some others ∧
        missing = evidenceErrors ++ others := by
  obtain ⟨others, hothers, h⟩ := Option.bind_eq_some_iff.mp h
  obtain ⟨rfl, rfl⟩ := Prod.mk.inj (Option.some.inj h)
  exact ⟨rfl, others, hothers, rfl⟩

/-- The verdict that both functions reach, if the evidence can be assessed. -/
def Verdict (py : Python) (needs : Dict) (evidence : List Dict) (evidenceErrors : List String) :
    Prop :=
  ∃ jobs, assessEvidence py needs evidence evidenceErrors = some (jobs, []) ∧ jobs ≠ [] ∧
    ∀ job ∈ jobs, job.result = "success"

theorem aggregateExitCode_eq_zero_iff :
    aggregateExitCode py needs evidence evidenceErrors = some 0 ↔
      Verdict py needs evidence evidenceErrors := by
  unfold aggregateExitCode Verdict
  cases hassess : assessEvidence py needs evidence evidenceErrors with
  | none => simp
  | some assessed =>
    obtain ⟨jobs, missing⟩ := assessed
    simp only [Option.bind_eq_bind, Option.bind_some, Option.some.injEq, Prod.mk.injEq]
    cases jobs with
    | nil => simp
    | cons job jobs =>
      cases missing with
      | cons message missing => simp
      | nil => simp

/-- A diagnosis repeats the verdict of the exit code. -/
theorem validationResult_eq_passed_iff {d : Diagnosis}
    (h : diagnoseCiNeeds py needs evidence evidenceErrors = some d) :
    d.validationResult = .passed ↔ Verdict py needs evidence evidenceErrors := by
  obtain ⟨⟨jobs, missing⟩, hassess, h⟩ := Option.bind_eq_some_iff.mp h
  obtain ⟨status, -, h⟩ := Option.bind_eq_some_iff.mp h
  obtain ⟨commands, -, h⟩ := Option.bind_eq_some_iff.mp h
  obtain ⟨summary, -, h⟩ := Option.bind_eq_some_iff.mp h
  obtain ⟨execution, -, h⟩ := Option.bind_eq_some_iff.mp h
  obtain rfl := Option.some.inj h
  unfold Verdict
  rw [hassess]
  simp only [Option.some.injEq, Prod.mk.injEq]
  cases jobs with
  | nil => simp
  | cons job jobs =>
    cases missing with
    | cons message missing => simp
    | nil => simp

theorem assessJobs_nil {jobs : List Job} (h : assessJobs py evidence jobs = some []) :
    ∀ job ∈ jobs, assessJob py evidence job = some [] := by
  induction jobs with
  | nil => simp
  | cons job jobs ih =>
    obtain ⟨missing, hmissing, h⟩ := Option.bind_eq_some_iff.mp h
    obtain ⟨others, hothers, h⟩ := Option.bind_eq_some_iff.mp h
    obtain ⟨rfl, rfl⟩ := List.append_eq_nil_iff.mp (Option.some.inj h)
    intro other hother
    rcases List.mem_cons.mp hother with rfl | hother
    · exact hmissing
    · exact ih hothers other hother

theorem commands_of_assessJob {job : Job} (h : assessJob py evidence job = some [])
    (hsuccess : job.result = "success") : ∃ bundle ∈ bundlesOf py evidence job.job,
      (bundle.item "commands").truthy = true := by
  obtain ⟨e2e, -, h⟩ := Option.bind_eq_some_iff.mp h
  obtain ⟨go, -, h⟩ := Option.bind_eq_some_iff.mp h
  have hproducer := (List.append_eq_nil_iff.mp (Option.some.inj h)).1
  unfold missingProducer at hproducer
  split_ifs at hproducer with hempty hcommands
  rw [hsuccess, not_and, Bool.not_eq_false] at hcommands
  exact List.any_eq_true.mp (hcommands (by decide))

/-- A green verdict is one over complete evidence. -/
theorem Verdict.complete (h : Verdict py needs evidence evidenceErrors) :
    Complete py needs evidence := by
  obtain ⟨jobs, hassess, hne, hsuccess⟩ := h
  obtain ⟨rfl, others, hothers, hmissing⟩ := assessEvidence_eq hassess
  obtain ⟨-, rfl⟩ := List.append_eq_nil_iff.mp hmissing.symm
  have hall : ∀ job ∈ summarizeNeeds py needs, job.result = "success" :=
    fun job hjob => hsuccess _ (List.mem_map_of_mem hjob)
  refine ⟨fun hnil => hne (by rw [hnil]; rfl), hall, fun job hjob => ?_⟩
  exact commands_of_assessJob (assessJobs_nil hothers job hjob) (hall job hjob)

end Verdicts

section Counts

variable {py : Python} {needs : Dict} {evidence : List Dict} {evidenceErrors : List String}

theorem passingSummary_eq_true {summary : Dict} (h : passingSummary py summary = some true) :
    ∃ passed, 0 < passed ∧ count py summary "passed_count" = some passed ∧
      count py summary "failed_count" = some 0 ∧ count py summary "error_count" = some 0 := by
  obtain ⟨collected, -, h⟩ := Option.bind_eq_some_iff.mp h
  split_ifs at h
  · cases h
  obtain ⟨passed, hpassed, h⟩ := Option.bind_eq_some_iff.mp h
  split_ifs at h with hpositive
  · cases h
  obtain ⟨failed, hfailed, h⟩ := Option.bind_eq_some_iff.mp h
  split_ifs at h with hnone
  · cases h
  obtain ⟨errors, herrors, h⟩ := Option.bind_eq_some_iff.mp h
  split_ifs at h with hclean
  · cases h
  rw [not_not] at hnone hclean
  exact ⟨passed, by omega, hpassed, hnone ▸ hfailed, hclean ▸ herrors⟩

theorem countsOf_of_successful {bundles : List Dict}
    (h : successfulE2eCommand py bundles = some true) :
    ∃ passed, 0 < passed ∧ CountsOf py bundles passed 0 := by
  obtain ⟨commands, hcommands, h⟩ := Option.bind_eq_some_iff.mp h
  obtain ⟨summary, hsummary, h⟩ := Option.bind_eq_some_iff.mp h
  obtain ⟨observed, -, h⟩ := Option.bind_eq_some_iff.mp h
  split_ifs at h with hobserved
  · obtain ⟨passed, hpositive, hpassed, hfailed, herrors⟩ := passingSummary_eq_true h
    refine ⟨passed, hpositive, summary, ?_, hpassed, 0, 0, hfailed, herrors, rfl⟩
    rw [hcommands, Option.bind_some, hsummary]
  · cases h

theorem CountsOf.eq {bundles : List Dict} {p p' f f' : Int} (h : CountsOf py bundles p f)
    (h' : CountsOf py bundles p' f') : p = p' ∧ f = f' := by
  obtain ⟨own, hown, hp, a, b, ha, hb, rfl⟩ := h
  obtain ⟨own', hown', hp', a', b', ha', hb', rfl⟩ := h'
  obtain rfl : own = own' := Option.some.inj (hown.symm.trans hown')
  obtain rfl : p = p' := Option.some.inj (hp.symm.trans hp')
  obtain rfl : a = a' := Option.some.inj (ha.symm.trans ha')
  obtain rfl : b = b' := Option.some.inj (hb.symm.trans hb')
  exact ⟨rfl, rfl⟩

theorem e2eExecution_eq {status : E2eStatus} {summary : Dict} {execution : E2eExecution}
    (h : e2eExecution py status summary = some execution) : execution.status = status ∧
      count py summary "passed_count" = some execution.testsPassed ∧
        ∃ f e, count py summary "failed_count" = some f ∧ count py summary "error_count" = some e ∧
          execution.testsFailed = f + e := by
  obtain ⟨_, -, h⟩ := Option.bind_eq_some_iff.mp h
  obtain ⟨passed, hpassed, h⟩ := Option.bind_eq_some_iff.mp h
  obtain ⟨failed, hfailed, h⟩ := Option.bind_eq_some_iff.mp h
  obtain ⟨errors, herrors, h⟩ := Option.bind_eq_some_iff.mp h
  obtain ⟨_, -, h⟩ := Option.bind_eq_some_iff.mp h
  obtain ⟨_, -, h⟩ := Option.bind_eq_some_iff.mp h
  obtain rfl := Option.some.inj h
  exact ⟨rfl, hpassed, failed, errors, hfailed, herrors, rfl⟩

/-- The tests are reported as passed for what the job of the integration tests left itself. -/
theorem successful_of_e2eStatus {jobs : List Job} {failedNames : List String}
    (h : e2eStatus py ((jobs.map fun job =>
      (⟨job, bundlesOf py evidence job.job⟩ : AssessedJob)).find? fun job => job.job == "e2e")
        failedNames = some .passed) :
    successfulE2eCommand py (bundlesOf py evidence "e2e") = some true := by
  cases hfind : (jobs.map fun job =>
      (⟨job, bundlesOf py evidence job.job⟩ : AssessedJob)).find? fun job => job.job == "e2e" with
  | none => simp [hfind, e2eStatus] at h
  | some job =>
    have hname : job.job = "e2e" := by simpa using List.find?_some hfind
    obtain ⟨needed, -, rfl⟩ := List.mem_map.mp (List.mem_of_find?_eq_some hfind)
    rw [hfind] at h
    unfold e2eStatus at h
    dsimp only at h hname
    rw [hname] at h
    split_ifs at h with hsuccess
    · obtain ⟨passed, hpassed, h⟩ := Option.map_eq_some_iff.mp h
      cases passed with
      | true => exact hpassed
      | false => simp at h
    all_goals simp at h

/-- The status is about the job of the integration tests, and the counts about all jobs. -/
theorem diagnoseCiNeeds_counts {d : Diagnosis}
    (h : diagnoseCiNeeds py needs evidence evidenceErrors = some d) :
    CountsOf py (allBundles py needs evidence) d.e2eTest.testsPassed d.e2eTest.testsFailed ∧
      (d.e2eTest.status = .passed →
        successfulE2eCommand py (bundlesOf py evidence "e2e") = some true) := by
  obtain ⟨⟨jobs, missing⟩, hassess, h⟩ := Option.bind_eq_some_iff.mp h
  obtain ⟨status, hs, h⟩ := Option.bind_eq_some_iff.mp h
  obtain ⟨commands, hcommands, h⟩ := Option.bind_eq_some_iff.mp h
  obtain ⟨summary, hsummary, h⟩ := Option.bind_eq_some_iff.mp h
  obtain ⟨execution, hexecution, h⟩ := Option.bind_eq_some_iff.mp h
  obtain rfl := Option.some.inj h
  obtain ⟨rfl, hpassed, hfailed⟩ := e2eExecution_eq hexecution
  obtain ⟨rfl, -⟩ := assessEvidence_eq hassess
  rw [List.flatMap_map] at hcommands
  refine ⟨⟨summary, ?_, hpassed, hfailed⟩, fun hstatus => ?_⟩
  · rw [allBundles, hcommands, Option.bind_some, hsummary]
  · exact successful_of_e2eStatus (hs.trans (congrArg some hstatus))

end Counts

section Contradiction

def e2eDiagnostic (passed failed : Int) : Dict :=
  [("type", .str "e2e"), ("collected_count", .int (passed + failed)), ("passed_count", .int passed),
    ("failed_count", .int failed), ("error_count", .int 0), ("duration_seconds", .int 1)]

def passedCommand (step : String) (diagnostic : Dict) : Value :=
  .dict [("step_name", .str step), ("exit_code", .int 0),
    ("diagnostics", .list [.dict diagnostic])]

def bundle (job status : String) (commands : List Value) : Dict :=
  [("job_id", .str job), ("exit_status", .str status), ("commands", .list commands)]

def greenNeeds : Dict :=
  [("lint", .dict [("result", .str "success")]), ("e2e", .dict [("result", .str "success")])]

def lintBundle : Dict := bundle "lint" "failure" [passedCommand "Lint" (e2eDiagnostic 99 1)]

def e2eBundle : Dict :=
  bundle "e2e" "success"
    [passedCommand "Run observed integration tests" (e2eDiagnostic 5 0),
      passedCommand "Run observed integration tests again" (e2eDiagnostic 4 1)]

end Contradiction

end EveTrade.CiAggregate
