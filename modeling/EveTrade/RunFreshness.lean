import EveTrade.RunIndex

set_option autoImplicit false

/-!
# Freshness of recorded runs

A report is exact for the repository as it is now if its run completed over the same commit with the
same changes in the worktree. The same question is answered twice: for a run's provenance, and for
the record that the index made of it.
-/
namespace EveTrade.RunFreshness

open PythonValues RunProvenance RunIndex

section Freshness

inductive FreshnessState where
  | exact
  | ancestor
  | diverged
  | dirtyWorktreeMismatch
  | sourceChanged
  | unknown
deriving DecidableEq

structure Freshness where
  state : FreshnessState
  reportFullHeadSha : String
  currentFullHeadSha : String
  reportDirty : Option Bool
  currentDirty : Option Bool
  reason : String
  sourceStability : String
  runStatus : String

def missingSha (sha : String) : Bool := sha == "" || startsWith sha '<'

/-- `isAncestor` asks git whether the first commit is an ancestor of the second. -/
def classifyFreshness (py : Python) (isAncestor : String → String → Bool) (report current : Dict) :
    Freshness :=
  if report.isEmpty then
    ⟨.unknown, "", "", none, none, "missing run provenance", "UNKNOWN", "UNKNOWN"⟩
  else
    let split := splitProvenanceEnvelope py report
    let reportIdentity := repositoryIdentity py split.start
    let currentIdentity := repositoryIdentity py current
    let reportSha := reportIdentity.fullHeadSha
    let currentSha := ((current.item "full_head_sha").orElse (.str "")).text py
    let reportDirty := reportIdentity.worktreeDirty
    let currentDirty := currentIdentity.worktreeDirty
    let answer (state : FreshnessState) (reason : String) : Freshness :=
      ⟨state, reportSha, currentSha, reportDirty, currentDirty, reason, split.sourceStability,
        split.runStatus⟩
    if missingSha reportSha || missingSha currentSha then answer .unknown "missing or invalid SHA"
    else if split.sourceStability = "CHANGED" then
      answer .sourceChanged
        "run source identity changed between start and finish; evidence cannot be exact for either revision"
    else if split.sourceStability ≠ "UNCHANGED" then
      answer .unknown "run source stability is unknown; evidence cannot be exact"
    else if split.runStatus ≠ "UNKNOWN" ∧ split.runStatus ≠ "COMPLETE" then
      answer .unknown
        ("run status " ++ split.runStatus ++ " is not authoritative current evidence")
    else if reportSha = currentSha then
      if reportDirty ≠ currentDirty then
        answer .dirtyWorktreeMismatch "same commit SHA but dirty-worktree state differs"
      else if reportDirty = some true ∧ reportIdentity.worktreeDiffFingerprintIfDirty ≠
          currentIdentity.worktreeDiffFingerprintIfDirty then
        answer .dirtyWorktreeMismatch "same commit SHA but dirty-worktree fingerprint differs"
      else
        answer .exact
          "run provenance matches current repository state and source was stable during the run"
    else if isAncestor reportSha currentSha then
      answer .ancestor "run SHA is an ancestor of current HEAD"
    else if isAncestor currentSha reportSha then
      answer .diverged "run SHA is newer than or on another lineage from current HEAD"
    else answer .diverged "run SHA is not on the current HEAD ancestry"

end Freshness

section Candidates

def firstNonempty (s t : String) : String := if s = "" then t else s

def isAuthoritativeCurrentCandidate (py : Python) (record : Record) (current : Dict) : Bool :=
  if record.runStatus ≠ "COMPLETE" then false
  else if firstNonempty record.sourceStability "UNCHANGED" ≠ "UNCHANGED" then false
  else
    let currentIdentity := repositoryIdentity py current
    if firstNonempty record.startFullHeadSha record.fullHeadSha ≠ currentIdentity.fullHeadSha then
      false
    else if some record.startWorktreeDirty ≠ currentIdentity.worktreeDirty then false
    else !(record.startWorktreeDirty &&
      firstNonempty record.startWorktreeDiffFingerprintIfDirty
        record.worktreeDiffFingerprintIfDirty != currentIdentity.worktreeDiffFingerprintIfDirty)

def findCurrentExactRecord (py : Python) (runs : List Record) (current : Dict) : Option Record :=
  (sortRecords (runs.filter fun r => isAuthoritativeCurrentCandidate py r current)).getLast?

/-- What is recorded of a run beside its provenance. -/
structure RunOutcome where
  command : String
  exitCode : Int
  diagnosisPath : String
  reportPath : String

def dirtyValue : Option Bool → Value
  | none => .none
  | some b => .bool b

def shortSha (provenance : Dict) (identity : Identity) : Value :=
  (provenance.itemD "short_head_sha" (.str "")).orElse
    (.str (String.ofList (identity.fullHeadSha.toList.take 12)))

def recordFromProvenance (py : Python) (paths : Paths) (outcome : RunOutcome) (provenance : Dict) :
    Option Record :=
  let split := splitProvenanceEnvelope py provenance
  let start := split.start
  let finish := split.finish
  let startIdentity := repositoryIdentity py start
  let finishIdentity := repositoryIdentity py finish
  let runId := ((provenance.item "run_id").orElse
    ((start.item "run_id").orElse ((finish.item "run_id").orElse (.str "")))).text py
  normalizeRecord py paths
    [("run_id", .str runId),
      ("run_path", .str (".o11y/runs/" ++ runId)),
      ("run_status", .str split.runStatus),
      ("run_started_at", (provenance.item "run_started_at").orElse
        (start.itemD "run_started_at" (.str ""))),
      ("run_finished_at", (provenance.item "run_finished_at").orElse
        (finish.itemD "run_finished_at" (.str ""))),
      ("full_head_sha", .str startIdentity.fullHeadSha),
      ("short_head_sha", shortSha start startIdentity),
      ("branch", start.itemD "branch" (.str "")),
      ("worktree_dirty", dirtyValue startIdentity.worktreeDirty),
      ("worktree_diff_fingerprint_if_dirty", .str startIdentity.worktreeDiffFingerprintIfDirty),
      ("start_full_head_sha", .str startIdentity.fullHeadSha),
      ("start_short_head_sha", shortSha start startIdentity),
      ("start_branch", start.itemD "branch" (.str "")),
      ("start_worktree_dirty", dirtyValue startIdentity.worktreeDirty),
      ("start_worktree_diff_fingerprint_if_dirty",
        .str startIdentity.worktreeDiffFingerprintIfDirty),
      ("finish_full_head_sha", .str finishIdentity.fullHeadSha),
      ("finish_short_head_sha", shortSha finish finishIdentity),
      ("finish_branch", finish.itemD "branch" (.str "")),
      ("finish_worktree_dirty", dirtyValue finishIdentity.worktreeDirty),
      ("finish_worktree_diff_fingerprint_if_dirty",
        .str finishIdentity.worktreeDiffFingerprintIfDirty),
      ("source_stability", .str split.sourceStability),
      ("ci_or_local", (start.item "ci_or_local").orElse (finish.itemD "ci_or_local" (.str ""))),
      ("command", .str outcome.command),
      ("exit_code", .int outcome.exitCode),
      ("diagnosis_path", .str outcome.diagnosisPath),
      ("report_path", .str outcome.reportPath)]

end Candidates

section Agreement

variable {py : Python} {paths : Paths} {outcome : RunOutcome} {provenance : Dict} {git : Git}

/-- Some index with the record of the run in it has that record selected. -/
def CanSelect (py : Python) (paths : Paths) (outcome : RunOutcome) (provenance current : Dict) :
    Prop :=
  ∃ record, recordFromProvenance py paths outcome provenance = some record ∧
    ∃ runs, findCurrentExactRecord py runs current = some record

def startIdentity (py : Python) (provenance : Dict) : Identity :=
  repositoryIdentity py (splitProvenanceEnvelope py provenance).start

/-- What of the provenance of a run its record keeps. -/
structure Describes (py : Python) (provenance : Dict) (record : Record) : Prop where
  status : record.runStatus = (splitProvenanceEnvelope py provenance).runStatus
  stability : record.sourceStability = (splitProvenanceEnvelope py provenance).sourceStability
  sha : firstNonempty record.startFullHeadSha record.fullHeadSha =
    (startIdentity py provenance).fullHeadSha
  dirty : record.startWorktreeDirty = ((startIdentity py provenance).worktreeDirty == some true)
  fingerprint : firstNonempty record.startWorktreeDiffFingerprintIfDirty
      record.worktreeDiffFingerprintIfDirty =
    (startIdentity py provenance).worktreeDiffFingerprintIfDirty

theorem recordFromProvenance_describes (py : Python) (paths : Paths) (outcome : RunOutcome)
    (provenance : Dict) : ∃ record, recordFromProvenance py paths outcome provenance = some record ∧
      Describes py provenance record := by
  have hfirst : ∀ s : String,
      firstNonempty (((Value.str s).orElse (.str s)).text py) ((Value.str s).text py) = s := by
    intro s
    by_cases hs : s = "" <;> simp [firstNonempty, Value.orElse, Value.truthy, Value.text, hs]
  have hdirty : ∀ b, (dirtyValue b).truthy = (b == some true) := by
    rintro (_ | _ | _) <;> rfl
  have hexit : ((Value.int outcome.exitCode).orElse (.int 0)).toInt py = some outcome.exitCode := by
    by_cases hzero : outcome.exitCode = 0 <;> simp [Value.orElse, Value.truthy, Value.toInt, hzero]
  -- Only the exit code could be refused.
  have hrecord : ∃ f : Int → Option Record, recordFromProvenance py paths outcome provenance =
      (((Value.int outcome.exitCode).orElse (.int 0)).toInt py).bind f ∧
        ∀ n, ∃ record, f n = some record ∧ Describes py provenance record :=
    ⟨_, rfl, fun n => ⟨_, rfl, rfl, rfl, hfirst _, hdirty _, hfirst _⟩⟩
  obtain ⟨f, hf, hdescribes⟩ := hrecord
  rw [hf, hexit]
  exact hdescribes outcome.exitCode

theorem canSelect_iff {current : Dict} : CanSelect py paths outcome provenance current ↔
    ∃ record, recordFromProvenance py paths outcome provenance = some record ∧
      isAuthoritativeCurrentCandidate py record current = true := by
  constructor
  · rintro ⟨record, hrecord, runs, hfind⟩
    have hmem := (sortRecords_perm _).mem_iff.mp (List.mem_of_getLast? hfind)
    exact ⟨record, hrecord, (List.mem_filter.mp hmem).2⟩
  · rintro ⟨record, hrecord, hcandidate⟩
    refine ⟨record, hrecord, [record], ?_⟩
    simp [findCurrentExactRecord, hcandidate, sortRecords]

/-- What a selected run's provenance has in common with the repository. -/
structure Matches (py : Python) (provenance : Dict) (git : Git) : Prop where
  status : (splitProvenanceEnvelope py provenance).runStatus = "COMPLETE"
  stability : (splitProvenanceEnvelope py provenance).sourceStability = "UNCHANGED"
  sha : (startIdentity py provenance).fullHeadSha = git.revParse.text
  dirty : ((startIdentity py provenance).worktreeDirty == some true) = git.dirty
  fingerprint : git.dirty = true →
    (startIdentity py provenance).worktreeDiffFingerprintIfDirty = git.worktreeFingerprint

theorem candidate_iff {record : Record} {current : Dict} :
    isAuthoritativeCurrentCandidate py record current = true ↔
      record.runStatus = "COMPLETE" ∧
      firstNonempty record.sourceStability "UNCHANGED" = "UNCHANGED" ∧
      firstNonempty record.startFullHeadSha record.fullHeadSha =
        (repositoryIdentity py current).fullHeadSha ∧
      some record.startWorktreeDirty = (repositoryIdentity py current).worktreeDirty ∧
      (record.startWorktreeDirty = true →
        firstNonempty record.startWorktreeDiffFingerprintIfDirty
            record.worktreeDiffFingerprintIfDirty =
          (repositoryIdentity py current).worktreeDiffFingerprintIfDirty) := by
  unfold isAuthoritativeCurrentCandidate
  generalize repositoryIdentity py current = identity
  cases hdirty : record.startWorktreeDirty <;> split_ifs <;> simp_all

theorem matches_of_canSelect (hpy : py.Lawful)
    (h : CanSelect py paths outcome provenance (collectGitState git)) :
    Matches py provenance git := by
  obtain ⟨record, hrecord, hcandidate⟩ := canSelect_iff.mp h
  obtain ⟨record', hrecord', hd⟩ := recordFromProvenance_describes py paths outcome provenance
  obtain rfl : record = record' := Option.some.inj (hrecord.symm.trans hrecord')
  have hne := splitProvenanceEnvelope_sourceStability_ne hpy provenance
  rw [candidate_iff, repositoryIdentity_collectGitState, hd.status, hd.stability, hd.sha, hd.dirty,
    hd.fingerprint] at hcandidate
  obtain ⟨h1, h2, h3, h4, h5⟩ := hcandidate
  rw [firstNonempty, if_neg hne] at h2
  rw [Option.some.injEq] at h4
  refine ⟨h1, h2, h3, h4, fun hd => ?_⟩
  have hprint := h5 (h4.trans hd)
  simpa [hd] using hprint

theorem Matches.dirty_eq (h : Matches py provenance git)
    (hdirty : (startIdentity py provenance).worktreeDirty ≠ none) :
    (startIdentity py provenance).worktreeDirty = some git.dirty := by
  rw [← h.dirty]
  cases hd : (startIdentity py provenance).worktreeDirty with
  | none => exact absurd hd hdirty
  | some b => cases b <;> rfl

/-- A run that matches the repository is classified as exact if its commit and the state of its
worktree are known. -/
theorem Matches.state_eq (h : Matches py provenance git) (isAncestor : String → String → Bool)
    (hsha : missingSha (startIdentity py provenance).fullHeadSha = false)
    (hdirty : (startIdentity py provenance).worktreeDirty ≠ none) :
    (classifyFreshness py isAncestor provenance (collectGitState git)).state = .exact := by
  have hcurrent : (((collectGitState git).item "full_head_sha").orElse (.str "")).text py =
      git.revParse.text := Value.orElse_empty_str py _
  have hempty : provenance.isEmpty = false := by
    cases provenance with
    | nil => cases hsha
    | cons entry entries => rfl
  have hreport : repositoryIdentity py (splitProvenanceEnvelope py provenance).start =
      ⟨git.revParse.text, some git.dirty,
        (startIdentity py provenance).worktreeDiffFingerprintIfDirty⟩ := by
    rw [← h.sha, ← h.dirty_eq hdirty]
    rfl
  have hprint : ¬ (some git.dirty = some true ∧
      (startIdentity py provenance).worktreeDiffFingerprintIfDirty ≠
        if git.dirty then git.worktreeFingerprint else "") := by
    rintro ⟨hd, hne⟩
    rw [Option.some.inj hd, if_pos rfl] at hne
    exact hne (h.fingerprint (Option.some.inj hd))
  have hknown : missingSha git.revParse.text = false := h.sha ▸ hsha
  simp only [classifyFreshness, hempty, repositoryIdentity_collectGitState, hcurrent, h.stability,
    h.status, hreport, hknown, Bool.false_eq_true, if_false, Bool.or_self]
  rw [if_neg (by decide), if_neg (by decide), if_neg (by decide), if_pos trivial, if_neg (by simp),
    if_neg hprint]

end Agreement

section GitMissing

def completedRun (dirty : Value) (sha : String) : Dict :=
  [("run_id", .str "r1"), ("run_status", .str "COMPLETE"), ("full_head_sha", .str sha),
    ("worktree_dirty", dirty)]

def locally : RunOutcome where
  command := "check"
  exitCode := 0
  diagnosisPath := ""
  reportPath := ""

def cleanAt (sha : String) : Git where
  revParse := .exited 0 sha.toList
  status := .exited 0 []
  worktreeFingerprint := ""

def withoutGit : Git where
  revParse := .unavailable "FileNotFoundError"
  status := .unavailable "FileNotFoundError"
  worktreeFingerprint := ""

theorem decimalPython_lawful : decimalPython.Lawful := fun v => by simp [decimalPython]

end GitMissing

end EveTrade.RunFreshness
