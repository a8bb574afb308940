import EveTrade.Redaction

set_option autoImplicit false

/-!
# Provenance of validation runs

A run writes down the state of the repository it validates, when it starts and when it finishes.
Older runs kept one object for both. The commit, whether the worktree was dirty and the fingerprint
of its changes are the identity of the source.
-/
namespace EveTrade.RunProvenance

open PythonValues

def provenanceEnvelopeSchemaVersion : String := "o11y.run-provenance-envelope.v1"

section Texts

def stripChars (s : List Char) : List Char :=
  ((s.dropWhile Redaction.isSpace).reverse.dropWhile Redaction.isSpace).reverse

def strip (s : String) : String := String.ofList (stripChars s.toList)

def startsWith (s : String) (c : Char) : Bool := s.toList.head? == some c

end Texts

structure Identity where
  fullHeadSha : String
  worktreeDirty : Option Bool
  worktreeDiffFingerprintIfDirty : String
deriving DecidableEq

def optionalBool : Value → Option Bool
  | .none => none
  | v => some v.truthy

def repositoryIdentity (py : Python) (provenance : Dict) : Identity where
  fullHeadSha :=
    ((provenance.item "full_head_sha").orElse
      ((provenance.item "github_sha").orElse (.str ""))).text py
  worktreeDirty := optionalBool (provenance.item "worktree_dirty")
  worktreeDiffFingerprintIfDirty :=
    ((provenance.item "worktree_diff_fingerprint_if_dirty").orElse (.str "")).text py

def sourceStabilityFromProvenance (py : Python) (start finish : Dict) : String :=
  if start.isEmpty || finish.isEmpty then "UNKNOWN"
  else if repositoryIdentity py start = repositoryIdentity py finish then "UNCHANGED"
  else "CHANGED"

structure Split where
  start : Dict
  finish : Dict
  sourceStability : String
  runStatus : String

def dictOrEmpty : Value → Dict
  | .dict d => d
  | _ => []

def splitProvenanceEnvelope (py : Python) (value : Dict) : Split :=
  if value.has "start_provenance" ||
      (value.item "schema_version").isStr provenanceEnvelopeSchemaVersion then
    let start := dictOrEmpty (value.item "start_provenance")
    let finish := dictOrEmpty (value.item "finish_provenance")
    { start := start
      finish := finish
      sourceStability := ((value.item "source_stability").orElse
        (.str (sourceStabilityFromProvenance py start finish))).text py
      runStatus := ((value.item "run_status").orElse
        ((finish.item "run_status").orElse
          ((start.item "run_status").orElse (.str "UNKNOWN")))).text py }
  else
    let runStatus := ((value.item "run_status").orElse (.str "UNKNOWN")).text py
    { start := value
      finish := value
      sourceStability :=
        if runStatus = "SOURCE_CHANGED_DURING_RUN" then "CHANGED" else "UNCHANGED"
      runStatus := runStatus }

section Git

/-- How a call of git ended, and what it wrote to its output and error streams. -/
inductive GitCall where
  | exited (code : Int) (output : List Char)
  | unavailable (exception : String)

/-- A failed call is answered with a marker in place of its output. -/
def GitCall.text : GitCall → String
  | .exited code output =>
    if code = 0 then String.ofList (stripChars output)
    else String.ofList (stripChars
      ("<error:".toList ++ JsonText.numberText code ++ "> ".toList ++ output))
  | .unavailable exception =>
    String.ofList (stripChars ("<unavailable:".toList ++ exception.toList ++ ['>']))

structure Git where
  revParse : GitCall
  status : GitCall
  /-- The digest over the status, the changes and the untracked files. -/
  worktreeFingerprint : String

def collectGitState (git : Git) : Dict :=
  let fullHeadSha := git.revParse.text
  let status := git.status.text
  let dirty := strip status != "" && !startsWith status '<'
  [("full_head_sha", .str fullHeadSha),
    ("short_head_sha", .str (if fullHeadSha != "" && !startsWith fullHeadSha '<'
      then String.ofList (fullHeadSha.toList.take 12) else "")),
    ("worktree_dirty", .bool dirty),
    ("worktree_diff_fingerprint_if_dirty", .str (if dirty then git.worktreeFingerprint else ""))]

def Git.dirty (git : Git) : Bool := strip git.status.text != "" && !startsWith git.status.text '<'

theorem repositoryIdentity_collectGitState (py : Python) (git : Git) :
    repositoryIdentity py (collectGitState git) =
      { fullHeadSha := git.revParse.text
        worktreeDirty := some git.dirty
        worktreeDiffFingerprintIfDirty := if git.dirty then git.worktreeFingerprint else "" } := by
  have hsha : (collectGitState git).item "full_head_sha" = .str git.revParse.text := rfl
  have hgithub : (collectGitState git).item "github_sha" = .none := rfl
  have hdirty : (collectGitState git).item "worktree_dirty" = .bool git.dirty := rfl
  have hprint : (collectGitState git).item "worktree_diff_fingerprint_if_dirty" =
      .str (if git.dirty then git.worktreeFingerprint else "") := rfl
  have hnone : Value.none.orElse (.str "") = .str "" := rfl
  unfold repositoryIdentity
  rw [hsha, hgithub, hdirty, hprint, hnone, Value.orElse_empty_str, Value.orElse_empty_str]
  rfl

end Git

section Stability

theorem sourceStabilityFromProvenance_ne (py : Python) (start finish : Dict) :
    sourceStabilityFromProvenance py start finish ≠ "" := by
  unfold sourceStabilityFromProvenance
  split_ifs <;> simp

theorem splitProvenanceEnvelope_sourceStability_ne {py : Python} (hpy : py.Lawful) (value : Dict) :
    (splitProvenanceEnvelope py value).sourceStability ≠ "" := by
  unfold splitProvenanceEnvelope
  split
  · by_cases h : (value.item "source_stability").truthy = true
    · simpa [Value.orElse, h] using Value.text_ne_empty hpy h
    · have hfallback := sourceStabilityFromProvenance_ne py
        (dictOrEmpty (value.item "start_provenance")) (dictOrEmpty (value.item "finish_provenance"))
      simpa [Value.orElse, h, Value.text_str] using hfallback
  · dsimp only
    split_ifs <;> simp

end Stability

end EveTrade.RunProvenance
