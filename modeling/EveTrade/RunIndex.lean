import EveTrade.RunProvenance
import Mathlib.Data.Prod.Lex

set_option autoImplicit false

/-!
# Index of validation runs

Every run is recorded in one index, again and again as its status changes. The index names the
latest completed run, and a pointer file beside it keeps the name for other tools. Asked for the
latest completed run, the reader goes by the index, and by the pointer if the index names none.
-/
namespace EveTrade.RunIndex

open PythonValues RunProvenance

structure Record where
  runId : String
  runPath : String
  runStatus : String
  runStartedAt : String
  runFinishedAt : String
  fullHeadSha : String
  shortHeadSha : String
  branch : String
  worktreeDirty : Bool
  worktreeDiffFingerprintIfDirty : String
  startFullHeadSha : String
  startShortHeadSha : String
  startBranch : String
  startWorktreeDirty : Bool
  startWorktreeDiffFingerprintIfDirty : String
  finishFullHeadSha : String
  finishShortHeadSha : String
  finishBranch : String
  finishWorktreeDirty : Bool
  finishWorktreeDiffFingerprintIfDirty : String
  sourceStability : String
  ciOrLocal : String
  command : String
  exitCode : Int
  diagnosisPath : String
  reportPath : String
deriving DecidableEq

/-- What the file system makes of paths. -/
structure Paths where
  isAbsolute : String → Bool
  /-- The path below the root of the repository, if it lies there. -/
  relativeToRoot : String → Option String
  name : String → String
  runDirExists : String → Bool

def slashed (s : String) : String :=
  String.ofList (s.toList.map fun c => if c = '\\' then '/' else c)

section Records

def defaultSourceStability (runStatus : String) : String :=
  if runStatus = "COMPLETE" then "UNCHANGED"
  else if runStatus = "SOURCE_CHANGED_DURING_RUN" then "CHANGED"
  else "UNKNOWN"

def portableRunPath (paths : Paths) (runPath fallback : String) : String :=
  if paths.isAbsolute runPath then (paths.relativeToRoot runPath).getD fallback else runPath

/-- A record without a run id, or with an exit code that is no number, is refused. -/
def normalizeRecord (py : Python) (paths : Paths) (record : Dict) : Option Record := do
  let runId ← (record.lookup "run_id").map (Value.text py)
  let runStatus := (record.itemD "run_status" (.str "UNKNOWN")).text py
  let exitCode ← ((record.itemD "exit_code" (.int 0)).orElse (.int 0)).toInt py
  let field (key : String) : String := (record.itemD key (.str "")).text py
  let eitherField (key other : String) : String :=
    ((record.item key).orElse (record.itemD other (.str ""))).text py
  let flag (key : String) : Bool := (record.itemD key (.bool false)).truthy
  some
    { runId := runId
      runPath := portableRunPath paths
        (slashed (((record.item "run_path").orElse (.str (".o11y/runs/" ++ runId))).text py))
        (".o11y/runs/" ++ runId)
      runStatus := runStatus
      runStartedAt := field "run_started_at"
      runFinishedAt := field "run_finished_at"
      fullHeadSha := field "full_head_sha"
      shortHeadSha := field "short_head_sha"
      branch := field "branch"
      worktreeDirty := flag "worktree_dirty"
      worktreeDiffFingerprintIfDirty := field "worktree_diff_fingerprint_if_dirty"
      startFullHeadSha := eitherField "start_full_head_sha" "full_head_sha"
      startShortHeadSha := eitherField "start_short_head_sha" "short_head_sha"
      startBranch := eitherField "start_branch" "branch"
      startWorktreeDirty :=
        (record.itemD "start_worktree_dirty" (record.itemD "worktree_dirty" (.bool false))).truthy
      startWorktreeDiffFingerprintIfDirty :=
        eitherField "start_worktree_diff_fingerprint_if_dirty" "worktree_diff_fingerprint_if_dirty"
      finishFullHeadSha := field "finish_full_head_sha"
      finishShortHeadSha := field "finish_short_head_sha"
      finishBranch := field "finish_branch"
      finishWorktreeDirty := flag "finish_worktree_dirty"
      finishWorktreeDiffFingerprintIfDirty := field "finish_worktree_diff_fingerprint_if_dirty"
      sourceStability :=
        (record.itemD "source_stability" (.str (defaultSourceStability runStatus))).text py
      ciOrLocal := field "ci_or_local"
      command := field "command"
      exitCode := exitCode
      diagnosisPath := field "diagnosis_path"
      reportPath := field "report_path" }

/-- Records are kept in the order of their start times and, where these agree, of their ids. -/
def Record.key (r : Record) : String ×ₗ String := toLex (r.runStartedAt, r.runId)

def Record.completed (r : Record) : Bool :=
  r.runStatus == "COMPLETE" && r.sourceStability == "UNCHANGED"

end Records

section Index

structure Index where
  latestStartedRunId : String
  latestCompletedRunId : String
  runs : List Record

def defaultIndex : Index where
  latestStartedRunId := ""
  latestCompletedRunId := ""
  runs := []

structure Files where
  index : Option Index
  pointer : Option String

def loadIndex (files : Files) : Index := files.index.getD defaultIndex

def latestCompleted (records : List Record) : String :=
  match (records.filter Record.completed).getLast? with
  | some r => r.runId
  | none => ""

def sortRecords (records : List Record) : List Record :=
  records.insertionSort fun a b => a.key ≤ b.key

def writeRecord (files : Files) (record : Record) : Files :=
  let kept := (loadIndex files).runs.filter fun item => item.runId != record.runId
  let records := sortRecords (kept ++ [record])
  let latest := latestCompleted records
  { index := some
      { latestStartedRunId := (records.getLast?.map Record.runId).getD ""
        latestCompletedRunId := latest
        runs := records }
    pointer :=
      if record.runStatus = "COMPLETE" ∧ latest = record.runId then
        some (strip record.runId ++ "\n")
      else files.pointer }

/-- A call with a record that is refused raises and writes nothing. -/
def updateRunIndex (py : Python) (paths : Paths) (files : Files) (record : Dict) : Option Files :=
  (normalizeRecord py paths record).map (writeRecord files)

def update (py : Python) (paths : Paths) (files : Files) (record : Dict) : Files :=
  (updateRunIndex py paths files record).getD files

def emptyFiles : Files where
  index := none
  pointer := none

def updateAll (py : Python) (paths : Paths) (calls : List Dict) : Files :=
  calls.foldl (update py paths) emptyFiles

def readLatestPointer (paths : Paths) (files : Files) : String × List String :=
  match files.pointer with
  | none => ("", ["latest pointer is missing"])
  | some content =>
    let value := strip content
    if value = "" then ("", ["latest pointer is empty"])
    else if paths.isAbsolute value ∨ ':' ∈ (slashed value).toList.takeWhile (· ≠ '/') then
      ("", ["latest pointer is machine-specific and ignored: " ++ value])
    else
      let runId := paths.name (slashed value)
      if paths.runDirExists runId then (runId, [])
      else (runId, ["latest pointer target does not exist: " ++ runId])

/-- A record of the index, or what is known of a run that only left its directory. -/
inductive LatestRecord where
  | indexed (record : Record)
  | unindexed (runId runPath runStatus : String)

def LatestRecord.runStatus : LatestRecord → String
  | .indexed r => r.runStatus
  | .unindexed _ _ status => status

def latestRunId (paths : Paths) (files : Files) : String × List String :=
  let runId := (loadIndex files).latestCompletedRunId
  if runId = "" then readLatestPointer paths files else (runId, [])

def latestCompletedRecord (paths : Paths) (files : Files) : Option LatestRecord × List String :=
  let (runId, errors) := latestRunId paths files
  if runId = "" then (none, errors)
  else
    match (loadIndex files).runs.find? (fun r => r.runId == runId) with
    | some r => (some (.indexed r), errors)
    | none =>
      if paths.runDirExists runId then
        (some (.unindexed runId (".o11y/runs/" ++ runId) "UNKNOWN"), errors)
      else (none, errors ++ ["latest completed run not found: " ++ runId])

end Index

section Specification

def written (py : Python) (paths : Paths) (calls : List Dict) : List Record :=
  calls.filterMap (normalizeRecord py paths)

/-- The record is the last one written for its run. -/
def Current (records : List Record) (r : Record) : Prop :=
  records.reverse.find? (fun s => s.runId == r.runId) = some r

/-- The index holds exactly the last record of each run. -/
structure HoldsLast (records runs : List Record) : Prop where
  once : (runs.map Record.runId).Nodup
  mem_iff : ∀ r, r ∈ runs ↔ Current records r

structure LatestOf (records : List Record) (r : Record) : Prop where
  current : Current records r
  completed : r.completed = true
  greatest : ∀ s, Current records s → s.completed = true → s.key ≤ r.key

/-- The answer is the latest completed run, or nothing if no run is completed. -/
def ReturnsLatest (records : List Record) : Option LatestRecord → Prop
  | some (.indexed r) => LatestOf records r
  | some (.unindexed _ _ _) => False
  | none => ∀ r, Current records r → r.completed = false

def ReturnsComplete (answer : Option LatestRecord) : Prop :=
  ∀ l ∈ answer, l.runStatus = "COMPLETE"

def PointsNowhere (paths : Paths) (files : Files) (records : List Record) : Prop :=
  let runId := (readLatestPointer paths files).1
  runId = "" ∨ (∀ r, Current records r → r.runId ≠ runId) ∧ paths.runDirExists runId = false

end Specification

section Writing

variable {files : Files} {records : List Record} {record r s : Record}

theorem current_append : Current (records ++ [record]) r ↔
    r = record ∨ r.runId ≠ record.runId ∧ Current records r := by
  unfold Current
  rw [List.reverse_append, List.reverse_singleton, List.singleton_append, List.find?_cons]
  by_cases h : record.runId = r.runId
  · simp only [h, beq_self_eq_true, Option.some.injEq, ne_eq, not_true_eq_false, false_and, or_false]
    exact eq_comm
  · have hb : (record.runId == r.runId) = false := by simpa using h
    simp only [hb]
    constructor
    · intro hr
      exact .inr ⟨fun he => h he.symm, hr⟩
    · rintro (rfl | ⟨-, hr⟩)
      · exact absurd rfl h
      · exact hr

theorem Current.eq (hr : Current records r) (hs : Current records s) (h : r.runId = s.runId) :
    r = s := by
  unfold Current at hr hs
  rw [h, hs] at hr
  exact (Option.some.inj hr).symm

theorem runs_writeRecord : (loadIndex (writeRecord files record)).runs =
    sortRecords ((loadIndex files).runs.filter (fun item => item.runId != record.runId) ++
      [record]) := rfl

theorem latest_writeRecord : (loadIndex (writeRecord files record)).latestCompletedRunId =
    latestCompleted (loadIndex (writeRecord files record)).runs := rfl

theorem sortRecords_perm (l : List Record) : (sortRecords l).Perm l :=
  List.perm_insertionSort _ _

theorem sortRecords_sorted (l : List Record) : (sortRecords l).Pairwise fun a b => a.key ≤ b.key :=
  List.pairwise_insertionSort _ l

/-- What holds of the index between calls. -/
structure Inv (files : Files) (records : List Record) : Prop where
  holds : HoldsLast records (loadIndex files).runs
  sorted : (loadIndex files).runs.Pairwise fun a b => a.key ≤ b.key
  latest : (loadIndex files).latestCompletedRunId = latestCompleted (loadIndex files).runs

theorem inv_empty : Inv emptyFiles [] where
  holds := { once := List.nodup_nil, mem_iff := fun r => by simp [Current, loadIndex, emptyFiles,
    defaultIndex] }
  sorted := List.Pairwise.nil
  latest := rfl

theorem HoldsLast.write (h : HoldsLast records (loadIndex files).runs) (record : Record) :
    HoldsLast (records ++ [record]) (loadIndex (writeRecord files record)).runs where
  once := by
    rw [runs_writeRecord]
    have hperm := (sortRecords_perm ((loadIndex files).runs.filter
      (fun item => item.runId != record.runId) ++ [record])).map Record.runId
    refine hperm.nodup_iff.mpr ?_
    rw [List.map_append, List.nodup_append]
    refine ⟨h.once.sublist (List.filter_sublist.map _), by simp, ?_⟩
    intro a ha b hb
    obtain ⟨item, hitem, rfl⟩ := List.mem_map.mp ha
    have hne := (List.mem_filter.mp hitem).2
    simp only [List.map_cons, List.map_nil, List.mem_singleton] at hb
    simpa [hb] using hne
  mem_iff := by
    intro r
    rw [runs_writeRecord, (sortRecords_perm _).mem_iff, current_append, ← h.mem_iff]
    simp only [List.mem_append, List.mem_filter, bne_iff_ne, List.mem_singleton]
    tauto

theorem Inv.write (h : Inv files records) (record : Record) :
    Inv (writeRecord files record) (records ++ [record]) where
  holds := h.holds.write record
  sorted := sortRecords_sorted _
  latest := latest_writeRecord

theorem inv_updateAll (py : Python) (paths : Paths) (calls : List Dict) :
    Inv (updateAll py paths calls) (written py paths calls) := by
  induction calls using List.reverseRecOn with
  | nil => exact inv_empty
  | append_singleton calls call ih =>
    unfold updateAll written at *
    rw [List.foldl_append, List.filterMap_append, List.foldl_cons, List.foldl_nil]
    cases hrecord : normalizeRecord py paths call with
    | none => simpa [update, updateRunIndex, hrecord] using ih
    | some record => simpa [update, updateRunIndex, hrecord] using ih.write record

end Writing

section Reading

variable {files : Files} {records : List Record} {r : Record} {paths : Paths}

theorem latestCompleted_cases (l : List Record) :
    (latestCompleted l = "" ∧ ∀ r ∈ l, r.completed = false) ∨
    ∃ r, (l.filter Record.completed).getLast? = some r ∧ latestCompleted l = r.runId := by
  unfold latestCompleted
  cases hlast : (l.filter Record.completed).getLast? with
  | none =>
    rw [List.getLast?_eq_none_iff] at hlast
    refine .inl ⟨rfl, fun r hr => ?_⟩
    have := List.filter_eq_nil_iff.mp hlast r hr
    simpa using this
  | some r => exact .inr ⟨r, rfl, rfl⟩

theorem Inv.latestOf_of_getLast? (h : Inv files records)
    (hr : ((loadIndex files).runs.filter Record.completed).getLast? = some r) :
    LatestOf records r := by
  obtain ⟨before, hsplit⟩ := List.getLast?_eq_some_iff.mp hr
  have hmem : r ∈ (loadIndex files).runs.filter Record.completed := by simp [hsplit]
  obtain ⟨hruns, hcompleted⟩ := List.mem_filter.mp hmem
  refine ⟨(h.holds.mem_iff r).mp hruns, hcompleted, fun s hs hscompleted => ?_⟩
  have hsmem : s ∈ (loadIndex files).runs.filter Record.completed :=
    List.mem_filter.mpr ⟨(h.holds.mem_iff s).mpr hs, hscompleted⟩
  have hsorted := h.sorted.sublist (List.filter_sublist (p := Record.completed))
  rw [hsplit] at hsorted hsmem
  rcases List.mem_append.mp hsmem with hbefore | hlast
  · exact (List.pairwise_append.mp hsorted).2.2 s hbefore r (by simp)
  · rw [List.mem_singleton.mp hlast]

theorem LatestOf.eq {s : Record} (hr : LatestOf records r) (hs : LatestOf records s) : r = s := by
  have hkey : r.key = s.key :=
    le_antisymm (hs.greatest r hr.current hr.completed) (hr.greatest s hs.current hs.completed)
  have hid : r.runId = s.runId := (Prod.mk.inj (toLex.injective hkey)).2
  exact hr.current.eq hs.current hid

theorem Inv.find_eq (h : Inv files records) (hr : Current records r) :
    (loadIndex files).runs.find? (fun s => s.runId == r.runId) = some r := by
  have hmem := (h.holds.mem_iff r).mpr hr
  cases hfind : (loadIndex files).runs.find? (fun s => s.runId == r.runId) with
  | none => exact absurd (List.find?_eq_none.mp hfind r hmem) (by simp)
  | some s =>
    have hid : s.runId = r.runId := by simpa using List.find?_some hfind
    have hs := (h.holds.mem_iff s).mp (List.mem_of_find?_eq_some hfind)
    rw [hs.eq hr hid]

theorem Inv.find_eq_none (h : Inv files records) {runId : String} :
    (loadIndex files).runs.find? (fun s => s.runId == runId) = none ↔
      ∀ s, Current records s → s.runId ≠ runId := by
  rw [List.find?_eq_none]
  constructor
  · intro hnone s hs
    simpa using hnone s ((h.holds.mem_iff s).mpr hs)
  · intro hnone s hs
    simpa using hnone s ((h.holds.mem_iff s).mp hs)

theorem Inv.answer_of_latest (h : Inv files records) (hr : LatestOf records r)
    (hid : (loadIndex files).latestCompletedRunId = r.runId) (hne : r.runId ≠ "") :
    (latestCompletedRecord paths files).1 = some (.indexed r) := by
  have hlatest : latestRunId paths files = (r.runId, []) := by
    simp [latestRunId, hid, hne]
  simp [latestCompletedRecord, hlatest, hne, h.find_eq hr.current]

theorem answer_of_pointer (hid : (loadIndex files).latestCompletedRunId = "") :
    latestRunId paths files = readLatestPointer paths files := by
  simp [latestRunId, hid]

theorem Inv.answer_eq_none_iff (h : Inv files records)
    (hid : (loadIndex files).latestCompletedRunId = "") :
    (latestCompletedRecord paths files).1 = none ↔ PointsNowhere paths files records := by
  have hnone : (loadIndex files).runs.find?
      (fun s => s.runId == (readLatestPointer paths files).1) = none ↔
        ∀ s, Current records s → s.runId ≠ (readLatestPointer paths files).1 := h.find_eq_none
  unfold latestCompletedRecord
  rw [answer_of_pointer hid]
  dsimp only [PointsNowhere]
  rw [← hnone]
  by_cases hempty : (readLatestPointer paths files).1 = ""
  · simp [hempty]
  · rw [if_neg hempty]
    cases hfind : (loadIndex files).runs.find?
        (fun s => s.runId == (readLatestPointer paths files).1) with
    | some s => simp [hempty]
    | none =>
      cases hdir : paths.runDirExists (readLatestPointer paths files).1 <;> simp [hempty]

theorem runId_of_answer (hid : (loadIndex files).latestCompletedRunId = "")
    (h : (latestCompletedRecord paths files).1 = some (.indexed r)) : r.runId ≠ "" := by
  unfold latestCompletedRecord at h
  rw [answer_of_pointer hid] at h
  dsimp only at h
  by_cases hempty : (readLatestPointer paths files).1 = ""
  · simp [hempty] at h
  · rw [if_neg hempty] at h
    cases hfind : (loadIndex files).runs.find?
        (fun s => s.runId == (readLatestPointer paths files).1) with
    | none =>
      rw [hfind] at h
      cases hdir : paths.runDirExists (readLatestPointer paths files).1 <;> simp [hdir] at h
    | some s =>
      have hs : s = r := by simpa [hfind] using h
      have hrun : s.runId = (readLatestPointer paths files).1 := by
        simpa using List.find?_some hfind
      rw [← hs, hrun]
      exact hempty

end Reading

section FailedReport

def plainPaths : Paths where
  isAbsolute s := startsWith s '/'
  relativeToRoot _ := none
  name s := s
  runDirExists _ := true

def recordedRun (status : String) : Dict :=
  [("run_id", .str "r1"), ("run_status", .str status), ("run_started_at", .str "2026-07-10T00:00:00")]

end FailedReport

end EveTrade.RunIndex
