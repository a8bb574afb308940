import EveTrade.JsonTree
import EveTrade.RunProvenance
import EveTrade.SimulatorClient

set_option autoImplicit false

/-!
# Evidence bundles of build jobs

Every job writes a bundle that names the run it belongs to and carries a digest of its own content.
The aggregate job admits a bundle only if it belongs to the same run. The digest tells every change
of a bundle that has one; a bundle without one is admitted unseen.
-/
namespace EveTrade.CiEvidence

open JsonText JsonTree PythonValues TransactionMonad
open EveTrade.SimulatorClient (asciiChar quoteAscii hex4 codePointsLE)
open EveTrade.RunProvenance (strip)

section Quoting

def hex4Value (a b c d : Char) : ℕ :=
  4096 * hexValue a + 256 * hexValue b + 16 * hexValue c + hexValue d

/-- Reads back what `asciiChar` wrote; two surrogates are one character. -/
def readAscii : List Char → Option (Char × List Char)
  | '\x5c' :: 'u' :: a :: b :: c :: d :: r =>
    let n := hex4Value a b c d
    if n < 55296 ∨ 56320 ≤ n then some (Char.ofNat n, r)
    else
      match r with
      | _ :: _ :: e :: f :: g :: h :: r =>
        some (Char.ofNat (65536 + (n - 55296) * 1024 + (hex4Value e f g h - 56320)), r)
      | _ => none
  | s => unescapeHead s

theorem hexValue_hexDigit {n : ℕ} (h : n < 16) : hexValue (hexDigit n) = n := by
  interval_cases n <;> decide

theorem hex4Value_hex4 {n : ℕ} (h : n < 65536) :
    hex4Value (hexDigit (n / 4096 % 16)) (hexDigit (n / 256 % 16)) (hexDigit (n / 16 % 16))
      (hexDigit (n % 16)) = n := by
  unfold hex4Value
  repeat rw [hexValue_hexDigit (Nat.mod_lt _ (by decide))]
  omega

theorem readAscii_hex4 {n : ℕ} (h : n < 65536) (hs : n < 55296 ∨ 56320 ≤ n) (r : List Char) :
    readAscii (['\x5c', 'u'] ++ hex4 n ++ r) = some (Char.ofNat n, r) := by
  change (if hex4Value _ _ _ _ < 55296 ∨ 56320 ≤ hex4Value _ _ _ _ then _ else _) = _
  rw [hex4Value_hex4 h, if_pos hs]
  rfl

theorem readAscii_surrogates {m n : ℕ} (hm : m < 1024) (hn : n < 1024) (r : List Char) :
    readAscii (['\x5c', 'u'] ++ hex4 (55296 + m) ++ ['\x5c', 'u'] ++ hex4 (56320 + n) ++ r) =
      some (Char.ofNat (65536 + m * 1024 + n), r) := by
  change (if hex4Value _ _ _ _ < 55296 ∨ 56320 ≤ hex4Value _ _ _ _ then _ else some (Char.ofNat
    (65536 + (hex4Value _ _ _ _ - 55296) * 1024 + (hex4Value _ _ _ _ - 56320)), r)) = _
  rw [hex4Value_hex4 (by omega), hex4Value_hex4 (by omega), if_neg (by omega)]
  simp

theorem readAscii_escapeChar {c : Char} (h : c.toNat < 127) (r : List Char) :
    readAscii (escapeChar c ++ r) = some (c, r) := by
  have hc : c = Char.ofNat c.toNat := (Char.ofNat_toNat c).symm
  generalize hn : c.toNat = n at h
  rw [hc, hn]
  interval_cases n <;> rfl

theorem readAscii_asciiChar (c : Char) (r : List Char) :
    readAscii (asciiChar c ++ r) = some (c, r) := by
  have hvalid : c.toNat < 55296 ∨ 57343 < c.toNat ∧ c.toNat < 1114112 := c.valid
  unfold asciiChar
  split_ifs with h1 h2
  · exact readAscii_escapeChar h1 r
  · rw [readAscii_hex4 h2 (by omega), Char.ofNat_toNat]
  · rw [readAscii_surrogates (by omega) (by omega)]
    have hsum : 65536 + (c.toNat - 65536) / 1024 * 1024 + (c.toNat - 65536) % 1024 = c.toNat := by
      omega
    rw [hsum, Char.ofNat_toNat]

theorem asciiChar_split {a b : Char} {s t : List Char}
    (h : asciiChar a ++ s = asciiChar b ++ t) : a = b ∧ s = t := by
  have ha := readAscii_asciiChar a s
  rw [h, readAscii_asciiChar] at ha
  simpa [eq_comm] using ha

theorem asciiChar_ne_quote (c : Char) (s t : List Char) : asciiChar c ++ s ≠ '\x22' :: t := by
  unfold asciiChar
  split_ifs
  · exact escapeChar_ne_quote c s t
  · simp
  · simp

def asciiQuoting : Quoting where
  quote := quoteAscii
  opens _ := ⟨_, rfl⟩
  split := by
    intro a b s t h
    have hsplit := flatMap_quote_split asciiChar_split asciiChar_ne_quote a.toList b.toList s t
      (by simpa [quoteAscii] using h)
    exact ⟨String.toList_injective hsplit.1, hsplit.2⟩

end Quoting

/-- What the scripts take from the interpreter and its libraries. -/
structure Runtime extends Python where
  /-- The text of a float other than negative zero, the infinities and NaN. -/
  floatWord : ℚ → Word
  sha256Hex : String → String

section Digest

variable (rt : Runtime)

def floatText : PyFloat → Word
  | .finite q => rt.floatWord q
  | .negativeZero => ⟨['-', '0', '.', '0'], by decide, by decide⟩
  | .infinity false => ⟨"Infinity".toList, by decide, by decide⟩
  | .infinity true => ⟨"-Infinity".toList, by decide, by decide⟩
  | .nan => ⟨['N', 'a', 'N'], by decide, by decide⟩

theorem numberText_all (n : Int) : (numberText n).all isWordChar = true := by
  have digits : ∀ k : ℕ, (Nat.toDigits 10 k).all isWordChar = true := by
    intro k
    rw [List.all_eq_true]
    intro c hc
    exact isWordChar_of (Nat.isDigit_of_mem_toDigits (by decide) (by decide) hc) (by decide)
  cases n with
  | ofNat k => exact digits k
  | negSucc k => exact (Bool.and_eq_true _ _).mpr ⟨by decide, digits (k + 1)⟩

theorem numberText_ne_nil (n : Int) : numberText n ≠ [] := by
  cases n with
  | ofNat k => exact Nat.toDigits_ne_nil
  | negSucc k => simp [numberText]

mutual

/-- A value as `json.dumps` sees it with sorted keys. -/
def canonical : Value → Tree
  | .none => .bare ⟨['n', 'u', 'l', 'l'], by decide, by decide⟩
  | .bool true => .bare ⟨['t', 'r', 'u', 'e'], by decide, by decide⟩
  | .bool false => .bare ⟨['f', 'a', 'l', 's', 'e'], by decide, by decide⟩
  | .int n => .bare ⟨numberText n, numberText_ne_nil n, numberText_all n⟩
  | .float x => .bare (floatText rt x)
  | .str s => .str s
  | .list items => .arr (canonicalItems items)
  | .tuple items => .arr (canonicalItems items)
  | .dict entries => .obj (sortEntries (canonicalEntries entries))

def canonicalItems : List Value → List Tree
  | [] => []
  | x :: xs => canonical x :: canonicalItems xs

def canonicalEntries : List (String × Value) → List (String × Tree)
  | [] => []
  | (k, v) :: es => (k, canonical v) :: canonicalEntries es

end

def unsigned (value : Dict) : Dict := value.filter fun e => e.1 != "artifact_digest"

def encoded (value : Dict) : String :=
  String.ofList (text asciiQuoting (canonical rt (.dict (unsigned value))))

def canonicalDigest (value : Dict) : String := "sha256:" ++ rt.sha256Hex (encoded rt value)

end Digest

section Context

def evidenceSchemaVersion : String := "o11y.ci-evidence.v2"

def commandEvidenceSchemaVersion : String := "o11y.ci-command-evidence.v1"

def maxCommandRecords : ℕ := 64

def requiredContextFields : List String :=
  ["repository", "branch_ref", "commit_sha", "workflow", "run_id", "run_attempt"]

/-- The entries of a run context; what is missing reads as the empty text. -/
abbrev Context := String → String

def githubContext (env : String → String) : Context
  | "repository" => env "GITHUB_REPOSITORY"
  | "branch_ref" => env "GITHUB_REF"
  | "commit_sha" => env "GITHUB_SHA"
  | "workflow" => env "GITHUB_WORKFLOW"
  | "run_id" => env "GITHUB_RUN_ID"
  | "run_attempt" => env "GITHUB_RUN_ATTEMPT"
  | _ => ""

def contextEntries (context : Context) : Dict :=
  requiredContextFields.map fun field => (field, .str (context field))

def requireContext (context : Context) : Except String Unit :=
  let missing := requiredContextFields.filter fun field => context field == ""
  check (missing = []) ("missing GitHub context: " ++ ", ".intercalate missing)

theorem requireContext_eq_ok {context : Context} {u : Unit} :
    requireContext context = .ok u ↔ ∀ field ∈ requiredContextFields, context field ≠ "" := by
  simp [requireContext]

variable (rt : Runtime)

def actual (bundle : Dict) (field : String) : String :=
  (bundle.itemD field (.str "")).text rt.toPython

def contextMismatch (bundle : Dict) (expected : Context) (field : String) : Bool :=
  actual rt bundle field == "" || actual rt bundle field != expected field

def verifyEvidenceContext (bundle : Dict) (expected : Context) : List String :=
  (if (bundle.item "schema_version").isStr evidenceSchemaVersion then []
    else ["unsupported evidence schema"]) ++
  (requiredContextFields.filter (contextMismatch rt bundle expected)).map (fun field =>
    field ++ " mismatch: expected " ++ rt.repr (.str (expected field)) ++ ", got " ++
      rt.repr (.str (actual rt bundle field))) ++
  (if !(bundle.item "collector_status").isStr "COMPLETE" && bundle.has "artifact_digest" then
    ["collector did not complete"] else []) ++
  (if bundle.has "artifact_digest" &&
      !(bundle.item "artifact_digest").isStr (canonicalDigest rt bundle) then
    ["artifact digest mismatch"] else [])

end Context

section Files

inductive Content where
  | unreadable (reason : String)
  | json (value : Value)

def readJson : Content → Except String Dict
  | .unreadable reason => .error reason
  | .json (.dict parsed) => .ok parsed
  | .json _ => .error "evidence JSON must be an object"

abbrev Directory := List (String × Content)

/-- `sorted(path.glob("*.json"))`. -/
def jsonFiles (directory : Directory) : Directory :=
  (directory.filter fun f => ".json".toList.isSuffixOf f.1.toList).insertionSort
    fun f g => codePointsLE f.1 g.1

variable (rt : Runtime)

def examine (expected : Context) (content : Content) : Except (List String) Dict :=
  match readJson content with
  | .error reason => .error ["corrupted artifact: " ++ reason]
  | .ok bundle =>
    match verifyEvidenceContext rt bundle expected with
    | [] => .ok bundle
    | messages => .error messages

/-- The bundles admitted, and the errors of the files that were not. -/
def loadEvidenceDirectory (path : String) (directory : Option Directory) (expected : Context) :
    List Dict × List String :=
  match directory with
  | none => ([], ["producer evidence directory is missing: " ++ path])
  | some files =>
    ((jsonFiles files).filterMap fun f => (examine rt expected f.2).toOption,
      (jsonFiles files).flatMap fun f =>
        match examine rt expected f.2 with
        | .ok _ => []
        | .error messages => messages.map fun message => f.1 ++ ": " ++ message)

end Files

section Bundles

variable (rt : Runtime)

structure Job where
  jobId : String
  jobName : String
  stepIdentity : String
  commandIdentity : String
  status : String
  dependencies : List String

/-- What every file of a job begins with. -/
def contextHeader (context : Context) : Dict :=
  ("schema_version", .str evidenceSchemaVersion) :: contextEntries context

def startRecord (context : Context) (job : Job) (now : String) : Dict :=
  contextHeader context ++ [("job_id", .str job.jobId), ("job_name", .str job.jobName),
    ("started_at", .str now)]

def startEvidence (env : String → String) (job : Job) (now : String) : Except String Dict := do
  requireContext (githubContext env)
  return startRecord (githubContext env) job now

def expectedCommand (context : Context) (job : Job) : List (String × String) :=
  [("schema_version", commandEvidenceSchemaVersion), ("repository", context "repository"),
    ("sha", context "commit_sha"), ("workflow_run_id", context "run_id"),
    ("workflow_run_attempt", context "run_attempt"), ("job_id", job.jobId),
    ("job_name", job.jobName)]

def readCommandRecord (context : Context) (job : Job) (file : String × Content) :
    Except String Value := do
  let record ← readJson file.2
  let mismatches := (expectedCommand context job).filter fun e => !(record.item e.1).isStr e.2
  check (mismatches.map Prod.fst = []) ("command evidence context mismatch in " ++ file.1 ++ ": " ++
    ", ".intercalate (mismatches.map Prod.fst))
  return .dict record

def loadCommandRecords (directory : Option Directory) (context : Context) (job : Job) :
    Except String (List Value) :=
  match directory with
  | none => .ok []
  | some files => ((jsonFiles files).take maxCommandRecords).mapM (readCommandRecord context job)

def unsignedBundle (env : String → String) (job : Job) (status : String) (startedAt : Value)
    (commands : List Value) (now : String) : Dict :=
  contextHeader (githubContext env) ++
    [("job_id", .str job.jobId), ("job_name", .str job.jobName),
      ("step_identity", .str job.stepIdentity), ("started_at", startedAt), ("ended_at", .str now),
      ("command_identity", .str job.commandIdentity), ("exit_status", .str status),
      ("normalized_diagnostic", .dict [
        ("class", .str (if status = "success" then "NONE" else "OBSERVED_FAILURE")),
        ("summary", .str ("Job " ++ job.jobName ++ " concluded " ++ status ++ ".")),
        ("caused_by", .list [])]),
      ("dependencies", .list ((job.dependencies.dedup.insertionSort codePointsLE).map .str)),
      ("commands", .list commands), ("collector_status", .str "COMPLETE"),
      ("provenance", .dict [("event_name", .str (env "GITHUB_EVENT_NAME")),
        ("runner_name", .str (env "RUNNER_NAME")), ("runner_os", .str (env "RUNNER_OS"))])]

def sign (bundle : Dict) : Dict :=
  bundle ++ [("artifact_digest", .str (canonicalDigest rt bundle))]

def startErrors (started : Dict) (context : Context) (job : Job) : List String :=
  verifyEvidenceContext rt started context ++
    if !(started.item "job_id").isStr job.jobId || !(started.item "job_name").isStr job.jobName then
      ["start marker job identity does not match final evidence"]
    else []

/-- An entry that has to be there. -/
def required (d : Dict) (key : String) : Except String Value :=
  match d.lookup key with
  | some v => .ok v
  | none => .error ("'" ++ key ++ "'")

def finishEvidence (env : String → String) (start : Content) (commands : Option Directory)
    (job : Job) (now : String) : Except String Dict := do
  let context := githubContext env
  requireContext context
  let started ← readJson start
  check (startErrors rt started context job = [])
    ("; ".intercalate (startErrors rt started context job))
  let status := rt.lower (strip job.status)
  check (status ∈ ["success", "failure", "cancelled", "skipped"])
    ("unsupported job status: " ++ rt.repr (.str job.status))
  let records ← loadCommandRecords commands context job
  let startedAt ← required started "started_at"
  return sign rt (unsignedBundle env job status startedAt records now)

end Bundles

section Admission

variable {rt : Runtime} {expected : Context} {bundle : Dict}

/-- The bundle names the run in all required fields. -/
def MatchesRun (rt : Runtime) (bundle : Dict) (expected : Context) : Prop :=
  (bundle.item "schema_version").isStr evidenceSchemaVersion = true ∧
    ∀ field ∈ requiredContextFields,
      actual rt bundle field ≠ "" ∧ actual rt bundle field = expected field

/-- The bundle is complete and carries the digest of its other fields. -/
def Sealed (rt : Runtime) (bundle : Dict) : Prop :=
  (bundle.item "artifact_digest").isStr (canonicalDigest rt bundle) = true ∧
    (bundle.item "collector_status").isStr "COMPLETE" = true

theorem verify_eq_nil_iff : verifyEvidenceContext rt bundle expected = [] ↔
    MatchesRun rt bundle expected ∧
      (bundle.has "artifact_digest" = true → Sealed rt bundle) := by
  have hfields : (requiredContextFields.filter (contextMismatch rt bundle expected)) = [] ↔
      ∀ field ∈ requiredContextFields,
        actual rt bundle field ≠ "" ∧ actual rt bundle field = expected field := by
    rw [List.filter_eq_nil_iff]
    simp [contextMismatch]
  simp only [verifyEvidenceContext, List.append_eq_nil_iff, List.map_eq_nil_iff, hfields,
    MatchesRun, Sealed]
  cases bundle.has "artifact_digest" <;> simp [and_assoc, and_comm]

theorem has_of_sealed (h : Sealed rt bundle) : bundle.has "artifact_digest" = true := by
  obtain ⟨hdigest, -⟩ := h
  rw [Value.isStr_iff] at hdigest
  cases hlookup : bundle.lookup "artifact_digest" with
  | none => simp [Dict.item, hlookup] at hdigest
  | some v => simp [Dict.has, hlookup]

theorem examine_ok_iff {content : Content} : examine rt expected content = .ok bundle ↔
    content = .json (.dict bundle) ∧ verifyEvidenceContext rt bundle expected = [] := by
  rcases content with reason | v
  · simp [examine, readJson]
  · cases v with
    | dict d =>
      simp only [examine, readJson, Content.json.injEq, Value.dict.injEq]
      cases hverify : verifyEvidenceContext rt d expected with
      | nil =>
        simp only [Except.ok.injEq]
        constructor
        · rintro rfl
          exact ⟨rfl, hverify⟩
        · exact And.left
      | cons message messages =>
        simp only [reduceCtorEq, false_iff, not_and]
        rintro rfl
        simp [hverify]
    | _ => simp [examine, readJson]

theorem mem_evidence_iff (path : String) {files : Directory} :
    bundle ∈ (loadEvidenceDirectory rt path (some files) expected).1 ↔
      (∃ name, (name, Content.json (.dict bundle)) ∈ jsonFiles files) ∧
        verifyEvidenceContext rt bundle expected = [] := by
  have hopt : ∀ content, (examine rt expected content).toOption = some bundle ↔
      examine rt expected content = .ok bundle := by
    intro content
    cases examine rt expected content <;> simp [Except.toOption]
  simp only [loadEvidenceDirectory, List.mem_filterMap, hopt, examine_ok_iff]
  constructor
  · rintro ⟨⟨name, content⟩, hmem, rfl, hverify⟩
    exact ⟨⟨name, hmem⟩, hverify⟩
  · rintro ⟨⟨name, hmem⟩, hverify⟩
    exact ⟨_, hmem, rfl, hverify⟩

theorem error_of_refused {path name : String} {files : Directory}
    (hmem : (name, Content.json (.dict bundle)) ∈ jsonFiles files)
    (hverify : verifyEvidenceContext rt bundle expected ≠ []) :
    ∃ message, name ++ ": " ++ message ∈
      (loadEvidenceDirectory rt path (some files) expected).2 := by
  cases hm : verifyEvidenceContext rt bundle expected with
  | nil => exact absurd hm hverify
  | cons message messages =>
    refine ⟨message, List.mem_flatMap.mpr ⟨_, hmem, ?_⟩⟩
    simp [examine, readJson, hm]

/-- In no directory is the bundle used, and every file that holds it is reported. -/
def Rejected (rt : Runtime) (expected : Context) (bundle : Dict) : Prop :=
  ∀ (path : String) (files : Directory),
    bundle ∉ (loadEvidenceDirectory rt path (some files) expected).1 ∧
      ∀ name, (name, Content.json (.dict bundle)) ∈ jsonFiles files →
        ∃ message, name ++ ": " ++ message ∈
          (loadEvidenceDirectory rt path (some files) expected).2

theorem rejected_iff : Rejected rt expected bundle ↔
    verifyEvidenceContext rt bundle expected ≠ [] := by
  constructor
  · intro h hverify
    refine (h "" [("bundle.json", .json (.dict bundle))]).1
      ((mem_evidence_iff _).mpr ⟨⟨"bundle.json", ?_⟩, hverify⟩)
    have hname : ".json".toList.isSuffixOf "bundle.json".toList = true := by decide
    rw [jsonFiles, List.mem_insertionSort, List.mem_filter]
    exact ⟨List.mem_singleton.mpr rfl, hname⟩
  · intro hverify path files
    exact ⟨fun hmem => hverify ((mem_evidence_iff _).mp hmem).2, fun _ hfile =>
      error_of_refused hfile hverify⟩

end Admission

section Tampering

variable {rt : Runtime} {a b : Dict}

/-- The content that the digest covers, up to the order of keys. -/
def signedPart (rt : Runtime) (bundle : Dict) : Tree := canonical rt (.dict (unsigned bundle))

/-- Another bundle made from `b` without computing its digest. -/
inductive Tampered (rt : Runtime) (b a : Dict) : Prop
  | kept (same : a.lookup "artifact_digest" = b.lookup "artifact_digest")
      (changed : signedPart rt a ≠ signedPart rt b)
  | removed (gone : a.lookup "artifact_digest" = none)
  | overwritten (wrong : (a.item "artifact_digest").isStr (canonicalDigest rt a) = false)

theorem unsigned_sign (bundle : Dict) : unsigned (sign rt bundle) = unsigned bundle := by
  simp [unsigned, sign]

theorem finishEvidence_eq_ok {env : String → String} {start : Content}
    {commands : Option Directory} {job : Job} {now : String} :
    finishEvidence rt env start commands job now = .ok b ↔
      (∀ field ∈ requiredContextFields, githubContext env field ≠ "") ∧
        ∃ started, readJson start = .ok started ∧
        startErrors rt started (githubContext env) job = [] ∧
        rt.lower (strip job.status) ∈ ["success", "failure", "cancelled", "skipped"] ∧
        ∃ records, loadCommandRecords commands (githubContext env) job = .ok records ∧
          ∃ startedAt, required started "started_at" = .ok startedAt ∧
            b = sign rt (unsignedBundle env job (rt.lower (strip job.status)) startedAt records
              now) := by
  simp only [finishEvidence, except_bind_eq_ok, check_eq_ok, requireContext_eq_ok, pure,
    Except.pure, Except.ok.injEq, exists_const, eq_comm (b := b)]

theorem lookup_sign (env : String → String) (job : Job) (status : String) (startedAt : Value)
    (records : List Value) (now : String) :
    let bundle := sign rt (unsignedBundle env job status startedAt records now)
    bundle.lookup "artifact_digest" = some (.str (canonicalDigest rt bundle)) := by
  intro bundle
  have hdigest : canonicalDigest rt bundle =
      canonicalDigest rt (unsignedBundle env job status startedAt records now) := by
    simp only [canonicalDigest, encoded, bundle, unsigned_sign]
  rw [hdigest]
  rfl

theorem not_sealed_of_tampered {env : String → String} {start : Content}
    {commands : Option Directory} {job : Job} {now : String}
    (hfinish : finishEvidence rt env start commands job now = .ok b) (htampered : Tampered rt b a)
    (hcollision : rt.sha256Hex (encoded rt a) = rt.sha256Hex (encoded rt b) →
      encoded rt a = encoded rt b) : ¬Sealed rt a := by
  rintro ⟨hdigest, -⟩
  cases htampered with
  | kept same changed =>
    obtain ⟨-, _, -, -, -, records, -, startedAt, -, rfl⟩ := finishEvidence_eq_ok.mp hfinish
    rw [lookup_sign] at same
    rw [Value.isStr_iff, Dict.item, same, Option.getD_some, Value.str.injEq] at hdigest
    have htext := hcollision (String.append_right_inj "sha256:" |>.mp hdigest.symm)
    exact changed (text_injective (String.ofList_injective htext))
  | removed gone => simp [Dict.item, gone, Value.isStr] at hdigest
  | overwritten wrong => rw [wrong] at hdigest; exact absurd hdigest (by decide)

theorem admitted_sealed_iff (path : String) (files : Directory) (expected : Context) :
    (∀ bundle ∈ (loadEvidenceDirectory rt path (some files) expected).1,
      Sealed rt bundle ∧ MatchesRun rt bundle expected) ↔
    ∀ (name : String) (bundle : Dict), (name, Content.json (.dict bundle)) ∈ jsonFiles files →
      MatchesRun rt bundle expected → bundle.has "artifact_digest" = true := by
  constructor
  · intro h name bundle hfile hmatch
    by_contra hno
    have hmem := (mem_evidence_iff path).mpr ⟨⟨name, hfile⟩, verify_eq_nil_iff.mpr
      ⟨hmatch, fun hhas => absurd hhas hno⟩⟩
    exact hno (has_of_sealed (h bundle hmem).1)
  · intro h bundle hmem
    obtain ⟨⟨name, hfile⟩, hverify⟩ := (mem_evidence_iff _).mp hmem
    obtain ⟨hmatch, hsealed⟩ := verify_eq_nil_iff.mp hverify
    exact ⟨hsealed (h name bundle hfile hmatch), hmatch⟩

/-- Bundles are trustworthy, and altered ones refused, exactly as far as they carry a digest. -/
theorem digest_guards_admission_iff (rt : Runtime) :
    (∀ path files expected,
      (∀ bundle ∈ (loadEvidenceDirectory rt path (some files) expected).1,
        Sealed rt bundle ∧ MatchesRun rt bundle expected) ↔
      ∀ (name : String) (bundle : Dict), (name, Content.json (.dict bundle)) ∈ jsonFiles files →
        MatchesRun rt bundle expected → bundle.has "artifact_digest" = true) ∧
    ∀ env start commands job now b, finishEvidence rt env start commands job now = .ok b →
      ∀ a, Tampered rt b a →
        (rt.sha256Hex (encoded rt a) = rt.sha256Hex (encoded rt b) → encoded rt a = encoded rt b) →
        ∀ expected, Rejected rt expected a ↔
          a.has "artifact_digest" = true ∨ ¬MatchesRun rt a expected := by
  refine ⟨admitted_sealed_iff, ?_⟩
  intro env start commands job now b hfinish a htampered hcollision expected
  have hsealed := not_sealed_of_tampered hfinish htampered hcollision
  rw [rejected_iff, Ne, verify_eq_nil_iff]
  tauto

end Tampering

section Runs

/-- A run on fixed inputs: texts are their own digests. -/
def plainRuntime : Runtime where
  toPython := decimalPython
  floatWord _ := zeroWord
  sha256Hex s := s

def buildEnv (_ : String) : String := "1"

def lintJob : Job := ⟨"lint", "Lint", "lint", "make lint", "failure", []⟩

def startMarker : Content :=
  .json (.dict (((startEvidence buildEnv lintJob "t0").toOption).getD []))

def failedBundle : Dict :=
  ((finishEvidence plainRuntime buildEnv startMarker none lintJob "t1").toOption).getD []

/-- The same bundle with another verdict. -/
def forgedBundle : Dict :=
  failedBundle.map fun e => if e.1 = "exit_status" then (e.1, .str "success") else e

theorem forgedBundle_rejected :
    ∃ b, finishEvidence plainRuntime buildEnv startMarker none lintJob "t1" = .ok b ∧
      Tampered plainRuntime b forgedBundle ∧
      Rejected plainRuntime (githubContext buildEnv) forgedBundle := by
  have hfinish : finishEvidence plainRuntime buildEnv startMarker none lintJob "t1" =
      .ok failedBundle := rfl
  have htampered : Tampered plainRuntime failedBundle forgedBundle := by
    refine .kept rfl fun h => ?_
    have htext := congrArg (text asciiQuoting) h
    exact absurd htext (by decide +kernel)
  refine ⟨_, hfinish, htampered, ?_⟩
  exact ((digest_guards_admission_iff plainRuntime).2 _ _ _ _ _ _ hfinish _ htampered id _).mpr
    (.inl (by decide +kernel))

/-- Without its digest the forged bundle is used as evidence, and nothing is reported. -/
theorem unsigned_forgery_admitted :
    ∃ b, finishEvidence plainRuntime buildEnv startMarker none lintJob "t1" = .ok b ∧
      (b.item "exit_status").isStr "failure" = true ∧
      ((unsigned forgedBundle).item "exit_status").isStr "success" = true ∧
      Tampered plainRuntime b (unsigned forgedBundle) ∧
      loadEvidenceDirectory plainRuntime "evidence"
        (some [("lint.json", .json (.dict (unsigned forgedBundle)))]) (githubContext buildEnv) =
          ([unsigned forgedBundle], []) := by
  refine ⟨failedBundle, rfl, by decide +kernel, by decide +kernel, .removed rfl, rfl⟩

end Runs

end EveTrade.CiEvidence
