import EveTrade.PythonValues
import EveTrade.RegexText

set_option autoImplicit false

/-!
# Redaction of secrets

What the tools of the build write down is redacted: values under sensitive keys and arguments of
sensitive flags as a whole, and texts by three substitutions, one after the other.
-/
namespace EveTrade.Redaction

open PythonValues RegexText

/-! A property of the characters of a text is decided on these, and not on all there are. -/

scoped instance (priority := 2000) decidableChars {p : Char → Prop} [DecidablePred p]
    (s : List Char) : Decidable (∀ c ∈ s, p c) :=
  List.decidableBAll p s

scoped instance (priority := 2000) decidableEndChar {p : Char → Prop} [DecidablePred p]
    (c : Option Char) : Decidable (∀ d ∈ c, p d) :=
  Option.decidableForallMem c

/-- What the language knows about characters. -/
structure Unicode where
  isAlnum : Char → Bool
  upper : String → String

section Characters

def isSpace (c : Char) : Bool :=
  let n := c.toNat
  (9 ≤ n && n ≤ 13) || (28 ≤ n && n ≤ 32) || n == 133 || n == 160 || n == 5760 ||
    (8192 ≤ n && n ≤ 8202) || n == 8232 || n == 8233 || n == 8239 || n == 8287 || n == 12288

/-- The letter that a character is compared as when case is ignored. Four letters beyond ASCII are
compared as i, s and k. -/
def caseless (c : Char) : Char :=
  if c.toNat = 304 ∨ c.toNat = 305 then 'i'
  else if c.toNat = 383 then 's'
  else if c.toNat = 8490 then 'k'
  else c.toLower

def alike (c d : Char) : Bool := caseless c == caseless d

def isLetter (c : Char) : Bool := (caseless c).isLower

def isName (c : Char) : Bool := isLetter c || c.isDigit || c == '_'

def isWord (unicode : Unicode) (c : Char) : Bool := unicode.isAlnum c || c == '_'

def isAssign (c : Char) : Bool := c == '=' || c == ':'

def isValue (c : Char) : Bool := !isSpace c && c != ',' && c != ';'

def isScheme (c : Char) : Bool := isLetter c || c.isDigit || c == '+' || c == '.' || c == '-'

def isCredential (c : Char) : Bool := c != '/' && c != '@' && !isSpace c

end Characters

def sensitiveKeyParts : List String :=
  ["TOKEN", "SECRET", "PASSWORD", "DSN", "KEY", "AUTH", "CREDENTIAL", "PRIVATE"]

def redactedPresent : String := "<redacted:present>"

def redactedEmpty : String := "<redacted:empty>"

def text (s : String) : Regex Char := .literal alike s.toList

section Rules

variable (unicode : Unicode)

def assignment : Rule Char where
  kept := .seq (.boundary (isWord unicode)) <| .seq (.many isName) <|
    .seq (.anyOf (sensitiveKeyParts.map text)) <| .seq (.many isName) <|
    .seq (.boundary (isWord unicode)) <| .seq (.many isSpace) <| .seq (.one isAssign)
    (.many isSpace)
  dropped := .plus isValue
  replacement := redactedPresent.toList
  consumes := rfl

def authHeader : Rule Char where
  kept := .seq (text "authorization") <| .seq (.many isSpace) <| .seq (text ":") (.many isSpace)
  dropped := .seq (.anyOf [.seq (text "bearer") (.plus isSpace),
    .seq (text "basic") (.plus isSpace), .empty]) (.plus fun c => !isSpace c)
  replacement := redactedPresent.toList
  consumes := rfl

def urlCredentials : Rule Char where
  kept := .seq (.one isLetter) <| .seq (.many isScheme) (text "://")
  dropped := .seq (.plus isCredential) (text "@")
  replacement := "<redacted>@".toList
  consumes := rfl

def redactText (s : String) : String :=
  let assigned := (assignment unicode).sub none 0 s.toList
  let headed := authHeader.sub none 0 assigned
  String.ofList (urlCredentials.sub none 0 headed)

end Rules

section Values

variable (unicode : Unicode)

def isSensitiveKey (key : String) : Bool :=
  sensitiveKeyParts.any fun part => part.toList <:+: (unicode.upper key).toList

def isEmptyValue : Value → Bool
  | .none => true
  | .str s => s == ""
  | _ => false

def redactedPresence (value : Value) : String :=
  if isEmptyValue value then redactedEmpty else redactedPresent

mutual

def redactValue (key : String) (value : Value) : Value :=
  if isSensitiveKey unicode key then .str (redactedPresence value)
  else
    match value with
    | .dict entries => .dict (sortEntries (redactEntries entries))
    | .list items => .list (redactItems key items)
    | .tuple items => .list (redactItems key items)
    | .str s => .str (redactText unicode s)
    | value => value

def redactItems (key : String) : List Value → List Value
  | [] => []
  | v :: vs => redactValue key v :: redactItems key vs

def redactEntries : List (String × Value) → List (String × Value)
  | [] => []
  | (key, v) :: es => (key, redactValue key v) :: redactEntries es

end

def redactMapping (entries : List (String × Value)) : List (String × Value) :=
  sortEntries (redactEntries unicode entries)

/-- An argument of the form that is cut at its first equals sign. -/
def isSetting (value : String) : Bool :=
  "--".toList.isPrefixOf value.toList && value.toList.contains '='

def settingName (value : String) : String := String.ofList (value.toList.takeWhile (· ≠ '='))

def settingValue (value : String) : String :=
  String.ofList ((value.toList.dropWhile (· ≠ '=')).drop 1)

def isSensitiveFlag (value : String) : Bool :=
  "-".toList.isPrefixOf value.toList &&
    isSensitiveKey unicode (String.ofList (value.toList.dropWhile (· = '-')))

/-- The arguments from one on; `redactNext` says whether it is the value of a flag before it. -/
def safeArgvFrom : Bool → List String → List String
  | _, [] => []
  | true, _ :: argv => redactedPresent :: safeArgvFrom false argv
  | false, value :: argv =>
    if isSetting value then
      let name := settingName value
      (if isSensitiveKey unicode name then
        name ++ "=" ++ redactedPresence (.str (settingValue value))
      else redactText unicode value) :: safeArgvFrom false argv
    else redactText unicode value :: safeArgvFrom (isSensitiveFlag unicode value) argv

def safeArgv (argv : List String) : List String := safeArgvFrom unicode false argv

end Values

section Secrets

variable {unicode : Unicode}

mutual

/-- Two values that differ only in what is stored under sensitive keys, where both are empty or
neither is. The entries of a dictionary may come in another order. -/
inductive SameValue (unicode : Unicode) : Value → Value → Prop
  | same (v : Value) : SameValue unicode v v
  | list {vs ws : List Value} : SameItems unicode vs ws → SameValue unicode (.list vs) (.list ws)
  | tuple {vs ws : List Value} :
    SameItems unicode vs ws → SameValue unicode (.tuple vs) (.tuple ws)
  | dict {es fs gs : List (String × Value)} (keys : (es.map Prod.fst).Nodup) (order : es.Perm fs) :
    SameEntries unicode fs gs → SameValue unicode (.dict es) (.dict gs)

inductive SameItems (unicode : Unicode) : List Value → List Value → Prop
  | nil : SameItems unicode [] []
  | cons {v w : Value} {vs ws : List Value} :
    SameValue unicode v w → SameItems unicode vs ws → SameItems unicode (v :: vs) (w :: ws)

inductive SameEntries (unicode : Unicode) : List (String × Value) → List (String × Value) → Prop
  | nil : SameEntries unicode [] []
  | sensitive {key : String} {v w : Value} {es fs : List (String × Value)}
    (hkey : isSensitiveKey unicode key = true) (hempty : isEmptyValue v = isEmptyValue w) :
    SameEntries unicode es fs → SameEntries unicode ((key, v) :: es) ((key, w) :: fs)
  | plain {key : String} {v w : Value} {es fs : List (String × Value)} :
    SameValue unicode v w → SameEntries unicode es fs →
      SameEntries unicode ((key, v) :: es) ((key, w) :: fs)

end

/-- Two argument lists that differ only in the values of sensitive settings, both empty or neither,
and in the arguments that follow sensitive flags. `redactNext` says whether the first argument
follows one. -/
inductive SameArguments (unicode : Unicode) : Bool → List String → List String → Prop
  | nil (redactNext : Bool) : SameArguments unicode redactNext [] []
  | consumed {a b : String} {as bs : List String} :
    SameArguments unicode false as bs → SameArguments unicode true (a :: as) (b :: bs)
  | setting {a b : String} {as bs : List String} (ha : isSetting a = true) (hb : isSetting b = true)
    (hname : settingName a = settingName b) (hkey : isSensitiveKey unicode (settingName a) = true)
    (hempty : settingValue a = "" ↔ settingValue b = "") :
    SameArguments unicode false as bs → SameArguments unicode false (a :: as) (b :: bs)
  | same {a : String} {as bs : List String} :
    SameArguments unicode (!isSetting a && isSensitiveFlag unicode a) as bs →
      SameArguments unicode false (a :: as) (a :: bs)

theorem redactValue_sensitive {key : String} (h : isSensitiveKey unicode key = true)
    (value : Value) : redactValue unicode key value = .str (redactedPresence value) := by
  cases value <;> simp [redactValue, h]

theorem redactEntries_eq_map (es : List (String × Value)) :
    redactEntries unicode es = es.map fun e => (e.1, redactValue unicode e.1 e.2) := by
  induction es with
  | nil => rfl
  | cons e es ih => rw [redactEntries, ih, List.map_cons]

/-- The redacted entries come in the order of their keys, whatever order they came in. -/
theorem redactEntries_sorted {es fs : List (String × Value)} (hkeys : (es.map Prod.fst).Nodup)
    (h : es.Perm fs) :
    sortEntries (redactEntries unicode es) = sortEntries (redactEntries unicode fs) := by
  refine sortEntries_eq_of_perm ?_ ?_
  · rw [redactEntries_eq_map, List.map_map]
    exact hkeys
  · rw [redactEntries_eq_map, redactEntries_eq_map]
    exact h.map _

theorem SameValue.empty {v w : Value} (h : SameValue unicode v w) :
    isEmptyValue v = isEmptyValue w := by
  cases h <;> rfl

mutual

theorem redactValue_eq {v w : Value} (h : SameValue unicode v w) (key : String) :
    redactValue unicode key v = redactValue unicode key w := by
  by_cases hkey : isSensitiveKey unicode key = true
  · rw [redactValue_sensitive hkey, redactValue_sensitive hkey, redactedPresence, redactedPresence,
      h.empty]
  · cases h with
    | same => rfl
    | list h | tuple h => simp only [redactValue, if_neg hkey, redactItems_eq h key]
    | dict keys order h =>
      simp only [redactValue, if_neg hkey, redactEntries_sorted keys order, redactEntries_eq h]

theorem redactItems_eq {vs ws : List Value} (h : SameItems unicode vs ws) (key : String) :
    redactItems unicode key vs = redactItems unicode key ws := by
  cases h with
  | nil => rfl
  | cons hv hvs => rw [redactItems, redactItems, redactValue_eq hv key, redactItems_eq hvs key]

theorem redactEntries_eq {es fs : List (String × Value)} (h : SameEntries unicode es fs) :
    redactEntries unicode es = redactEntries unicode fs := by
  cases h with
  | nil => rfl
  | sensitive hkey hempty hes =>
    rw [redactEntries, redactEntries, redactEntries_eq hes, redactValue_sensitive hkey,
      redactValue_sensitive hkey, redactedPresence, redactedPresence, hempty]
  | plain hv hes =>
    rw [redactEntries, redactEntries, redactEntries_eq hes, redactValue_eq hv]

end

theorem redactedPresence_str {s t : String} (h : s = "" ↔ t = "") :
    redactedPresence (.str s) = redactedPresence (.str t) := by
  simp [redactedPresence, isEmptyValue, h]

theorem safeArgvFrom_eq {redactNext : Bool} {as bs : List String}
    (h : SameArguments unicode redactNext as bs) :
    safeArgvFrom unicode redactNext as = safeArgvFrom unicode redactNext bs := by
  induction h with
  | nil => rfl
  | consumed _ ih => rw [safeArgvFrom, safeArgvFrom, ih]
  | setting ha hb hname hkey hempty _ ih =>
    rw [hname] at hkey
    simp only [safeArgvFrom, ha, hb, hname, hkey, redactedPresence_str hempty, ih, if_true]
  | @same a as bs _ ih =>
    cases hsetting : isSetting a with
    | true =>
      simp only [hsetting, Bool.not_true, Bool.false_and] at ih
      rw [safeArgvFrom, safeArgvFrom, ih]
      simp [hsetting]
    | false =>
      simp only [hsetting, Bool.not_false, Bool.true_and] at ih
      rw [safeArgvFrom, safeArgvFrom, ih]
      simp [hsetting]

/-- Nothing of what is stored under sensitive keys and nothing of the values of sensitive arguments
survives, but whether they are empty. -/
theorem redaction_hides (unicode : Unicode) :
    (∀ es fs, SameValue unicode (.dict es) (.dict fs) →
      redactMapping unicode es = redactMapping unicode fs) ∧
    ∀ as bs, SameArguments unicode false as bs → safeArgv unicode as = safeArgv unicode bs := by
  refine ⟨?_, fun as bs h => safeArgvFrom_eq h⟩
  intro es fs h
  cases h with
  | same => rfl
  | dict keys order h => rw [redactMapping, redactEntries_sorted keys order, redactEntries_eq h,
      redactMapping]

section Ascii

def ascii : Unicode where
  isAlnum := Char.isAlphanum
  upper := fun s => String.ofList (s.toList.map Char.toUpper)

theorem redaction_hides_ascii :
    redactMapping ascii [("run", .list [.dict [("token", .str "a")]]), ("code", .int 0)] =
      redactMapping ascii [("code", .int 0), ("run", .list [.dict [("token", .int 7)]])] ∧
    safeArgv ascii ["--token=a", "--api-key", "b", "c"] =
      safeArgv ascii ["--token=d", "--api-key", "--token", "c"] := by
  obtain ⟨hmappings, harguments⟩ := redaction_hides ascii
  constructor
  · apply hmappings
    refine .dict (by decide) (List.Perm.swap _ _ _) ?_
    refine .plain (.same _) (.plain (.list (.cons ?_ .nil)) .nil)
    exact .dict (by decide) (List.Perm.refl _) (.sensitive (by decide) rfl .nil)
  · apply harguments
    refine .setting (by decide) (by decide) (by decide) (by decide) (by decide) ?_
    refine .same ?_
    have hflag : (!isSetting "--api-key" && isSensitiveFlag ascii "--api-key") = true := by decide
    rw [hflag]
    exact .consumed (.same (.nil _))

end Ascii

end Secrets

end EveTrade.Redaction
