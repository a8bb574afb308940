import EveTrade.UuidText
import Mathlib.Data.List.DropRight

set_option autoImplicit false

/-!
# Texts of message fields

White space and trimming by the Unicode property, and rules on fields: a rule that a value breaks
gives a violation, which names the field.
-/
namespace EveTrade.FieldText

open UuidText

/-- The Unicode property `White_Space`. -/
def isWhiteSpace (c : Char) : Bool :=
  (decide (9 ≤ c.toNat) && decide (c.toNat ≤ 13)) || c.toNat == 32 || c.toNat == 133 ||
    c.toNat == 160 || c.toNat == 5760 || (decide (8192 ≤ c.toNat) && decide (c.toNat ≤ 8202)) ||
    c.toNat == 8232 || c.toNat == 8233 || c.toNat == 8239 || c.toNat == 8287 || c.toNat == 12288

def trimChars (cs : List Char) : List Char :=
  ((cs.dropWhile isWhiteSpace).reverse.dropWhile isWhiteSpace).reverse

def trim (s : String) : String := String.ofList (trimChars s.toList)

theorem trimChars_eq_nil {cs : List Char} : trimChars cs = [] ↔ ∀ c ∈ cs, isWhiteSpace c = true := by
  unfold trimChars
  rw [List.reverse_eq_nil_iff, List.dropWhile_eq_nil_iff]
  constructor
  · intro h c hc
    by_contra hne
    have hdrop : c ∈ cs.dropWhile isWhiteSpace ∨ isWhiteSpace c = true := by
      have hsplit := List.takeWhile_append_dropWhile (p := isWhiteSpace) (l := cs)
      rw [← hsplit, List.mem_append] at hc
      rcases hc with htake | hdrop
      · exact .inr (List.mem_takeWhile_imp htake)
      · exact .inl hdrop
    rcases hdrop with hdrop | hw
    · exact hne (h c (List.mem_reverse.2 hdrop))
    · exact hne hw
  · intro h c hc
    exact h c ((List.dropWhile_sublist _).subset (List.mem_reverse.1 hc))

theorem trimChars_trimChars (cs : List Char) : trimChars (trimChars cs) = trimChars cs := by
  have h : ∀ ds : List Char,
      (ds.reverse.dropWhile isWhiteSpace).reverse = ds.rdropWhile isWhiteSpace := fun _ => rfl
  unfold trimChars
  simp only [h]
  -- what is left after the front is trimmed starts with a character that stays
  cases hl : cs.dropWhile isWhiteSpace with
  | nil => rfl
  | cons c rest =>
    have hc : ¬ isWhiteSpace c = true := by
      have := List.head_dropWhile_not isWhiteSpace (l := cs)
        (by rw [hl]; exact List.cons_ne_nil _ _)
      simpa [hl] using this
    obtain ⟨back, hback⟩ := List.rdropWhile_prefix isWhiteSpace (c :: rest)
    cases hr : (c :: rest).rdropWhile isWhiteSpace with
    | nil => rfl
    | cons d tail =>
      rw [hr] at hback
      obtain ⟨rfl, _⟩ := List.cons.inj hback
      rw [List.dropWhile_cons_of_neg hc, ← hr, List.rdropWhile_idempotent]

theorem trim_trim (s : String) : trim (trim s) = trim s := by
  unfold trim
  rw [String.toList_ofList, trimChars_trimChars]
theorem trim_uuid_text (u : Uuid) : trim u.text ≠ "" := by
  intro h
  have hnil : trimChars u.text.toList = [] := by
    unfold trim at h
    have := congrArg String.toList h
    rwa [String.toList_ofList] at this
  have hhyphen : '-' ∈ u.text.toList := by
    unfold Uuid.text Uuid.hyphenated
    rw [String.toList_ofList]
    simp
  have := trimChars_eq_nil.1 hnil '-' hhyphen
  revert this
  decide

/-- The white space of a pattern's `\s`, which is not that of `isWhiteSpace`. -/
def isPatternSpace (c : Char) : Bool :=
  c.toNat == 9 || c.toNat == 10 || c.toNat == 12 || c.toNat == 13 || c.toNat == 32

/-- The pattern `.*\S.*`. -/
def nonBlank (s : String) : Bool := s.toList.any fun c => !isPatternSpace c

def isHexDigit (c : Char) : Bool := (Uuid.hexDigitValue? c).isSome

def hexGroup (cs : List Char) (start length : ℕ) : Bool :=
  ((cs.drop start).take length).all isHexDigit

/-- Hexadecimal digits of either case, grouped 8-4-4-4-12. -/
def isUuidText (s : String) : Bool :=
  let cs := s.toList
  cs.length == 36 && cs[8]? == some '-' && cs[13]? == some '-' && cs[18]? == some '-' &&
    cs[23]? == some '-' && hexGroup cs 0 8 && hexGroup cs 9 4 && hexGroup cs 14 4 &&
    hexGroup cs 19 4 && hexGroup cs 24 12

structure Violation where
  fieldPath : String
  ruleId : String
  message : String
deriving DecidableEq

structure Rule (α : Type) where
  id : String
  message : String
  holds : α → Bool

variable {α : Type}

def Rule.check (r : Rule α) (fieldPath : String) (value : α) : List Violation :=
  if r.holds value then [] else [⟨fieldPath, r.id, r.message⟩]

theorem Rule.check_eq_nil {r : Rule α} {fieldPath : String} {value : α} :
    r.check fieldPath value = [] ↔ r.holds value = true := by
  unfold Rule.check
  split_ifs with h <;> simp [h]

/-- A rule on an optional field asks nothing of an absent one. -/
def Rule.checkPresent (r : Rule α) (fieldPath : String) : Option α → List Violation
  | none => []
  | some value => r.check fieldPath value

theorem Rule.checkPresent_eq_nil {r : Rule α} {fieldPath : String} {value : Option α} :
    r.checkPresent fieldPath value = [] ↔ ∀ v ∈ value, r.holds v = true := by
  cases value with
  | none => simp [Rule.checkPresent]
  | some v => simp [Rule.checkPresent, Rule.check_eq_nil]

def within (path : String) (vs : List Violation) : List Violation :=
  vs.map fun v => { v with fieldPath := path ++ "." ++ v.fieldPath }

theorem within_eq_nil {path : String} {vs : List Violation} : within path vs = [] ↔ vs = [] :=
  List.map_eq_nil_iff

def withinEach (path : String) : ℕ → List (List Violation) → List Violation
  | _, [] => []
  | i, vs :: rest => within s!"{path}[{i}]" vs ++ withinEach path (i + 1) rest

theorem withinEach_eq_nil {path : String} {i : ℕ} {vss : List (List Violation)} :
    withinEach path i vss = [] ↔ ∀ vs ∈ vss, vs = [] := by
  induction vss generalizing i with
  | nil => simp [withinEach]
  | cons vs vss ih =>
    rw [withinEach, List.append_eq_nil_iff, within_eq_nil, ih, List.forall_mem_cons]

end EveTrade.FieldText
