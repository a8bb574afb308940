import EveTrade.JsonText
import Mathlib

set_option autoImplicit false

/-!
# Values of Python

Values as scripts handle them, with the entries of a dictionary in the order of their insertion, and
what the language makes of a value where it takes it for a text, a truth value or a number.
-/
namespace EveTrade.PythonValues

inductive PyFloat where
  | finite (value : ℚ)
  | negativeZero
  | infinity (negative : Bool)
  | nan
deriving DecidableEq

def PyFloat.positive : PyFloat → Bool
  | .finite q => decide (0 < q)
  | .infinity negative => !negative
  | _ => false

inductive Value where
  | none
  | bool (b : Bool)
  | int (n : Int)
  | float (x : PyFloat)
  | str (s : String)
  | list (items : List Value)
  | tuple (items : List Value)
  | dict (entries : List (String × Value))

abbrev Dict := List (String × Value)

/-- What the language makes of values and texts beyond what is spelled out below. -/
structure Python where
  /-- The text of a float, a list, a tuple or a dictionary. -/
  repr : Value → String
  readInt : String → Option Int
  readFloat : String → Option PyFloat
  /-- The float next to an integer, if there is one. -/
  floatOfInt : Int → Option PyFloat
  lower : String → String

/-- No value but the empty text is written as nothing. -/
def Python.Lawful (py : Python) : Prop := ∀ v, py.repr v ≠ ""

/-- A language of decimal numbers and lower-case texts, to evaluate scripts in. -/
def decimalPython : Python where
  repr _ := "?"
  readInt s := s.toNat?.map Int.ofNat
  readFloat _ := none
  floatOfInt n := some (.finite n)
  lower s := s

namespace Dict

def item (d : Dict) (key : String) : Value := (d.lookup key).getD .none

def itemD (d : Dict) (key : String) (default : Value) : Value := (d.lookup key).getD default

def has (d : Dict) (key : String) : Bool := (d.lookup key).isSome

end Dict

namespace Value

def truthy : Value → Bool
  | .none => false
  | .bool b => b
  | .int n => n != 0
  | .float x => x != .finite 0 && x != .negativeZero
  | .str s => s != ""
  | .list items => !items.isEmpty
  | .tuple items => !items.isEmpty
  | .dict entries => !entries.isEmpty

/-- The first value unless it counts as false. -/
def orElse (v w : Value) : Value := if v.truthy then v else w

def text (py : Python) : Value → String
  | .none => "None"
  | .bool true => "True"
  | .bool false => "False"
  | .int n => String.ofList (JsonText.numberText n)
  | .str s => s
  | v => py.repr v

def isStr (v : Value) (s : String) : Bool :=
  match v with
  | .str t => t == s
  | _ => false

/-- A number is cut off towards zero, and anything but a number or the text of one is refused. -/
def toInt (py : Python) : Value → Option Int
  | .bool b => some (if b then 1 else 0)
  | .int n => some n
  | .float (.finite q) => some (q.num.tdiv q.den)
  | .float .negativeZero => some 0
  | .str s => py.readInt s
  | _ => Option.none

def toFloat (py : Python) : Value → Option PyFloat
  | .bool b => some (.finite (if b then 1 else 0))
  | .int n => py.floatOfInt n
  | .float x => some x
  | .str s => py.readFloat s
  | _ => Option.none

def isZero : Value → Bool
  | .bool b => !b
  | .int n => n == 0
  | .float x => x == .finite 0 || x == .negativeZero
  | _ => false

/-- What a loop over the value runs through, if there can be one. -/
def items? : Value → Option (List Value)
  | .list items => some items
  | .tuple items => some items
  | .str s => some (s.toList.map fun c => .str (String.singleton c))
  | .dict entries => some (entries.map fun e => .str e.1)
  | _ => Option.none

def dict? : Value → Option Dict
  | .dict d => some d
  | _ => Option.none

def hashable : Value → Bool
  | .list _ => false
  | .dict _ => false
  | _ => true

theorem text_str (py : Python) (s : String) : (Value.str s).text py = s := rfl

theorem orElse_empty_str (py : Python) (s : String) :
    ((Value.str s).orElse (.str "")).text py = s := by
  by_cases h : s = "" <;> simp [orElse, truthy, text, h]

theorem isStr_iff {v : Value} {s : String} : v.isStr s = true ↔ v = .str s := by
  cases v <;> simp [isStr]

theorem text_ne_empty {py : Python} (hpy : py.Lawful) {v : Value} (h : v.truthy = true) :
    v.text py ≠ "" := by
  cases v with
  | none => simp [truthy] at h
  | bool b => cases b <;> simp [text]
  | int n =>
    intro hn
    have hchars : JsonText.numberText n = [] := by
      simpa [text] using congrArg String.toList hn
    cases n with
    | ofNat k => exact Nat.toDigits_ne_nil hchars
    | negSucc k => simp [JsonText.numberText] at hchars
  | str s => simpa [text, truthy] using h
  | float x => exact hpy _
  | list items => exact hpy _
  | tuple items => exact hpy _
  | dict entries => exact hpy _

end Value

def sortEntries {α : Type} (entries : List (String × α)) : List (String × α) :=
  entries.insertionSort fun a b => a.1 ≤ b.1

section Sorting

variable {α β : Type}

theorem sortEntries_perm (entries : List (String × α)) : (sortEntries entries).Perm entries :=
  List.perm_insertionSort _ _

/-- The order of the entries does not matter, since every key occurs once. -/
theorem sortEntries_eq_of_perm {es fs : List (String × α)} (hkeys : (es.map Prod.fst).Nodup)
    (h : es.Perm fs) : sortEntries es = sortEntries fs := by
  have hperm : (sortEntries es).Perm (sortEntries fs) :=
    ((sortEntries_perm es).trans h).trans (sortEntries_perm fs).symm
  have hsorted : ∀ l : List (String × α), (sortEntries l).Pairwise fun a b => a.1 ≤ b.1 := by
    intro l
    exact List.pairwise_insertionSort _ l
  refine List.Perm.eq_of_pairwise ?_ (hsorted es) (hsorted fs) hperm
  intro a b ha hb hab hba
  have hb' : b ∈ es := (sortEntries_perm es).mem_iff.mp (hperm.mem_iff.mpr hb)
  exact List.inj_on_of_nodup_map hkeys ((sortEntries_perm es).mem_iff.mp ha) hb'
    (le_antisymm hab hba)

end Sorting

end EveTrade.PythonValues
