import EveTrade.JsonText

set_option autoImplicit false

/-!
# UUIDs and their text

A UUID is a 128-bit number, shown as 32 lower-case hexadecimal digits grouped 8-4-4-4-12. The reader
also takes the other forms in use: bare digits, braces, the URN form, and either case.
-/
namespace EveTrade.UuidText

open JsonText

structure Uuid where
  value : Fin (2 ^ 128)
deriving DecidableEq

namespace Uuid

def ofNat (n : ℕ) : Uuid := ⟨Fin.ofNat (2 ^ 128) n⟩

def hexDigits : ℕ → ℕ → List Char
  | 0, _ => []
  | k + 1, n => hexDigits k (n / 16) ++ [hexDigit (n % 16)]

def hexDigitValue? (c : Char) : Option ℕ :=
  if '0' ≤ c ∧ c ≤ '9' then some (c.toNat - 48)
  else if 'a' ≤ c ∧ c ≤ 'f' then some (c.toNat - 87)
  else if 'A' ≤ c ∧ c ≤ 'F' then some (c.toNat - 55)
  else none

def hexValue? : ℕ → List Char → Option ℕ
  | acc, [] => some acc
  | acc, c :: cs =>
    match hexDigitValue? c with
    | none => none
    | some d => hexValue? (16 * acc + d) cs

def hyphenated (d : List Char) : List Char :=
  d.take 8 ++ '-' :: ((d.drop 8).take 4 ++ '-' :: ((d.drop 12).take 4 ++
    '-' :: ((d.drop 16).take 4 ++ '-' :: d.drop 20)))

def text (u : Uuid) : String := String.ofList (hyphenated (hexDigits 32 u.value))

instance : ToString Uuid := ⟨text⟩

def parseSimple (cs : List Char) : Option Uuid :=
  if cs.length = 32 then (hexValue? 0 cs).map ofNat else none

def parseHyphenated (cs : List Char) : Option Uuid :=
  if cs.length = 36 ∧ cs[8]? = some '-' ∧ cs[13]? = some '-' ∧ cs[18]? = some '-' ∧
      cs[23]? = some '-' then
    parseSimple (cs.take 8 ++ ((cs.drop 9).take 4 ++ ((cs.drop 14).take 4 ++
      ((cs.drop 19).take 4 ++ cs.drop 24))))
  else none

def parseChars (cs : List Char) : Option Uuid :=
  if cs.length = 32 then parseSimple cs
  else if cs.length = 36 then parseHyphenated cs
  else if cs.length = 38 ∧ cs.head? = some '\x7b' ∧ cs[37]? = some '\x7d' then
    parseHyphenated ((cs.drop 1).take 36)
  else if cs.length = 45 ∧ cs.take 9 = ['u', 'r', 'n', ':', 'u', 'u', 'i', 'd', ':'] then
    parseHyphenated (cs.drop 9)
  else none

def parse (s : String) : Option Uuid := parseChars s.toList

theorem length_hexDigits (k n : ℕ) : (hexDigits k n).length = k := by
  induction k generalizing n with
  | zero => rfl
  | succ k ih => simp [hexDigits, ih]

theorem hexDigitValue?_hexDigit {n : ℕ} (h : n < 16) : hexDigitValue? (hexDigit n) = some n := by
  interval_cases n <;> decide

theorem hexValue?_append (acc : ℕ) (cs ds : List Char) :
    hexValue? acc (cs ++ ds) = (hexValue? acc cs).bind fun v => hexValue? v ds := by
  induction cs generalizing acc with
  | nil => rfl
  | cons c cs ih =>
    rw [List.cons_append, hexValue?, hexValue?]
    cases hexDigitValue? c with
    | none => rfl
    | some d => exact ih _

theorem hexValue?_hexDigits (k n : ℕ) : hexValue? 0 (hexDigits k n) = some (n % 16 ^ k) := by
  induction k generalizing n with
  | zero => simp [hexDigits, hexValue?, Nat.mod_one]
  | succ k ih =>
    rw [hexDigits, hexValue?_append, ih, Option.bind_some, hexValue?,
      hexDigitValue?_hexDigit (Nat.mod_lt n (by decide))]
    change some _ = some _
    rw [pow_succ, mul_comm (16 ^ k) 16, Nat.mod_mul]
    congr 1
    omega

theorem parseSimple_hexDigits (u : Uuid) : parseSimple (hexDigits 32 u.value) = some u := by
  have hv : (u.value : ℕ) % 16 ^ 32 = u.value := Nat.mod_eq_of_lt u.value.isLt
  rw [parseSimple, if_pos (length_hexDigits 32 _), hexValue?_hexDigits, hv]
  simp [ofNat]

theorem parseHyphenated_hyphenated {d : List Char} (h : d.length = 32) :
    parseHyphenated (hyphenated d) = parseSimple d := by
  rcases d with _ | ⟨c0, _ | ⟨c1, _ | ⟨c2, _ | ⟨c3, _ | ⟨c4, _ | ⟨c5, _ | ⟨c6, _ | ⟨c7, d⟩⟩⟩⟩⟩⟩⟩⟩ <;>
    try (simp at h; done)
  rcases d with _ | ⟨c8, _ | ⟨c9, _ | ⟨c10, _ | ⟨c11, _ | ⟨c12, _ | ⟨c13, _ | ⟨c14, _ | ⟨c15, d⟩⟩⟩⟩⟩⟩⟩⟩ <;>
    try (simp at h; done)
  rcases d with _ | ⟨c16, _ | ⟨c17, _ | ⟨c18, _ | ⟨c19, d⟩⟩⟩⟩ <;>
    try (simp at h; done)
  simp only [List.length_cons, Nat.reduceEqDiff] at h
  simp [hyphenated, parseHyphenated, h]

theorem length_hyphenated {d : List Char} (h : d.length = 32) : (hyphenated d).length = 36 := by
  simp [hyphenated, h]

/-- Reading back the text of a UUID gives the UUID. -/
theorem parse_text (u : Uuid) : parse u.text = some u := by
  have hl := length_hexDigits 32 u.value
  unfold parse text
  rw [String.toList_ofList, parseChars, length_hyphenated hl, if_neg (by decide),
    if_pos rfl, parseHyphenated_hyphenated hl, parseSimple_hexDigits]

theorem text_injective : Function.Injective text := by
  intro u v h
  have hu := parse_text u
  rw [h, parse_text] at hu
  exact (Option.some.inj hu).symm

end Uuid

end EveTrade.UuidText
