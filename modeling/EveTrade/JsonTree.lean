import Mathlib.Data.List.TakeWhile
import Mathlib.Tactic

set_option autoImplicit false

/-!
# Compact texts of trees

Arrays and objects over bare words (numbers and the like) and strings, written without blanks. How
strings are quoted is left open; whenever they can be read back, so can whole trees.
-/
namespace EveTrade.JsonTree

def isWordChar (c : Char) : Bool :=
  !(c == ',' || c == ']' || c == '\x7d' || c == '[' || c == '\x7b' || c == '\x22')

theorem isWordChar_of {p : Char → Bool} {c : Char} (hc : p c = true)
    (h : [',', ']', '\x7d', '[', '\x7b', '\x22'].all (fun d => !p d) = true) :
    isWordChar c = true := by
  by_contra hno
  simp only [isWordChar, Bool.not_eq_true, Bool.not_eq_false', Bool.or_eq_true, beq_iff_eq] at hno
  rcases hno with ((((rfl | rfl) | rfl) | rfl) | rfl) | rfl <;> simp [hc] at h

@[ext] structure Word where
  chars : List Char
  ne_nil : chars ≠ []
  plain : chars.all isWordChar = true

def zeroWord : Word := ⟨['0'], by decide, by decide⟩

inductive Tree where
  | bare (word : Word)
  | str (s : String)
  | arr (items : List Tree)
  | obj (fields : List (String × Tree))

/-- Strings in quotes, which can be read back whatever follows them. -/
structure Quoting where
  quote : String → List Char
  opens : ∀ s, ∃ r, quote s = '\x22' :: r
  split : ∀ {a b : String} {s t : List Char}, quote a ++ s = quote b ++ t → a = b ∧ s = t

theorem intercalate_comma (p : List Char) (ps : List (List Char)) :
    [','].intercalate (p :: ps) = p ++ ps.flatMap fun q => ',' :: q := by
  induction ps generalizing p with
  | nil => simp
  | cons q qs ih =>
    rw [List.intercalate_cons_cons, ih]
    simp

/-- What may follow a value: nothing, or a character that no word contains. -/
def Closed (s : List Char) : Prop := ∀ c ∈ s.head?, isWordChar c = false

section Parts

variable {α : Type} {f : α → List Char} {close : Char} {xs ys : List α} {s t : List Char}

theorem closed_rest (hclose : isWordChar close = false) (ps : List (List Char)) (s : List Char) :
    Closed (ps.flatMap (fun q => ',' :: q) ++ close :: s) := by
  intro c hc
  cases ps with
  | nil =>
    obtain rfl : close = c := by simpa using hc
    exact hclose
  | cons p ps =>
    obtain rfl : ',' = c := by simpa using hc
    decide

theorem rest_split (hclose : isWordChar close = false) (hcomma : close ≠ ',')
    (hsplit : ∀ x ∈ xs, ∀ y s t, Closed s → Closed t → f x ++ s = f y ++ t → x = y ∧ s = t)
    (h : (xs.map f).flatMap (fun q => ',' :: q) ++ close :: s =
      (ys.map f).flatMap (fun q => ',' :: q) ++ close :: t) : xs = ys ∧ s = t := by
  induction xs generalizing ys with
  | nil =>
    cases ys with
    | nil => simpa using h
    | cons y ys => simp [hcomma] at h
  | cons x xs ih =>
    cases ys with
    | nil => simp [hcomma.symm] at h
    | cons y ys =>
      simp only [List.map_cons, List.flatMap_cons, List.cons_append, List.append_assoc,
        List.cons.injEq, true_and] at h
      obtain ⟨rfl, hrest⟩ := hsplit x (by simp) y _ _ (closed_rest hclose _ _)
        (closed_rest hclose _ _) h
      obtain ⟨rfl, hst⟩ := ih (fun z hz => hsplit z (by simp [hz])) hrest
      exact ⟨rfl, hst⟩

/-- A comma separated list up to its closing bracket can be read back if its parts can. -/
theorem parts_split (hclose : isWordChar close = false) (hcomma : close ≠ ',')
    (hopen : ∀ z s t, f z ++ s ≠ close :: t)
    (hsplit : ∀ x ∈ xs, ∀ y s t, Closed s → Closed t → f x ++ s = f y ++ t → x = y ∧ s = t)
    (h : [','].intercalate (xs.map f) ++ close :: s = [','].intercalate (ys.map f) ++ close :: t) :
    xs = ys ∧ s = t := by
  cases xs with
  | nil =>
    cases ys with
    | nil => simpa using h
    | cons y ys =>
      rw [List.map_cons, intercalate_comma, List.append_assoc] at h
      exact absurd h.symm (hopen y _ _)
  | cons x xs =>
    cases ys with
    | nil =>
      rw [List.map_cons, intercalate_comma, List.append_assoc] at h
      exact absurd h (hopen x _ _)
    | cons y ys =>
      -- with a comma before both, the lists are like those after a first part
      refine rest_split hclose hcomma hsplit ?_
      simpa [intercalate_comma] using h

end Parts

section Texts

variable (Q : Quoting)

mutual

def text : Tree → List Char
  | .bare w => w.chars
  | .str s => Q.quote s
  | .arr items => '[' :: ([','].intercalate (itemTexts items) ++ [']'])
  | .obj fields => '\x7b' :: ([','].intercalate (fieldTexts fields) ++ ['\x7d'])

def itemTexts : List Tree → List (List Char)
  | [] => []
  | x :: xs => text x :: itemTexts xs

def fieldTexts : List (String × Tree) → List (List Char)
  | [] => []
  | (k, v) :: fs => (Q.quote k ++ ':' :: text v) :: fieldTexts fs

end

theorem itemTexts_eq_map (xs : List Tree) : itemTexts Q xs = xs.map (text Q) := by
  induction xs with
  | nil => rfl
  | cons x xs ih => rw [itemTexts, ih, List.map_cons]

theorem fieldTexts_eq_map (fs : List (String × Tree)) :
    fieldTexts Q fs = fs.map fun f => Q.quote f.1 ++ ':' :: text Q f.2 := by
  induction fs with
  | nil => rfl
  | cons f fs ih => rw [fieldTexts, ih, List.map_cons]

theorem word_split {v w : Word} {s t : List Char} (hs : Closed s) (ht : Closed t)
    (h : v.chars ++ s = w.chars ++ t) : v = w ∧ s = t := by
  have take : ∀ (u : Word) (r : List Char), Closed r →
      (u.chars ++ r).takeWhile isWordChar = u.chars := by
    intro u r hr
    rw [List.takeWhile_append_of_pos (List.all_eq_true.mp u.plain)]
    cases r with
    | nil => simp
    | cons c r => simp [hr c rfl]
  have hvw : v.chars = w.chars := by rw [← take v s hs, h, take w t ht]
  exact ⟨Word.ext hvw, List.append_cancel_left (hvw ▸ h)⟩

/-- The first character tells the four kinds of trees apart. -/
def headKind (c : Char) : ℕ :=
  if c = '\x22' then 1 else if c = '[' then 2 else if c = '\x7b' then 3
  else if isWordChar c then 0 else 4

def Tree.kind : Tree → ℕ
  | .bare _ => 0
  | .str _ => 1
  | .arr _ => 2
  | .obj _ => 3

theorem text_head (a : Tree) (s : List Char) :
    ∃ c r, text Q a ++ s = c :: r ∧ headKind c = a.kind := by
  cases a with
  | bare w =>
    obtain ⟨chars, hne, hplain⟩ := w
    cases chars with
    | nil => exact absurd rfl hne
    | cons c r =>
      refine ⟨c, r ++ s, by simp [text], ?_⟩
      have hc := List.all_eq_true.mp hplain c (by simp)
      have hkind := hc
      simp only [isWordChar, Bool.not_eq_true', Bool.or_eq_false_iff, beq_eq_false_iff_ne] at hc
      simp [headKind, hc, hkind, Tree.kind]
  | str x =>
    obtain ⟨r, hr⟩ := Q.opens x
    exact ⟨'\x22', r ++ s, by simp [text, hr], rfl⟩
  | arr items => exact ⟨_, _, rfl, rfl⟩
  | obj fields => exact ⟨_, _, rfl, rfl⟩

theorem text_ne_close (a : Tree) (s t : List Char) : text Q a ++ s ≠ ']' :: t := by
  intro h
  obtain ⟨c, r, hc, hk⟩ := text_head Q a s
  rw [hc, List.cons.injEq] at h
  rw [h.1] at hk
  have hfour : headKind ']' = 4 := by decide
  cases a <;> simp [hfour, Tree.kind] at hk

variable {Q}

theorem kind_eq_of_text {a b : Tree} {s t : List Char} (h : text Q a ++ s = text Q b ++ t) :
    a.kind = b.kind := by
  obtain ⟨c, r, hc, ha⟩ := text_head Q a s
  obtain ⟨d, q, hd, hb⟩ := text_head Q b t
  rw [hc, hd, List.cons.injEq] at h
  rw [← ha, h.1, hb]

theorem text_split (a b : Tree) (s t : List Char) (hs : Closed s) (ht : Closed t)
    (h : text Q a ++ s = text Q b ++ t) : a = b ∧ s = t := by
  have hk := kind_eq_of_text h
  match a, b with
  | .bare v, .bare w =>
    obtain ⟨rfl, hst⟩ := word_split hs ht h
    exact ⟨rfl, hst⟩
  | .str x, .str y =>
    obtain ⟨rfl, hst⟩ := Q.split h
    exact ⟨rfl, hst⟩
  | .arr xs, .arr ys =>
    simp only [text, itemTexts_eq_map, List.cons_append, List.append_assoc, List.nil_append,
      List.cons.injEq, true_and] at h
    obtain ⟨rfl, hst⟩ := parts_split (by decide) (by decide) (text_ne_close Q)
      (fun x _ y => text_split x y) h
    exact ⟨rfl, hst⟩
  | .obj fs, .obj gs =>
    simp only [text, fieldTexts_eq_map, List.cons_append, List.append_assoc, List.nil_append,
      List.cons.injEq, true_and] at h
    have hopen : ∀ (f : String × Tree) (s t : List Char),
        (Q.quote f.1 ++ ':' :: text Q f.2) ++ s ≠ '\x7d' :: t := by
      intro f s t hf
      obtain ⟨r, hr⟩ := Q.opens f.1
      simp [hr] at hf
    obtain ⟨rfl, hst⟩ := parts_split (by decide) (by decide) hopen (fun f hf g s t hs ht hfg => by
      obtain ⟨k, v⟩ := f
      obtain ⟨l, w⟩ := g
      have hsize : 1 + sizeOf k + sizeOf v < sizeOf fs := List.sizeOf_lt_of_mem hf
      simp only [List.append_assoc, List.cons_append] at hfg
      obtain ⟨rfl, hrest⟩ := Q.split hfg
      obtain ⟨rfl, hst⟩ := text_split v w s t hs ht (List.cons.inj hrest).2
      exact ⟨rfl, hst⟩) h
    exact ⟨rfl, hst⟩
termination_by sizeOf a

theorem text_injective : Function.Injective (text Q) := by
  intro a b h
  have happend : text Q a ++ [] = text Q b ++ [] := by rw [h]
  exact (text_split a b [] [] (by simp [Closed]) (by simp [Closed]) happend).1

end Texts

end EveTrade.JsonTree
