import Mathlib.Data.List.TakeWhile
import Mathlib.Tactic

set_option autoImplicit false

/-!
# Backtracking expressions and substitution

Expressions over the characters of a text, with the ends of their matches in the order in which a
backtracking matcher finds them. A rule keeps the first part of a match and replaces the second one;
substitution applies it from left to right, at each place to the first match found there.
-/
namespace EveTrade.RegexText

variable {α : Type}

/-- A place in a text: the character before it, and the text from there on. -/
@[ext]
structure Place (α : Type) where
  before : Option α
  rest : List α

/-- `many` repeats a class of characters greedily, `boundary` holds between a word and no word. -/
inductive Regex (α : Type) where
  | empty
  | one (p : α → Bool)
  | many (p : α → Bool)
  | boundary (word : α → Bool)
  | seq (a b : Regex α)
  | alt (a b : Regex α)

namespace Regex

def plus (p : α → Bool) : Regex α := .seq (.one p) (.many p)

/-- A text whose characters need only be alike. -/
def literal (alike : α → α → Bool) : List α → Regex α
  | [] => .empty
  | c :: cs => .seq (.one (alike c)) (literal alike cs)

def anyOf : List (Regex α) → Regex α
  | [] => .one fun _ => false
  | r :: rs => .alt r (anyOf rs)

/-- Every match takes at least one character. -/
def consumes : Regex α → Bool
  | .one _ => true
  | .seq a b => a.consumes || b.consumes
  | .alt a b => a.consumes && b.consumes
  | _ => false

end Regex

def manyEnds (p : α → Bool) : Option α → List α → List (Place α)
  | before, [] => [⟨before, []⟩]
  | before, c :: cs =>
    if p c then manyEnds p (some c) cs ++ [⟨before, c :: cs⟩] else [⟨before, c :: cs⟩]

def wordAt (word : α → Bool) (c : Option α) : Bool := c.any word

/-- Where a match of the expression can end, the preferred ends first. -/
def ends : Regex α → Place α → List (Place α)
  | .empty, place => [place]
  | .one p, place =>
    match place.rest with
    | [] => []
    | c :: cs => if p c then [⟨some c, cs⟩] else []
  | .many p, place => manyEnds p place.before place.rest
  | .boundary word, place =>
    if wordAt word place.before ≠ wordAt word place.rest.head? then [place] else []
  | .seq a b, place => (ends a place).flatMap (ends b)
  | .alt a b, place => ends a place ++ ends b place

theorem ends_empty (place : Place α) : ends .empty place = [place] := rfl

theorem ends_one (p : α → Bool) (place : Place α) :
    ends (.one p) place = match place.rest with
      | [] => []
      | c :: cs => if p c then [⟨some c, cs⟩] else [] := rfl

theorem ends_many (p : α → Bool) (place : Place α) :
    ends (.many p) place = manyEnds p place.before place.rest := rfl

theorem ends_boundary (word : α → Bool) (place : Place α) : ends (.boundary word) place =
    if wordAt word place.before ≠ wordAt word place.rest.head? then [place] else [] := rfl

theorem ends_seq (a b : Regex α) (place : Place α) :
    ends (.seq a b) place = (ends a place).flatMap (ends b) := rfl

theorem ends_alt (a b : Regex α) (place : Place α) :
    ends (.alt a b) place = ends a place ++ ends b place := rfl

/-- A substitution that keeps the first part of each match and replaces the second one, which takes
at least one character. -/
structure Rule (α : Type) where
  kept : Regex α
  dropped : Regex α
  replacement : List α
  consumes : dropped.consumes = true

/-- The first match at a place: where its kept part and where its dropped part ends. -/
def Rule.find (rule : Rule α) (place : Place α) : Option (Place α × Place α) :=
  ((ends rule.kept place).flatMap fun middle =>
    (ends rule.dropped middle).map fun stop => (middle, stop)).head?

/-- The text with the matches replaced; the first `skip` characters belong to a match before it. -/
def Rule.sub (rule : Rule α) : Option α → ℕ → List α → List α
  | _, _, [] => []
  | _, skip + 1, c :: cs => rule.sub (some c) skip cs
  | before, 0, c :: cs =>
    match rule.find ⟨before, c :: cs⟩ with
    | none => c :: rule.sub (some c) 0 cs
    | some (middle, stop) =>
      (c :: cs).take ((c :: cs).length - middle.rest.length) ++ rule.replacement ++
        rule.sub (some c) (cs.length - stop.rest.length) cs

def lastOf : Option α → List α → Option α
  | before, [] => before
  | _, c :: cs => lastOf (some c) cs

section Reading

variable {p : α → Bool} {t rest : List α}

@[simp]
theorem lastOf_nil (before : Option α) : lastOf before [] = before := rfl

@[simp]
theorem lastOf_cons (before : Option α) (c : α) (cs : List α) :
    lastOf before (c :: cs) = lastOf (some c) cs := rfl

theorem lastOf_append (before : Option α) (s t : List α) :
    lastOf before (s ++ t) = lastOf (lastOf before s) t := by
  induction s generalizing before with
  | nil => rfl
  | cons c cs ih => simp [ih]

theorem lastOf_concat (before : Option α) (t : List α) (c : α) :
    lastOf before (t ++ [c]) = some c := by
  rw [lastOf_append, lastOf_cons, lastOf_nil]

/-- The expression can match the text between a place and the rest. -/
def Reads (r : Regex α) (before : Option α) (t rest : List α) : Prop :=
  ⟨lastOf before t, rest⟩ ∈ ends r ⟨before, t ++ rest⟩

theorem manyEnds_reach {before : Option α} {s : List α} {place : Place α} :
    place ∈ manyEnds p before s ↔
      ∃ t rest, s = t ++ rest ∧ place = ⟨lastOf before t, rest⟩ ∧ ∀ c ∈ t, p c := by
  induction s generalizing before with
  | nil => simp [manyEnds]
  | cons c cs ih =>
    rw [manyEnds]
    split
    case isTrue hc =>
      rw [List.mem_append, ih, List.mem_singleton]
      constructor
      · rintro (⟨t, rest, rfl, rfl, ht⟩ | rfl)
        · exact ⟨c :: t, rest, rfl, by rw [lastOf_cons], by simpa [hc] using ht⟩
        · exact ⟨[], c :: cs, rfl, rfl, by simp⟩
      · rintro ⟨t, rest, heq, rfl, ht⟩
        cases t with
        | nil =>
          right
          rw [List.nil_append] at heq
          rw [lastOf_nil, heq]
        | cons d ds =>
          obtain ⟨rfl, rfl⟩ := List.cons.inj heq
          left
          exact ⟨ds, rest, rfl, by rw [lastOf_cons],
            fun e he => ht e (List.mem_cons_of_mem _ he)⟩
    case isFalse hc =>
      rw [List.mem_singleton]
      constructor
      · rintro rfl
        exact ⟨[], c :: cs, rfl, rfl, by simp⟩
      · rintro ⟨t, rest, heq, rfl, ht⟩
        cases t with
        | nil =>
          rw [List.nil_append] at heq
          rw [lastOf_nil, heq]
        | cons d ds =>
          obtain ⟨rfl, rfl⟩ := List.cons.inj heq
          exact absurd (ht c List.mem_cons_self) hc

theorem ends_reach {r : Regex α} {place stop : Place α} (h : stop ∈ ends r place) :
    ∃ t rest, place.rest = t ++ rest ∧ stop = ⟨lastOf place.before t, rest⟩ := by
  induction r generalizing place stop with
  | empty =>
    rw [ends_empty, List.mem_singleton] at h
    exact ⟨[], place.rest, rfl, h⟩
  | one p =>
    rw [ends_one] at h
    split at h
    case h_1 => cases h
    case h_2 c cs hrest =>
    split at h
    case isFalse => cases h
    case isTrue =>
    rw [List.mem_singleton] at h
    exact ⟨[c], cs, hrest, h⟩
  | many p =>
    obtain ⟨t, rest, hrest, hstop, -⟩ := manyEnds_reach.mp h
    exact ⟨t, rest, hrest, hstop⟩
  | boundary word =>
    rw [ends_boundary] at h
    split at h
    case isFalse => cases h
    case isTrue =>
    rw [List.mem_singleton] at h
    exact ⟨[], place.rest, rfl, h⟩
  | seq a b iha ihb =>
    obtain ⟨middle, hmiddle, hstop⟩ := List.mem_flatMap.mp h
    obtain ⟨t, rest, hrest, rfl⟩ := iha hmiddle
    obtain ⟨t', rest', hrest', rfl⟩ := ihb hstop
    change rest = t' ++ rest' at hrest'
    exact ⟨t ++ t', rest', by rw [hrest, hrest', List.append_assoc], by rw [lastOf_append]⟩
  | alt a b iha ihb =>
    rcases List.mem_append.mp h with h | h
    · exact iha h
    · exact ihb h

@[simp]
theorem reads_empty {before : Option α} :
    Reads .empty before t rest ↔ t = [] := by
  simp only [Reads, ends_empty, List.mem_singleton, Place.mk.injEq]
  constructor
  · intro h
    exact List.append_left_eq_self.mp h.2.symm
  · rintro rfl
    simp

@[simp]
theorem reads_one {before : Option α} :
    Reads (.one p) before t rest ↔ ∃ c, t = [c] ∧ p c = true := by
  constructor
  · intro h
    rw [Reads, ends_one] at h
    split at h
    case h_1 => cases h
    case h_2 c cs hrest =>
    split at h
    case isFalse => cases h
    case isTrue hc =>
    rw [List.mem_singleton, Place.mk.injEq] at h
    obtain ⟨-, rfl⟩ := h
    exact ⟨c, List.append_cancel_right (hrest.trans (List.singleton_append).symm), hc⟩
  · rintro ⟨c, rfl, hc⟩
    simp [Reads, ends_one, hc]

@[simp]
theorem reads_many {before : Option α} :
    Reads (.many p) before t rest ↔ ∀ c ∈ t, p c = true := by
  rw [Reads, ends_many, manyEnds_reach]
  constructor
  · rintro ⟨t', rest', heq, hplace, ht⟩
    obtain ⟨-, rfl⟩ := Place.mk.inj hplace
    rw [List.append_cancel_right heq]
    exact ht
  · intro ht
    exact ⟨t, rest, rfl, rfl, ht⟩

@[simp]
theorem reads_boundary {word : α → Bool} {before : Option α} :
    Reads (.boundary word) before t rest ↔
      t = [] ∧ wordAt word before ≠ wordAt word rest.head? := by
  constructor
  · intro h
    rw [Reads, ends_boundary] at h
    split at h
    case isFalse => cases h
    case isTrue hb =>
    rw [List.mem_singleton, Place.mk.injEq] at h
    have ht : t = [] := List.append_left_eq_self.mp h.2.symm
    subst ht
    exact ⟨rfl, hb⟩
  · rintro ⟨rfl, hb⟩
    simp [Reads, ends_boundary, hb]

theorem reads_seq {a b : Regex α} {before : Option α} :
    Reads (.seq a b) before t rest ↔ ∃ t₁ t₂, t = t₁ ++ t₂ ∧ Reads a before t₁ (t₂ ++ rest) ∧
      Reads b (lastOf before t₁) t₂ rest := by
  rw [Reads, ends_seq, List.mem_flatMap]
  constructor
  · rintro ⟨middle, hmiddle, hstop⟩
    obtain ⟨t₁, rest₁, hrest₁, rfl⟩ := ends_reach hmiddle
    obtain ⟨t₂, rest₂, hrest₂, hplace⟩ := ends_reach hstop
    obtain ⟨-, rfl⟩ := Place.mk.inj hplace
    change rest₁ = t₂ ++ rest at hrest₂
    subst hrest₂
    have ht : t = t₁ ++ t₂ := by
      change t ++ rest = t₁ ++ (t₂ ++ rest) at hrest₁
      rw [← List.append_assoc] at hrest₁
      exact List.append_cancel_right hrest₁
    subst ht
    refine ⟨t₁, t₂, rfl, ?_, ?_⟩
    · rw [Reads, ← List.append_assoc]
      exact hmiddle
    · rw [Reads, ← lastOf_append]
      exact hstop
  · rintro ⟨t₁, t₂, rfl, h₁, h₂⟩
    rw [Reads] at h₁ h₂
    rw [List.append_assoc, lastOf_append]
    exact ⟨_, h₁, h₂⟩

theorem reads_alt {a b : Regex α} {before : Option α} :
    Reads (.alt a b) before t rest ↔ Reads a before t rest ∨ Reads b before t rest := by
  rw [Reads, ends_alt, List.mem_append]
  rfl

theorem reads_plus {before : Option α} :
    Reads (.plus p) before t rest ↔ t ≠ [] ∧ ∀ c ∈ t, p c = true := by
  rw [Regex.plus, reads_seq]
  constructor
  · rintro ⟨t₁, t₂, rfl, h₁, h₂⟩
    obtain ⟨c, rfl, hc⟩ := reads_one.mp h₁
    refine ⟨by simp, ?_⟩
    simpa [hc] using reads_many.mp h₂
  · rintro ⟨hne, ht⟩
    cases t with
    | nil => exact absurd rfl hne
    | cons c cs =>
      refine ⟨[c], cs, rfl, reads_one.mpr ⟨c, rfl, ht c List.mem_cons_self⟩, ?_⟩
      exact reads_many.mpr fun d hd => ht d (List.mem_cons_of_mem _ hd)

theorem reads_literal {alike : α → α → Bool} {cs : List α} {before : Option α} :
    Reads (.literal alike cs) before t rest ↔ List.Forall₂ (fun c d => alike c d = true) cs t := by
  induction cs generalizing before t with
  | nil =>
    rw [Regex.literal, reads_empty, List.forall₂_nil_left_iff]
  | cons c cs ih =>
    rw [Regex.literal, reads_seq]
    constructor
    · rintro ⟨t₁, t₂, rfl, h₁, h₂⟩
      obtain ⟨d, rfl, hd⟩ := reads_one.mp h₁
      exact .cons hd (ih.mp h₂)
    · intro h
      cases h with
      | cons hd htail =>
        exact ⟨[_], _, rfl, reads_one.mpr ⟨_, rfl, hd⟩, ih.mpr htail⟩

theorem reads_anyOf {rs : List (Regex α)} {before : Option α} :
    Reads (.anyOf rs) before t rest ↔ ∃ r ∈ rs, Reads r before t rest := by
  induction rs with
  | nil => simp [Regex.anyOf]
  | cons r rs ih =>
    rw [Regex.anyOf, reads_alt, ih]
    simp

end Reading

section Finding

variable {rule : Rule α} {before : Option α}
variable {p : α → Bool} {s : List α}

theorem manyEnds_head (p : α → Bool) (before : Option α) (t rest : List α)
    (ht : ∀ c ∈ t, p c = true) (hrest : ∀ c ∈ rest.head?, p c = false) :
    (manyEnds p before (t ++ rest)).head? = some ⟨lastOf before t, rest⟩ := by
  induction t generalizing before with
  | nil =>
    cases rest with
    | nil => rfl
    | cons c cs => simp [manyEnds, hrest c rfl]
  | cons c cs ih =>
    have hc : p c = true := ht c List.mem_cons_self
    have htail := ih (some c) fun d hd => ht d (List.mem_cons_of_mem _ hd)
    rw [List.cons_append, manyEnds, if_pos hc, List.head?_append, htail, lastOf_cons]
    rfl

theorem plus_head (p : α → Bool) (before : Option α) (t rest : List α) (hne : t ≠ [])
    (ht : ∀ c ∈ t, p c = true) (hrest : ∀ c ∈ rest.head?, p c = false) :
    (ends (.plus p) ⟨before, t ++ rest⟩).head? = some ⟨lastOf before t, rest⟩ := by
  cases t with
  | nil => exact absurd rfl hne
  | cons c cs =>
    have hc : p c = true := ht c List.mem_cons_self
    have hmany := manyEnds_head p (some c) cs rest (fun d hd => ht d (List.mem_cons_of_mem _ hd)) hrest
    simpa [Regex.plus, ends_seq, ends_one, ends_many, hc] using hmany

theorem plus_none {before : Option α}
    (h : ∀ c ∈ s.head?, p c = false) : ends (.plus p) ⟨before, s⟩ = [] := by
  cases s with
  | nil => rfl
  | cons c cs => simp [Regex.plus, ends_seq, ends_one, h c rfl]

theorem seq_head {a b : Regex α} {place middle stop : Place α}
    (ha : (ends a place).head? = some middle) (hb : (ends b middle).head? = some stop) :
    (ends (.seq a b) place).head? = some stop := by
  cases hends : ends a place with
  | nil =>
    rw [hends] at ha
    cases ha
  | cons first others =>
    rw [hends] at ha
    cases ha
    rw [ends_seq, hends, List.flatMap_cons, List.head?_append, hb]
    rfl

theorem ends_seq_alt (a b c : Regex α) (place : Place α) :
    ends (.seq (.alt a b) c) place = ends (.seq a c) place ++ ends (.seq b c) place := by
  rw [ends_seq, ends_alt, ends_seq, ends_seq, List.flatMap_append]

theorem ends_seq_empty (a : Regex α) (place : Place α) : ends (.seq .empty a) place = ends a place := by
  simp [ends_seq, ends_empty]

theorem ends_seq_anyOf_nil (a : Regex α) (place : Place α) :
    ends (.seq (.anyOf []) a) place = [] := by
  cases hrest : place.rest <;> simp [Regex.anyOf, ends_seq, ends_one, hrest]

theorem literal_head {alike : α → α → Bool} {cs t : List α} (before : Option α) (rest : List α)
    (h : List.Forall₂ (fun c d => alike c d = true) cs t) :
    ends (.literal alike cs) ⟨before, t ++ rest⟩ = [⟨lastOf before t, rest⟩] := by
  induction h generalizing before with
  | nil => rfl
  | cons hd _ ih => simp [Regex.literal, ends_seq, ends_one, hd, ih]

theorem ends_eq_nil_iff {r : Regex α} {before : Option α} :
    ends r ⟨before, s⟩ = [] ↔ ∀ t rest, s = t ++ rest → ¬ Reads r before t rest := by
  constructor
  · intro h t rest hs hreads
    rw [Reads, ← hs, h] at hreads
    cases hreads
  · intro h
    by_contra hne
    obtain ⟨stop, hstop⟩ := List.exists_mem_of_ne_nil _ hne
    obtain ⟨t, rest, hs, rfl⟩ := ends_reach hstop
    change s = t ++ rest at hs
    subst hs
    exact h t rest rfl hstop

/-- A text splits in one way into characters of a class and a rest that does not go on with one. -/
theorem split_unique {a a' x x' : List α} (ha : ∀ c ∈ a, p c = true)
    (ha' : ∀ c ∈ a', p c = true) (hx : ∀ c ∈ x.head?, p c = false)
    (hx' : ∀ c ∈ x'.head?, p c = false) (h : a ++ x = a' ++ x') : a = a' ∧ x = x' := by
  induction a generalizing a' with
  | nil =>
    cases a' with
    | nil => exact ⟨rfl, h⟩
    | cons d ds =>
      rw [List.nil_append] at h
      subst h
      have hd := hx d rfl
      rw [ha' d List.mem_cons_self] at hd
      cases hd
  | cons c cs ih =>
    cases a' with
    | nil =>
      rw [List.nil_append] at h
      subst h
      have hc := hx' c rfl
      rw [ha c List.mem_cons_self] at hc
      cases hc
    | cons d ds =>
      obtain ⟨rfl, htail⟩ := List.cons.inj h
      obtain ⟨rfl, rfl⟩ := ih (fun e he => ha e (List.mem_cons_of_mem _ he))
        (fun e he => ha' e (List.mem_cons_of_mem _ he)) htail
      exact ⟨rfl, rfl⟩

theorem last_unique {x x' y y' : List α} {e e' : α} (hy : ∀ c ∈ y, p c = true)
    (hy' : ∀ c ∈ y', p c = true) (he : p e = false) (he' : p e' = false)
    (h : x ++ e :: y = x' ++ e' :: y') : e = e' := by
  have hreverse := congrArg List.reverse h
  simp only [List.reverse_append, List.reverse_cons, List.append_assoc, List.singleton_append] at hreverse
  have hstop : ∀ (z : List α) (d : α), p d = false → ∀ c ∈ (d :: z).head?, p c = false := by
    intro z d hd c hc
    cases hc
    exact hd
  obtain ⟨-, hrest⟩ := split_unique (fun c hc => hy c (List.mem_reverse.mp hc))
    (fun c hc => hy' c (List.mem_reverse.mp hc)) (hstop _ e he) (hstop _ e' he') hreverse
  exact (List.cons.inj hrest).1

theorem find_eq_of_only {k rest : List α} (hk : Reads rule.kept before k rest)
    (honly : ∀ k' rest', k ++ rest = k' ++ rest' → Reads rule.kept before k' rest' →
      ends rule.dropped ⟨lastOf before k', rest'⟩ ≠ [] → k' = k) :
    rule.find ⟨before, k ++ rest⟩ = (ends rule.dropped ⟨lastOf before k, rest⟩).head?.map
      fun stop => (⟨lastOf before k, rest⟩, stop) := by
  have hmiddles : ∀ middle ∈ ends rule.kept ⟨before, k ++ rest⟩,
      ends rule.dropped middle ≠ [] → middle = ⟨lastOf before k, rest⟩ := by
    intro middle hmiddle hdropped
    obtain ⟨k', rest', heq, rfl⟩ := ends_reach hmiddle
    change k ++ rest = k' ++ rest' at heq
    have hsame : k' = k := honly k' rest' heq (by rw [Reads, ← heq]; exact hmiddle) hdropped
    subst hsame
    rw [List.append_cancel_left heq]
  rw [Rule.find]
  rw [Reads] at hk
  generalize ends rule.kept ⟨before, k ++ rest⟩ = middles at hk hmiddles
  induction middles with
  | nil => cases hk
  | cons middle middles ih =>
    rw [List.flatMap_cons, List.head?_append, List.head?_map]
    by_cases hdropped : ends rule.dropped middle = []
    · rw [hdropped]
      simp only [List.head?_nil, Option.map_none, Option.none_or]
      rcases List.mem_cons.mp hk with rfl | hk
      · rw [hdropped]
        simp only [List.head?_nil, Option.map_none, List.head?_eq_none_iff, List.flatMap_eq_nil_iff,
          List.map_eq_nil_iff]
        intro other hother
        by_contra hne
        rw [hmiddles other (List.mem_cons_of_mem _ hother) hne] at hne
        exact hne hdropped
      · exact ih hk fun other hother => hmiddles other (List.mem_cons_of_mem _ hother)
    · have hmiddle := hmiddles middle List.mem_cons_self hdropped
      subst hmiddle
      cases hends : ends rule.dropped ⟨lastOf before k, rest⟩ with
      | nil => exact absurd hends hdropped
      | cons first others => simp

theorem find_reads {middle stop : Place α}
    (h : rule.find ⟨before, s⟩ = some (middle, stop)) :
    ∃ k v rest, s = k ++ (v ++ rest) ∧ Reads rule.kept before k (v ++ rest) ∧
      Reads rule.dropped (lastOf before k) v rest ∧
      middle = ⟨lastOf before k, v ++ rest⟩ ∧ stop = ⟨lastOf before (k ++ v), rest⟩ := by
  have hmem := List.mem_of_mem_head? (Option.mem_def.mpr h)
  obtain ⟨m, hm, hpair⟩ := List.mem_flatMap.mp hmem
  obtain ⟨st, hst, heq⟩ := List.mem_map.mp hpair
  cases heq
  obtain ⟨k, rest, hrest, rfl⟩ := ends_reach hm
  obtain ⟨v, rest', hrest', rfl⟩ := ends_reach hst
  change s = k ++ rest at hrest
  change rest = v ++ rest' at hrest'
  subst hrest'
  subst hrest
  exact ⟨k, v, rest', rfl, hm, hst, rfl, by rw [lastOf_append]⟩

end Finding

section Substituting

variable {rule : Rule α}

theorem sub_skip (before : Option α) (t s : List α) :
    rule.sub before t.length (t ++ s) = rule.sub (lastOf before t) 0 s := by
  induction t generalizing before with
  | nil => rfl
  | cons c cs ih => rw [List.length_cons, List.cons_append, Rule.sub, ih, lastOf_cons]

theorem sub_of_none {before : Option α} {c : α} {cs : List α}
    (h : rule.find ⟨before, c :: cs⟩ = none) :
    rule.sub before 0 (c :: cs) = c :: rule.sub (some c) 0 cs := by
  rw [Rule.sub, h]

/-- A match at a place is replaced, and the substitution goes on behind it. -/
theorem sub_of_find {before : Option α} {k v rest : List α} (hv : v ≠ [])
    (h : rule.find ⟨before, k ++ (v ++ rest)⟩ =
      some (⟨lastOf before k, v ++ rest⟩, ⟨lastOf before (k ++ v), rest⟩)) :
    rule.sub before 0 (k ++ (v ++ rest)) =
      k ++ (rule.replacement ++ rule.sub (lastOf before (k ++ v)) 0 rest) := by
  have hne : k ++ v ≠ [] := by simp [hv]
  rw [← List.append_assoc] at h ⊢
  have htake : (k ++ v ++ rest).take ((k ++ v ++ rest).length - (v ++ rest).length) = k := by
    rw [List.append_assoc, List.length_append, Nat.add_sub_cancel, List.take_left]
  generalize hkv : k ++ v = kv at h htake hne ⊢
  cases kv with
  | nil => exact absurd rfl hne
  | cons c cs =>
    rw [List.cons_append] at h htake ⊢
    rw [Rule.sub, h]
    have hskip : (cs ++ rest).length - rest.length = cs.length := by simp
    simp only [htake, hskip, sub_skip, lastOf_cons, List.append_assoc]

/-- Where no match begins the text stays as it is. -/
theorem sub_of_no_match {before : Option α} {t rest : List α}
    (h : ∀ p c q, t = p ++ c :: q → rule.find ⟨lastOf before p, c :: (q ++ rest)⟩ = none) :
    rule.sub before 0 (t ++ rest) = t ++ rule.sub (lastOf before t) 0 rest := by
  induction t generalizing before with
  | nil => rfl
  | cons c cs ih =>
    have hfirst : rule.find ⟨before, c :: (cs ++ rest)⟩ = none := h [] c cs rfl
    rw [List.cons_append, sub_of_none hfirst, List.cons_append, lastOf_cons, ih]
    intro p d q hq
    exact h (c :: p) d q (by rw [hq, List.cons_append])

/-- A match at a place ends before the text that follows, whichever of the texts that is. -/
def Closed (rule : Rule α) (after : List α → Prop) (before : Option α) (q : List α) : Prop :=
  ∃ k v r, q = k ++ (v ++ r) ∧ v ≠ [] ∧ r ≠ [] ∧ ∀ w, after w →
    rule.find ⟨before, q ++ w⟩ =
      some (⟨lastOf before k, v ++ (r ++ w)⟩, ⟨lastOf before (k ++ v), r ++ w⟩)

/-- If every match in a text either ends there or is open at its end, the text is substituted on its
own up to the open match, if there is one. -/
theorem sub_prefixed {after : List α → Prop} {opens : Option α → List α → Prop} {s : List α}
    (h : ∀ before q, q ≠ [] → q <:+ s → opens before q ∨ Closed rule after before q ∨
      ∀ w, after w → rule.find ⟨before, q ++ w⟩ = none) (before : Option α) :
    (∃ p q out, s = p ++ q ∧ opens (lastOf before p) q ∧ ∀ w, after w →
      rule.sub before 0 (s ++ w) = out ++ rule.sub (lastOf before p) 0 (q ++ w)) ∨
    ∃ out, out.getLast? = s.getLast? ∧ ∀ w, after w →
      rule.sub before 0 (s ++ w) = out ++ rule.sub (lastOf before s) 0 w := by
  induction hn : s.length using Nat.strong_induction_on generalizing s before with
  | _ n ih =>
  cases s with
  | nil => exact .inr ⟨[], rfl, fun w _ => rfl⟩
  | cons c cs =>
  rcases h before (c :: cs) (by simp) (List.suffix_refl _) with hopens | hclosed | hnone
  · exact .inl ⟨[], c :: cs, [], rfl, hopens, fun w _ => rfl⟩
  · obtain ⟨k, v, r, hq, hv, hr, hfind⟩ := hclosed
    have hstep : ∀ w, after w → rule.sub before 0 (c :: cs ++ w) =
        k ++ (rule.replacement ++ rule.sub (lastOf before (k ++ v)) 0 (r ++ w)) := by
      intro w hw
      have hfound := hfind w hw
      rw [hq, List.append_assoc, List.append_assoc] at hfound ⊢
      exact sub_of_find hv hfound
    have hsuffix : r <:+ c :: cs := ⟨k ++ v, by rw [hq, List.append_assoc]⟩
    have hlength : r.length < n := by
      have hpos := List.length_pos_iff.mpr hv
      rw [← hn, hq, List.length_append, List.length_append]
      omega
    rcases ih r.length hlength (fun b q hne hsuf => h b q hne (hsuf.trans hsuffix))
      (lastOf before (k ++ v)) rfl with ⟨p, q, out, hs, hopens, hout⟩ | ⟨out, hlast, hout⟩
    · refine .inl ⟨k ++ (v ++ p), q, k ++ (rule.replacement ++ out), by simp [hq, hs], ?_, ?_⟩
      · rw [← List.append_assoc, lastOf_append]
        exact hopens
      · intro w hw
        rw [hstep w hw, hout w hw, ← List.append_assoc k v p, lastOf_append before (k ++ v) p]
        simp
    · refine .inr ⟨k ++ (rule.replacement ++ out), ?_, ?_⟩
      · have hne : out ≠ [] := by
          rintro rfl
          exact hr (List.getLast?_eq_none_iff.mp hlast.symm)
        rw [hq, ← List.append_assoc, ← List.append_assoc, List.getLast?_append_of_ne_nil _ hne,
          List.getLast?_append_of_ne_nil _ hr, hlast]
      · intro w hw
        rw [hstep w hw, hout w hw, hq, ← List.append_assoc k v r, lastOf_append before (k ++ v) r]
        simp
  · have hstep : ∀ w, after w →
        rule.sub before 0 (c :: cs ++ w) = c :: rule.sub (some c) 0 (cs ++ w) :=
      fun w hw => sub_of_none (hnone w hw)
    have hlength : cs.length < n := by
      rw [← hn, List.length_cons]
      omega
    rcases ih cs.length hlength (fun b q hne hsuf => h b q hne (hsuf.trans (List.suffix_cons c cs)))
      (some c) rfl with ⟨p, q, out, hs, hopens, hout⟩ | ⟨out, hlast, hout⟩
    · refine .inl ⟨c :: p, q, c :: out, by rw [hs, List.cons_append], hopens, ?_⟩
      intro w hw
      rw [hstep w hw, hout w hw]
      rfl
    · refine .inr ⟨c :: out, ?_, ?_⟩
      · cases cs with
        | nil =>
          rw [List.getLast?_nil, List.getLast?_eq_none_iff] at hlast
          rw [hlast]
        | cons d ds =>
          have hne : out ≠ [] := by
            rintro rfl
            exact List.cons_ne_nil _ _ (List.getLast?_eq_none_iff.mp hlast.symm)
          rw [← List.singleton_append, List.getLast?_append_of_ne_nil _ hne, hlast,
            List.getLast?_cons_cons]
      · intro w hw
        rw [hstep w hw, hout w hw]
        rfl

end Substituting

end EveTrade.RegexText
