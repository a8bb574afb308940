import Mathlib.Algebra.BigOperators.Group.List.Basic
import Mathlib.Tactic

set_option autoImplicit false

/-!
# Tables with a primary key

A table is a list of rows in insertion order whose keys are pairwise distinct, so a duplicate key
cannot be stored. `insert?` is an `INSERT` that meets the primary key, `set` an `UPDATE` of one row
by its key, and `sum` an aggregate over all rows.
-/
namespace EveTrade.KeyedTable

class Keyed (R : Type) (K : outParam Type) where
  key : R → K

structure Table (R : Type) {K : Type} [Keyed R K] where
  rows : List R
  nodup : (rows.map (Keyed.key : R → K)).Nodup

namespace Table

variable {R K : Type} [Keyed R K]
variable {t : Table R} {r : R} {k : K}

def empty : Table R := ⟨[], List.nodup_nil⟩

@[ext] theorem ext {t u : Table R} (h : t.rows = u.rows) : t = u := by
  cases t
  cases u
  cases h
  rfl

theorem mem_unique {r q : R} (hr : r ∈ t.rows) (hq : q ∈ t.rows)
    (h : Keyed.key r = Keyed.key q) : r = q :=
  List.inj_on_of_nodup_map t.nodup hr hq h

def sum {M : Type} [AddCommGroup M] (t : Table R) (f : R → M) : M := (t.rows.map f).sum

theorem sum_eq_zero {M : Type} [AddCommGroup M] {f : R → M}
    (h : ∀ r ∈ t.rows, f r = 0) : t.sum f = 0 := by
  unfold sum
  rw [List.map_congr_left h]
  simp

theorem sum_eq_single {M : Type} [AddCommGroup M] {f : R → M}
    (hr : r ∈ t.rows) (h : ∀ q ∈ t.rows, q ≠ r → f q = 0) : t.sum f = f r := by
  classical
  have hnodup : t.rows.Nodup := t.nodup.of_map
  unfold sum
  rw [List.sum_map_eq_nsmul_single r f fun q hne hq => h q hq hne,
    List.count_eq_one_of_mem hnodup hr, one_nsmul]

variable [DecidableEq K]

def find? (t : Table R) (k : K) : Option R := t.rows.find? (fun r => decide (Keyed.key r = k))

/-- A row whose key is taken is refused; a new row goes to the end. -/
def insert? (t : Table R) (r : R) : Option (Table R) :=
  if h : Keyed.key r ∈ t.rows.map (Keyed.key : R → K) then none
  else some ⟨t.rows ++ [r], by
    rw [List.map_append, List.map_singleton]
    exact List.Nodup.append t.nodup (List.nodup_singleton _) (by simpa using h)⟩

theorem map_key_replace (rows : List R) (r : R) :
    (rows.map (fun x => if Keyed.key x = Keyed.key r then r else x)).map (Keyed.key : R → K) =
      rows.map Keyed.key := by
  rw [List.map_map]
  apply List.map_congr_left
  intro x _
  by_cases h : Keyed.key x = Keyed.key r
  · simp [h]
  · simp [h]

/-- The row with `r`'s key becomes `r`; without such a row nothing changes. -/
def set (t : Table R) (r : R) : Table R :=
  ⟨t.rows.map (fun x => if Keyed.key x = Keyed.key r then r else x), by
    rw [map_key_replace]
    exact t.nodup⟩

def modify (t : Table R) (k : K) (f : R → R) : Table R :=
  match t.find? k with
  | none => t
  | some r => t.set (f r)

theorem find?_some_key (h : t.find? k = some r) :
    Keyed.key r = k := by
  simpa using List.find?_some h

theorem find?_some_mem (h : t.find? k = some r) : r ∈ t.rows :=
  List.mem_of_find?_eq_some h

theorem find?_of_mem (h : r ∈ t.rows) : t.find? (Keyed.key r) = some r := by
  cases hf : t.find? (Keyed.key r) with
  | none =>
    have := List.find?_eq_none.1 hf r h
    simp at this
  | some q => rw [mem_unique (find?_some_mem hf) h (find?_some_key hf)]

theorem find?_eq_some_iff :
    t.find? k = some r ↔ r ∈ t.rows ∧ Keyed.key r = k := by
  constructor
  · intro h
    exact ⟨find?_some_mem h, find?_some_key h⟩
  · rintro ⟨hm, rfl⟩
    exact find?_of_mem hm

theorem find?_eq_none_iff :
    t.find? k = none ↔ ∀ r ∈ t.rows, Keyed.key r ≠ k := by
  simp [find?, List.find?_eq_none]

theorem insert?_eq_some_iff {t u : Table R} :
    t.insert? r = some u ↔ t.find? (Keyed.key r) = none ∧ u.rows = t.rows ++ [r] := by
  unfold insert?
  rw [find?_eq_none_iff]
  split
  · rename_i h
    simp only [List.mem_map] at h
    obtain ⟨q, hq, hk⟩ := h
    simp only [reduceCtorEq, false_iff, not_and]
    intro hn
    exact absurd hk (hn q hq)
  · rename_i h
    simp only [List.mem_map, not_exists, not_and] at h
    simp only [Option.some.injEq]
    constructor
    · rintro rfl
      exact ⟨h, rfl⟩
    · rintro ⟨_, hu⟩
      exact ext hu.symm

theorem insert?_eq_none_iff :
    t.insert? r = none ↔ ∃ q, t.find? (Keyed.key r) = some q := by
  cases hi : t.insert? r with
  | none =>
    simp only [true_iff]
    by_contra hn
    have hf : t.find? (Keyed.key r) = none := by
      cases h : t.find? (Keyed.key r) with
      | none => rfl
      | some q => exact absurd ⟨q, h⟩ hn
    unfold insert? at hi
    split at hi
    · rename_i h
      obtain ⟨q, hq, hk⟩ := List.mem_map.1 h
      exact find?_eq_none_iff.1 hf q hq hk
    · cases hi
  | some u =>
    have := (insert?_eq_some_iff.1 hi).1
    simp [this]

theorem find?_insert {t u : Table R} (h : t.insert? r = some u) (k : K) :
    u.find? k = if Keyed.key r = k then some r else t.find? k := by
  obtain ⟨hn, hr⟩ := insert?_eq_some_iff.1 h
  unfold find?
  rw [hr, List.find?_append]
  by_cases hk : Keyed.key r = k
  · subst hk
    have hn' : t.rows.find? (fun q => decide (Keyed.key q = Keyed.key r)) = none := hn
    simp [hn']
  · simp [hk]

theorem find?_insert_self {t u : Table R} (h : t.insert? r = some u) :
    u.find? (Keyed.key r) = some r := by
  rw [find?_insert h, if_pos rfl]

theorem set_rows (t : Table R) (r : R) :
    (t.set r).rows = t.rows.map (fun x => if Keyed.key x = Keyed.key r then r else x) := rfl

theorem find?_set (t : Table R) (r : R) (k : K) :
    (t.set r).find? k = if Keyed.key r = k then (t.find? k).map (fun _ => r) else t.find? k := by
  unfold find?
  rw [set_rows]
  induction t.rows with
  | nil => simp
  | cons x xs ih =>
    rw [List.map_cons, List.find?_cons, List.find?_cons, ih]
    by_cases hxr : Keyed.key x = Keyed.key r
    · by_cases hr : Keyed.key r = k
      · simp [hxr, hr]
      · simp [hxr, hr]
    · by_cases hx : Keyed.key x = k
      · subst hx
        have hr : Keyed.key r ≠ Keyed.key x := fun h => hxr h.symm
        simp only [if_neg hxr, hr, decide_true, if_false]
      · simp only [if_neg hxr, hx, decide_false]

theorem find?_set_self {r q : R} (h : t.find? (Keyed.key r) = some q) :
    (t.set r).find? (Keyed.key r) = some r := by
  rw [find?_set, if_pos rfl, h]
  rfl

theorem find?_set_ne (h : Keyed.key r ≠ k) :
    (t.set r).find? k = t.find? k := by
  rw [find?_set, if_neg h]

theorem find?_set_eq_none :
    (t.set r).find? k = none ↔ t.find? k = none := by
  rw [find?_set]
  split_ifs
  · exact Option.map_eq_none_iff
  · rfl

theorem mem_set {r x : R} :
    x ∈ (t.set r).rows ↔
      (x = r ∧ ∃ q, t.find? (Keyed.key r) = some q) ∨ (x ∈ t.rows ∧ Keyed.key x ≠ Keyed.key r) := by
  rw [set_rows, List.mem_map]
  constructor
  · rintro ⟨q, hq, he⟩
    by_cases hk : Keyed.key q = Keyed.key r
    · rw [if_pos hk] at he
      exact .inl ⟨he.symm, q, hk ▸ find?_of_mem hq⟩
    · rw [if_neg hk] at he
      exact .inr ⟨he ▸ hq, he ▸ hk⟩
  · rintro (⟨rfl, q, hq⟩ | ⟨hx, hk⟩)
    · exact ⟨q, find?_some_mem hq, if_pos (find?_some_key hq)⟩
    · exact ⟨x, hx, if_neg hk⟩

theorem mem_set_of_ne {r q x : R} (h : t.find? (Keyed.key r) = some q) (hr : x ≠ r)
    (hq : x ≠ q) : x ∈ (t.set r).rows ↔ x ∈ t.rows := by
  rw [mem_set]
  constructor
  · rintro (⟨he, _⟩ | ⟨hx, _⟩)
    · exact absurd he hr
    · exact hx
  · intro hx
    refine .inr ⟨hx, fun hk => hq ?_⟩
    exact mem_unique hx (find?_some_mem h) (hk.trans (find?_some_key h).symm)

theorem mem_insert {t u : Table R} {r x : R} (h : t.insert? r = some u) :
    x ∈ u.rows ↔ x ∈ t.rows ∨ x = r := by
  rw [(insert?_eq_some_iff.1 h).2]
  simp

theorem modify_of_find? (h : t.find? k = some r) (f : R → R) :
    t.modify k f = t.set (f r) := by
  unfold modify
  rw [h]

theorem modify_of_none (h : t.find? k = none) (f : R → R) :
    t.modify k f = t := by
  unfold modify
  rw [h]

theorem set_set {r q : R} (h : Keyed.key q = Keyed.key r) :
    (t.set r).set q = t.set q := by
  apply ext
  rw [set_rows, set_rows, set_rows, List.map_map]
  apply List.map_congr_left
  intro x _
  by_cases hx : Keyed.key x = Keyed.key r
  · simp [hx, h]
  · have hq : Keyed.key x ≠ Keyed.key q := fun e => hx (e.trans h)
    simp [hx, hq]

theorem set_of_not_mem {rows : List R} (h : ∀ x ∈ rows, Keyed.key x ≠ Keyed.key r) :
    rows.map (fun x => if Keyed.key x = Keyed.key r then r else x) = rows := by
  conv_rhs => rw [← List.map_id rows]
  apply List.map_congr_left
  intro x hx
  simp [h x hx]

theorem insert_set {t u : Table R} {r q : R} (h : t.insert? r = some u)
    (hk : Keyed.key q = Keyed.key r) : t.insert? q = some (u.set q) := by
  obtain ⟨hn, hr⟩ := insert?_eq_some_iff.1 h
  rw [insert?_eq_some_iff, hk, set_rows, hr]
  refine ⟨hn, ?_⟩
  rw [List.map_append, set_of_not_mem (fun x hx => hk ▸ find?_eq_none_iff.1 hn x hx)]
  simp [hk]

theorem insert_modify {t u : Table R} (h : t.insert? r = some u) (f : R → R)
    (hk : Keyed.key (f r) = Keyed.key r) :
    t.insert? (f r) = some (u.modify (Keyed.key r) f) := by
  rw [modify_of_find? (find?_insert_self h)]
  exact insert_set h hk

theorem modify_rows {front back : List R}
    (h : t.rows = front ++ r :: back) (f : R → R) (hk : Keyed.key (f r) = Keyed.key r) :
    (t.modify (Keyed.key r) f).rows = front ++ f r :: back := by
  have hr : t.find? (Keyed.key r) = some r := find?_of_mem (by simp [h])
  have hd : ((front ++ r :: back).map (Keyed.key : R → K)).Nodup := h ▸ t.nodup
  rw [List.map_append, List.map_cons, List.nodup_append, List.nodup_cons] at hd
  have hfront : ∀ x ∈ front, Keyed.key x ≠ Keyed.key (f r) := fun x hx =>
    hk ▸ hd.2.2 _ (List.mem_map_of_mem hx) _ List.mem_cons_self
  have hback : ∀ x ∈ back, Keyed.key x ≠ Keyed.key (f r) := fun x hx he =>
    hd.2.1.1 (List.mem_map.2 ⟨x, hx, he.trans hk⟩)
  rw [modify_of_find? hr, set_rows, h, List.map_append, List.map_cons, set_of_not_mem hfront,
    set_of_not_mem hback, if_pos hk.symm]

theorem find?_modify (t : Table R) (k : K) (f : R → R)
    (hf : ∀ r, Keyed.key (f r) = Keyed.key r) (j : K) :
    (t.modify k f).find? j = if k = j then (t.find? j).map f else t.find? j := by
  cases h : t.find? k with
  | none =>
    rw [modify_of_none h]
    split_ifs with hj
    · rw [← hj, h]
      rfl
    · rfl
  | some r =>
    have hk : Keyed.key (f r) = k := (hf r).trans (find?_some_key h)
    rw [modify_of_find? h, find?_set, hk]
    split_ifs with hj
    · rw [← hj, h]
      rfl
    · rfl

theorem mem_modify (t : Table R) (k : K) (f : R → R) (hf : ∀ r, Keyed.key (f r) = Keyed.key r)
    (x : R) :
    x ∈ (t.modify k f).rows ↔ ∃ r ∈ t.rows, x = if Keyed.key r = k then f r else r := by
  cases h : t.find? k with
  | none =>
    rw [modify_of_none h]
    have hne := find?_eq_none_iff.1 h
    constructor
    · intro hx
      exact ⟨x, hx, by rw [if_neg (hne x hx)]⟩
    · rintro ⟨r, hr, rfl⟩
      rwa [if_neg (hne r hr)]
  | some q =>
    obtain ⟨hq, hk⟩ := find?_eq_some_iff.1 h
    rw [modify_of_find? h, set_rows, List.mem_map]
    have hrow : ∀ r ∈ t.rows, (if Keyed.key r = Keyed.key (f q) then f q else r) =
        if Keyed.key r = k then f r else r := by
      intro r hr
      rw [hf q, hk]
      split_ifs with hrk
      · rw [mem_unique hr hq (hrk.trans hk.symm)]
      · rfl
    constructor
    · rintro ⟨r, hr, rfl⟩
      exact ⟨r, hr, hrow r hr⟩
    · rintro ⟨r, hr, rfl⟩
      exact ⟨r, hr, hrow r hr⟩

/-- `u` is `t` with the row `r` put in, in the place of a row with its key if there is one. -/
def Put (t : Table R) (r : R) (u : Table R) : Prop :=
  t.insert? r = some u ∨ (t.find? (Keyed.key r) ≠ none ∧ u = t.set r)

theorem find?_put {t u : Table R} (h : t.Put r u) (k : K) :
    u.find? k = if Keyed.key r = k then some r else t.find? k := by
  rcases h with h | ⟨hr, rfl⟩
  · exact find?_insert h k
  · rw [find?_set]
    split_ifs with hk
    · rw [← hk, Option.map_eq_some_iff]
      obtain ⟨q, hq⟩ := Option.ne_none_iff_exists'.1 hr
      exact ⟨q, hq, rfl⟩
    · rfl

theorem put_modify {t u : Table R} (h : t.Put r u) (f : R → R)
    (hk : Keyed.key (f r) = Keyed.key r) : t.Put (f r) (u.modify (Keyed.key r) f) := by
  rcases h with h | ⟨hr, rfl⟩
  · exact .inl (insert_modify h f hk)
  · obtain ⟨q, hq⟩ := Option.ne_none_iff_exists'.1 hr
    refine .inr ⟨by rwa [hk], ?_⟩
    rw [modify_of_find? (find?_set_self hq), set_set hk]

section Views

variable {β : Type} {f : R → β}

/-- Every row of `t` is still there in `u`, and looks the same through `f`. -/
def Keeps (f : R → β) (t u : Table R) : Prop :=
  ∀ k r, t.find? k = some r → ∃ q, u.find? k = some q ∧ f q = f r

/-- Every row of `u` looks through `f` like a row of `t`. -/
def Within (f : R → β) (t u : Table R) : Prop := ∀ q ∈ u.rows, ∃ r ∈ t.rows, f r = f q

theorem Keeps.refl (f : R → β) (t : Table R) : Keeps f t t := fun _ r h => ⟨r, h, rfl⟩

theorem Keeps.trans {t u v : Table R} (h : Keeps f t u) (h' : Keeps f u v) : Keeps f t v := by
  intro k r hr
  obtain ⟨q, hq, hqr⟩ := h k r hr
  obtain ⟨p, hp, hpq⟩ := h' k q hq
  exact ⟨p, hp, hpq.trans hqr⟩

theorem Keeps.set {t : Table R} {r q : R} (h : t.find? (Keyed.key r) = some q) (hf : f r = f q) :
    Keeps f t (t.set r) := by
  intro k p hp
  by_cases hk : Keyed.key r = k
  · subst hk
    obtain rfl := Option.some.inj (h.symm.trans hp)
    exact ⟨r, find?_set_self h, hf⟩
  · exact ⟨p, by rw [find?_set_ne hk, hp], rfl⟩

theorem Keeps.insert {t u : Table R} {r : R} (h : t.insert? r = some u) : Keeps f t u := by
  intro k p hp
  refine ⟨p, ?_, rfl⟩
  rw [find?_insert h, if_neg, hp]
  rintro rfl
  rw [(insert?_eq_some_iff.1 h).1] at hp
  cases hp

omit [DecidableEq K] in
theorem Within.refl (f : R → β) (t : Table R) : Within f t t := fun r h => ⟨r, h, rfl⟩

omit [DecidableEq K] in
theorem Within.trans {t u v : Table R} (h : Within f t u) (h' : Within f u v) : Within f t v := by
  intro p hp
  obtain ⟨q, hq, hqp⟩ := h' p hp
  obtain ⟨r, hr, hrq⟩ := h q hq
  exact ⟨r, hr, hrq.trans hqp⟩

theorem Within.set {t : Table R} {r q : R} (h : t.find? (Keyed.key r) = some q) (hf : f r = f q) :
    Within f t (t.set r) := by
  intro p hp
  rcases mem_set.1 hp with ⟨rfl, _⟩ | ⟨hp, _⟩
  · exact ⟨q, find?_some_mem h, hf.symm⟩
  · exact ⟨p, hp, rfl⟩

end Views

section Sum

variable {M : Type} [AddCommGroup M]

theorem sum_insert {t u : Table R} {r : R} (h : t.insert? r = some u) (f : R → M) :
    u.sum f = t.sum f + f r := by
  unfold sum
  rw [(insert?_eq_some_iff.1 h).2]
  simp

theorem sum_replace (rows : List R) (hd : (rows.map (Keyed.key : R → K)).Nodup) (r q : R)
    (hq : q ∈ rows) (hk : Keyed.key q = Keyed.key r) (f : R → M) :
    ((rows.map (fun x => if Keyed.key x = Keyed.key r then r else x)).map f).sum =
      (rows.map f).sum - f q + f r := by
  induction rows with
  | nil => cases hq
  | cons x xs ih =>
    rw [List.map_cons, List.nodup_cons] at hd
    rw [List.map_cons, List.map_cons, List.map_cons, List.sum_cons, List.sum_cons]
    rcases List.mem_cons.1 hq with rfl | hq
    · have hxs : ∀ y ∈ xs, Keyed.key y ≠ Keyed.key r := by
        intro y hy he
        exact hd.1 (List.mem_map.2 ⟨y, hy, he.trans hk.symm⟩)
      rw [set_of_not_mem hxs, if_pos hk]
      abel
    · have hx : Keyed.key x ≠ Keyed.key r := by
        intro he
        exact hd.1 (List.mem_map.2 ⟨q, hq, hk.trans he.symm⟩)
      rw [ih hd.2 hq, if_neg hx]
      abel

theorem sum_set {t : Table R} {r q : R} (h : t.find? (Keyed.key r) = some q) (f : R → M) :
    (t.set r).sum f = t.sum f - f q + f r :=
  sum_replace t.rows t.nodup r q (find?_some_mem h) (find?_some_key h) f

end Sum

end Table

end EveTrade.KeyedTable
