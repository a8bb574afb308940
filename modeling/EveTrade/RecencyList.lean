import Mathlib.Data.List.Nodup
import Mathlib.Tactic

set_option autoImplicit false

/-!
# Lists in order of use

A keyed table whose rows stand in the order of their last use, the least recently used one first. It
is what a map and a linked list hold together when every operation changes both: a row is found by
its key, a use moves it to the back, and cleaning up takes rows from the front.
-/
namespace EveTrade.RecencyList

@[ext] structure Recency (K V : Type) where
  rows : List (K × V)
  nodup : (rows.map Prod.fst).Nodup

section Rows

variable {K V : Type}

/-- Takes rows from the front as long as they are stale, at most `limit` of them. -/
def dropStale (stale : V → Bool) : (limit : ℕ) → List (K × V) → List (K × V)
  | 0, rows => rows
  | _ + 1, [] => []
  | limit + 1, r :: rows => if stale r.2 then dropStale stale limit rows else r :: rows

/-- What is taken is a front part of stale rows, and it ends at the limit or before a row that is
not stale. -/
theorem dropStale_split (stale : V → Bool) (limit : ℕ) (rows : List (K × V)) :
    ∃ taken, rows = taken ++ dropStale stale limit rows ∧ (∀ r ∈ taken, stale r.2) ∧
      (taken.length = limit ∨ ∀ r ∈ (dropStale stale limit rows).head?, stale r.2 = false) := by
  induction limit generalizing rows with
  | zero => exact ⟨[], rfl, by simp, .inl rfl⟩
  | succ limit ih =>
    cases rows with
    | nil => exact ⟨[], rfl, by simp, .inr (by simp [dropStale])⟩
    | cons r rows =>
      by_cases h : stale r.2 = true
      · obtain ⟨taken, heq, hstale, hend⟩ := ih rows
        have hdrop : dropStale stale (limit + 1) (r :: rows) = dropStale stale limit rows := by
          simp [dropStale, h]
        rw [hdrop]
        refine ⟨r :: taken, by rw [List.cons_append, ← heq], by simpa [h] using hstale, ?_⟩
        simpa using hend
      · have hdrop : dropStale stale (limit + 1) (r :: rows) = r :: rows := by
          simp [dropStale, h]
        rw [hdrop]
        exact ⟨[], rfl, by simp, .inr (by simpa using h)⟩

theorem dropStale_sublist (stale : V → Bool) (limit : ℕ) (rows : List (K × V)) :
    (dropStale stale limit rows).Sublist rows := by
  obtain ⟨taken, heq, -⟩ := dropStale_split stale limit rows
  conv_rhs => rw [heq]
  exact List.sublist_append_right _ _

theorem dropStale_append_fresh (stale : V → Bool) {r : K × V} (hfresh : stale r.2 = false)
    (limit : ℕ) (front rest : List (K × V)) :
    ∃ front', dropStale stale limit (front ++ r :: rest) = front' ++ r :: rest := by
  induction limit generalizing front with
  | zero => exact ⟨front, rfl⟩
  | succ limit ih =>
    cases front with
    | nil => exact ⟨[], by simp [dropStale, hfresh]⟩
    | cons first front =>
      by_cases h : stale first.2 = true
      · obtain ⟨front', heq⟩ := ih front
        exact ⟨front', by simpa [dropStale, h] using heq⟩
      · exact ⟨first :: front, by simp [dropStale, h]⟩

theorem mem_dropStale {stale : V → Bool} {limit : ℕ} {rows : List (K × V)} {r : K × V}
    (hr : r ∈ rows) (hfresh : stale r.2 = false) : r ∈ dropStale stale limit rows := by
  obtain ⟨taken, heq, hstale, -⟩ := dropStale_split stale limit rows
  rw [heq, List.mem_append] at hr
  rcases hr with hr | hr
  · simp [hstale r hr] at hfresh
  · exact hr

end Rows

namespace Recency

variable {K V : Type}
variable {t : Recency K V} {stale : V → Bool} {limit : ℕ} {r : K × V}

def empty : Recency K V := ⟨[], List.nodup_nil⟩

def size (t : Recency K V) : ℕ := t.rows.length

def front? (t : Recency K V) : Option (K × V) := t.rows.head?

def dropFront (t : Recency K V) : Recency K V :=
  ⟨t.rows.tail, t.nodup.sublist ((List.tail_sublist _).map _)⟩

def clean (t : Recency K V) (stale : V → Bool) (limit : ℕ) : Recency K V :=
  ⟨dropStale stale limit t.rows, t.nodup.sublist ((dropStale_sublist stale limit _).map _)⟩

@[simp] theorem rows_empty : (empty : Recency K V).rows = [] := rfl

theorem mem_unique {k : K} {v w : V} (hv : (k, v) ∈ t.rows) (hw : (k, w) ∈ t.rows) : v = w :=
  congrArg Prod.snd (List.inj_on_of_nodup_map t.nodup hv hw rfl)

theorem mem_of_mem_clean (h : r ∈ (t.clean stale limit).rows) : r ∈ t.rows :=
  (dropStale_sublist stale limit t.rows).subset h

theorem mem_clean
    (h : r ∈ t.rows) (hfresh : stale r.2 = false) : r ∈ (t.clean stale limit).rows :=
  mem_dropStale h hfresh

theorem size_clean_le (t : Recency K V) (stale : V → Bool) (limit : ℕ) :
    (t.clean stale limit).size ≤ t.size :=
  (dropStale_sublist stale limit t.rows).length_le

theorem clean_stale (h : t.front? = some r) (hstale : stale r.2 = true) (limit : ℕ) :
    t.clean stale (limit + 1) = t.dropFront.clean stale limit := by
  apply Recency.ext
  obtain ⟨rest, hrows⟩ := List.head?_eq_some_iff.mp h
  simp [clean, dropFront, hrows, dropStale, hstale]

theorem clean_fresh (limit : ℕ)
    (h : ∀ r ∈ t.front?, stale r.2 = false) : t.clean stale limit = t := by
  apply Recency.ext
  cases limit with
  | zero => rfl
  | succ limit =>
    cases hrows : t.rows with
    | nil => simp [clean, hrows, dropStale]
    | cons r rest =>
      have hfresh := h r (by simp [front?, hrows])
      simp [clean, hrows, dropStale, hfresh]

theorem clean_front (h : t.size < (t.clean stale limit).size + limit) :
    ∀ r ∈ (t.clean stale limit).front?, stale r.2 = false := by
  obtain ⟨taken, heq, -, hend⟩ := dropStale_split stale limit t.rows
  rcases hend with hlimit | hfresh
  · have hlen := congrArg List.length heq
    rw [List.length_append, hlimit] at hlen
    simp only [size, clean] at h
    omega
  · exact hfresh

section Order

variable {T : Type} [Preorder T]

/-- Rows further back are not earlier by `f`. -/
def Ordered (f : V → T) (t : Recency K V) : Prop :=
  t.rows.Pairwise fun a b => f a.2 ≤ f b.2

theorem ordered_empty (f : V → T) : (empty : Recency K V).Ordered f := List.Pairwise.nil

theorem Ordered.clean {f : V → T} {t : Recency K V} (h : t.Ordered f) (stale : V → Bool)
    (limit : ℕ) : (t.clean stale limit).Ordered f :=
  h.sublist (dropStale_sublist stale limit t.rows)

theorem Ordered.front_le {f : V → T} {t : Recency K V} (h : t.Ordered f) {r : K × V}
    (hr : r ∈ t.rows) : ∃ first ∈ t.front?, f first.2 ≤ f r.2 := by
  unfold Ordered at h
  unfold front?
  cases hrows : t.rows with
  | nil => simp [hrows] at hr
  | cons first rest =>
    rw [hrows] at h hr
    refine ⟨first, rfl, ?_⟩
    rcases List.mem_cons.mp hr with rfl | hrest
    · exact le_refl _
    · exact (List.pairwise_cons.mp h).1 r hrest

end Order

section Keys

variable [DecidableEq K]
variable {t : Recency K V} {k : K}

def find? (t : Recency K V) (k : K) : Option V :=
  (t.rows.find? fun r => decide (r.1 = k)).map Prod.snd

def remove (t : Recency K V) (k : K) : Recency K V :=
  ⟨t.rows.filter fun r => decide (r.1 ≠ k), t.nodup.sublist (List.filter_sublist.map _)⟩

/-- The row of `k` goes to the back with the value `v`, or is added there. -/
def use (t : Recency K V) (k : K) (v : V) : Recency K V :=
  ⟨(t.remove k).rows ++ [(k, v)], by
    rw [List.map_append, List.map_singleton]
    refine (t.remove k).nodup.append (List.nodup_singleton k) ?_
    simp [remove]⟩

theorem find?_eq_some_iff {v : V} :
    t.find? k = some v ↔ (k, v) ∈ t.rows := by
  constructor
  · intro h
    obtain ⟨r, hr, rfl⟩ := Option.map_eq_some_iff.mp h
    have hkey : r.1 = k := by simpa using List.find?_some hr
    have hmem := List.mem_of_find?_eq_some hr
    rwa [← hkey]
  · intro h
    cases hfind : t.find? k with
    | none =>
      have hnone := List.find?_eq_none.mp (Option.map_eq_none_iff.mp hfind) (k, v) h
      simp at hnone
    | some w =>
      obtain ⟨r, hr, rfl⟩ := Option.map_eq_some_iff.mp hfind
      have hkey : r.1 = k := by simpa using List.find?_some hr
      have hmem : (k, r.2) ∈ t.rows := by
        rw [← hkey]
        exact List.mem_of_find?_eq_some hr
      rw [mem_unique h hmem]

theorem find?_eq_none_iff :
    t.find? k = none ↔ ∀ v, (k, v) ∉ t.rows := by
  rw [Option.eq_none_iff_forall_ne_some]
  simp [find?_eq_some_iff]

theorem mem_remove {r : K × V} :
    r ∈ (t.remove k).rows ↔ r ∈ t.rows ∧ r.1 ≠ k := by
  simp [remove]

theorem mem_use {v : V} {r : K × V} :
    r ∈ (t.use k v).rows ↔ (r ∈ t.rows ∧ r.1 ≠ k) ∨ r = (k, v) := by
  simp [use, mem_remove]

theorem remove_eq_self (h : t.find? k = none) :
    t.remove k = t := by
  apply Recency.ext
  apply List.filter_eq_self.mpr
  intro r hr
  have hk := find?_eq_none_iff.mp h r.2
  simp only [decide_eq_true_eq]
  intro hkey
  exact hk (by rwa [← hkey])

theorem find?_remove_self (t : Recency K V) (k : K) : (t.remove k).find? k = none := by
  rw [find?_eq_none_iff]
  intro v hv
  exact (mem_remove.mp hv).2 rfl

theorem use_remove (t : Recency K V) (k : K) (v : V) : (t.remove k).use k v = t.use k v := by
  apply Recency.ext
  simp only [use]
  rw [remove_eq_self (find?_remove_self t k)]

theorem find?_remove_of_ne {k l : K} (h : l ≠ k) :
    (t.remove k).find? l = t.find? l := by
  apply Option.ext
  intro v
  rw [find?_eq_some_iff, find?_eq_some_iff, mem_remove]
  exact and_iff_left h

theorem find?_use_self (t : Recency K V) (k : K) (v : V) : (t.use k v).find? k = some v :=
  find?_eq_some_iff.mpr (mem_use.mpr (.inr rfl))

theorem find?_use_of_ne {k l : K} (h : l ≠ k) (v : V) :
    (t.use k v).find? l = t.find? l := by
  apply Option.ext
  intro w
  rw [find?_eq_some_iff, find?_eq_some_iff, mem_use]
  simp [h]

theorem size_remove_le (t : Recency K V) (k : K) : (t.remove k).size ≤ t.size :=
  List.filter_sublist.length_le

theorem size_use_new {v : V} (h : t.find? k = none) :
    (t.use k v).size = t.size + 1 := by
  simp [size, use, remove_eq_self h]

theorem size_remove {v : V} (h : t.find? k = some v) :
    (t.remove k).size + 1 = t.size := by
  have hkeys : ((t.remove k).rows.map Prod.fst) = (t.rows.map Prod.fst).erase k := by
    rw [t.nodup.erase_eq_filter, List.filter_map]
    congr 1
    apply List.filter_congr
    intro r _
    by_cases hkey : r.1 = k <;> simp [hkey]
  have hmem : k ∈ t.rows.map Prod.fst := List.mem_map.mpr ⟨_, find?_eq_some_iff.mp h, rfl⟩
  have hlen := congrArg List.length hkeys
  rw [List.length_map, List.length_erase_of_mem hmem, List.length_map] at hlen
  have hpos : 0 < t.rows.length := List.length_pos_of_mem (find?_eq_some_iff.mp h)
  unfold size
  omega

theorem size_use_old {v w : V} (h : t.find? k = some w) :
    (t.use k v).size = t.size := by
  rw [← size_remove h]
  simp [size, use]

section Order

variable {T : Type} [Preorder T]

theorem Ordered.remove {f : V → T} {t : Recency K V} (h : t.Ordered f) (k : K) :
    (t.remove k).Ordered f :=
  h.sublist List.filter_sublist

theorem Ordered.use {f : V → T} {t : Recency K V} (h : t.Ordered f) {k : K} {v : V}
    (hlast : ∀ r ∈ t.rows, r.1 ≠ k → f r.2 ≤ f v) : (t.use k v).Ordered f := by
  apply List.pairwise_append.mpr
  refine ⟨h.remove k, List.pairwise_singleton _ _, ?_⟩
  intro a ha b hb
  obtain ⟨hmem, hne⟩ := mem_remove.mp ha
  rw [List.mem_singleton.mp hb]
  exact hlast a hmem hne

end Order

end Keys

end Recency

end EveTrade.RecencyList
