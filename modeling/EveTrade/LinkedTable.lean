import EveTrade.RecencyList
import Mathlib.Data.Finmap

set_option autoImplicit false

/-!
# A map beside a linked list

Entries are found through a map and stand in the order of a linked list. An entry points at its own
element of the list, and the element holds the key of the entry. Nothing but the operations keeps the
two in step. As long as they are, the pair represents a list in order of use.
-/
namespace EveTrade.LinkedTable

open RecencyList

/-- An element of a linked list: where it is, and the key that it holds. -/
structure Element (K : Type) where
  address : ℕ
  value : K
deriving DecidableEq

/-- An entry of the map: the element it points at, and its contents. -/
structure Entry (V : Type) where
  element : ℕ
  contents : V
deriving DecidableEq

structure Linked (K V : Type) [DecidableEq K] where
  entries : Finmap fun _ : K => Entry V
  order : List (Element K)
  next : ℕ

namespace Linked

variable {K V : Type} [DecidableEq K]

def empty : Linked K V := ⟨∅, [], 0⟩

def len (t : Linked K V) : ℕ := t.entries.keys.card

def find? (t : Linked K V) (k : K) : Option (Entry V) := t.entries.lookup k

def front (t : Linked K V) : Option (Element K) := t.order.head?

def pushBack (t : Linked K V) (k : K) (v : V) : Linked K V where
  entries := t.entries.insert k ⟨t.next, v⟩
  order := t.order ++ [⟨t.next, k⟩]
  next := t.next + 1

def write (t : Linked K V) (k : K) (entry : Entry V) (v : V) : Linked K V :=
  { t with entries := t.entries.insert k { entry with contents := v } }

/-- An element that is not in the list is not moved. -/
def moveToBack (t : Linked K V) (element : ℕ) : Linked K V :=
  { t with
    order := t.order.filter (fun x => x.address ≠ element) ++
      t.order.filter (fun x => x.address = element) }

def remove (t : Linked K V) (k : K) (element : ℕ) : Linked K V :=
  { t with
    entries := t.entries.erase k
    order := t.order.filter fun x => x.address ≠ element }

/-- The keys of the map and the values of the list are the same, each once, and each entry points at
the element that holds its key. -/
structure InStep (t : Linked K V) : Prop where
  values : (t.order.map Element.value).Nodup
  addresses : (t.order.map Element.address).Nodup
  keys : t.entries.keys = (t.order.map Element.value).toFinset
  points : ∀ k entry, t.find? k = some entry → ⟨entry.element, k⟩ ∈ t.order

/-- The rows of `r` are the entries, in the order of the list. -/
structure Represents (t : Linked K V) (r : Recency K V) : Prop where
  order : t.order.map Element.value = r.rows.map Prod.fst
  addresses : (t.order.map Element.address).Nodup
  fresh : ∀ x ∈ t.order, x.address < t.next
  entries : ∀ k entry, t.find? k = some entry ↔
    ⟨entry.element, k⟩ ∈ t.order ∧ (k, entry.contents) ∈ r.rows

section Represents

variable {t : Linked K V} {r : Recency K V} {k : K} {entry : Entry V}

theorem represents_empty : Represents (empty : Linked K V) .empty where
  order := rfl
  addresses := List.nodup_nil
  fresh := by simp [empty]
  entries := by simp [empty, find?]

theorem Represents.find? (h : Represents t r) (k : K) :
    (t.find? k).map Entry.contents = r.find? k := by
  apply Option.ext
  intro v
  rw [Recency.find?_eq_some_iff, Option.map_eq_some_iff]
  constructor
  · rintro ⟨entry, hentry, rfl⟩
    exact ((h.entries k entry).mp hentry).2
  · intro hrow
    have hkey : k ∈ t.order.map Element.value := by
      rw [h.order]
      exact List.mem_map.mpr ⟨(k, v), hrow, rfl⟩
    obtain ⟨x, hx, rfl⟩ := List.mem_map.mp hkey
    exact ⟨⟨x.address, v⟩, (h.entries x.value ⟨x.address, v⟩).mpr ⟨hx, hrow⟩, rfl⟩

theorem Represents.row (h : Represents t r) (hentry : t.find? k = some entry) :
    r.find? k = some entry.contents := by
  rw [← h.find? k, hentry]
  rfl

theorem Represents.values (h : Represents t r) : (t.order.map Element.value).Nodup := by
  rw [h.order]
  exact r.nodup

theorem Represents.found (h : Represents t r) {x : Element K} (hx : x ∈ t.order) :
    ∃ entry, t.find? x.value = some entry ∧ entry.element = x.address := by
  have hkey : x.value ∈ r.rows.map Prod.fst := by
    rw [← h.order]
    exact List.mem_map.mpr ⟨x, hx, rfl⟩
  obtain ⟨row, hrow, hvalue⟩ := List.mem_map.mp hkey
  refine ⟨⟨x.address, row.2⟩, (h.entries _ _).mpr ⟨hx, ?_⟩, rfl⟩
  rw [← hvalue]
  exact hrow

theorem Represents.keys (h : Represents t r) :
    t.entries.keys = (t.order.map Element.value).toFinset := by
  ext k
  rw [Finmap.mem_keys, ← Finmap.lookup_isSome, List.mem_toFinset]
  constructor
  · intro hsome
    obtain ⟨entry, hentry⟩ := Option.isSome_iff_exists.mp hsome
    exact List.mem_map.mpr ⟨_, ((h.entries k entry).mp hentry).1, rfl⟩
  · intro hk
    obtain ⟨x, hx, rfl⟩ := List.mem_map.mp hk
    obtain ⟨entry, hentry, -⟩ := h.found hx
    exact Option.isSome_iff_exists.mpr ⟨entry, hentry⟩

theorem Represents.inStep (h : Represents t r) : InStep t where
  values := h.values
  addresses := h.addresses
  keys := h.keys
  points := fun k entry hentry => ((h.entries k entry).mp hentry).1

theorem Represents.len (h : Represents t r) : t.len = r.size := by
  rw [Linked.len, h.keys, List.toFinset_card_of_nodup h.values, h.order, List.length_map]
  rfl

theorem Represents.element_eq (h : Represents t r) {x y : Element K} (hx : x ∈ t.order)
    (hy : y ∈ t.order) : x.address = y.address ↔ x.value = y.value := by
  constructor
  · intro heq
    rw [List.inj_on_of_nodup_map h.addresses hx hy heq]
  · intro heq
    rw [List.inj_on_of_nodup_map h.values hx hy heq]

theorem Represents.others (h : Represents t r) (hentry : t.find? k = some entry) :
    t.order.filter (fun x => x.address ≠ entry.element) =
      t.order.filter fun x => x.value ≠ k := by
  have hmine := ((h.entries k entry).mp hentry).1
  apply List.filter_congr
  intro x hx
  have := h.element_eq hx hmine
  simp only [ne_eq, decide_eq_decide]
  exact not_congr this

theorem Represents.append {u : Linked K V} {a : ℕ} {v : V} (h : Represents t r)
    (hnew : r.find? k = none) (hfresh : ∀ x ∈ t.order, x.address ≠ a) (hnext : t.next ≤ u.next)
    (ha : a < u.next) (horder : u.order = t.order ++ [⟨a, k⟩])
    (hfind : ∀ l, u.find? l = if l = k then some ⟨a, v⟩ else t.find? l) :
    Represents u (r.use k v) := by
  have hkey : ∀ x ∈ t.order, x.value ≠ k := by
    intro x hx heq
    obtain ⟨entry, hentry, -⟩ := h.found hx
    have := h.row hentry
    rw [heq, hnew] at this
    cases this
  refine ⟨?_, ?_, ?_, ?_⟩
  · simp [horder, Recency.use, Recency.remove_eq_self hnew, h.order]
  · rw [horder, List.map_append]
    refine h.addresses.append (List.nodup_singleton _) ?_
    intro b hb hlast
    obtain ⟨x, hx, rfl⟩ := List.mem_map.mp hb
    exact hfresh x hx (List.mem_singleton.mp hlast)
  · intro x hx
    rw [horder, List.mem_append, List.mem_singleton] at hx
    rcases hx with hx | rfl
    · exact Nat.lt_of_lt_of_le (h.fresh x hx) hnext
    · exact ha
  · intro l entry
    rw [hfind, horder, Recency.mem_use, List.mem_append, List.mem_singleton]
    by_cases hl : l = k
    · rw [if_pos hl, hl]
      constructor
      · intro heq
        cases heq
        exact ⟨.inr rfl, .inr rfl⟩
      · rintro ⟨hx | hx, ⟨-, hne⟩ | hv⟩
        · exact absurd rfl hne
        · exact absurd rfl (hkey _ hx)
        · exact absurd rfl hne
        · cases entry
          cases hx
          cases hv
          rfl
    · rw [if_neg hl, h.entries]
      simp [hl]

theorem Represents.pushBack (h : Represents t r) (hnew : r.find? k = none) (v : V) :
    Represents (t.pushBack k v) (r.use k v) := by
  refine h.append hnew (fun x hx => Nat.ne_of_lt (h.fresh x hx)) (Nat.le_succ _)
    (Nat.lt_succ_self _) rfl ?_
  intro l
  split_ifs with hl
  · rw [hl]
    exact Finmap.lookup_insert _
  · exact Finmap.lookup_insert_of_ne _ hl

theorem Represents.remove (h : Represents t r) (hentry : t.find? k = some entry) :
    Represents (t.remove k entry.element) (r.remove k) where
  order := by
    have hvalues : (t.order.filter fun x => x.value ≠ k).map Element.value =
        (t.order.map Element.value).filter fun l => l ≠ k := by
      rw [List.filter_map]
      rfl
    have hrows : (r.rows.filter fun row => row.1 ≠ k).map Prod.fst =
        (r.rows.map Prod.fst).filter fun l => l ≠ k := by
      rw [List.filter_map]
      rfl
    simp only [Linked.remove, Recency.remove]
    rw [h.others hentry, hvalues, h.order, hrows]
  addresses := h.addresses.sublist (List.filter_sublist.map _)
  fresh := fun x hx => h.fresh x (List.mem_of_mem_filter hx)
  entries := by
    intro l other
    have hothers := h.others hentry
    simp only [Linked.remove, Linked.find?] at hothers ⊢
    rw [hothers, Recency.mem_remove]
    by_cases hl : l = k
    · rw [hl, Finmap.lookup_erase]
      simp
    · rw [Finmap.lookup_erase_ne hl]
      have := h.entries l other
      simp only [Linked.find?] at this
      simp [this, hl]

theorem Represents.use (h : Represents t r) (hentry : t.find? k = some entry) (v : V) :
    Represents ((t.write k entry v).moveToBack entry.element) (r.use k v) := by
  have hmine := ((h.entries k entry).mp hentry).1
  have hself : t.order.filter (fun x => x.address = entry.element) = [⟨entry.element, k⟩] := by
    have hcongr : t.order.filter (fun x => x.address = entry.element) =
        t.order.filter fun x => x = ⟨entry.element, k⟩ := by
      apply List.filter_congr
      intro x hx
      simp only [decide_eq_decide]
      constructor
      · intro heq
        exact List.inj_on_of_nodup_map h.addresses hx hmine heq
      · rintro rfl
        rfl
    rw [hcongr, List.filter_eq, List.count_eq_one_of_mem (.of_map _ h.addresses) hmine]
    rfl
  -- the row is taken out, and comes back at the end with the address that it had
  have hback := (h.remove hentry).append (u := (t.write k entry v).moveToBack entry.element)
    (v := v) (r.find?_remove_self k) (fun x hx => by simpa using (List.mem_filter.mp hx).2)
    (le_refl _) (h.fresh _ hmine) (congrArg _ hself) ?_
  · rwa [Recency.use_remove] at hback
  · intro l
    split_ifs with hl
    · rw [hl]
      exact Finmap.lookup_insert _
    · simp only [Linked.moveToBack, Linked.write, Linked.remove, Linked.find?]
      rw [Finmap.lookup_insert_of_ne _ hl, Finmap.lookup_erase_ne hl]

theorem write_self (hentry : t.find? k = some entry) : t.write k entry entry.contents = t := by
  have hsame : t.entries.insert k entry = t.entries := by
    apply Finmap.ext_lookup
    intro l
    by_cases hl : l = k
    · rw [hl, Finmap.lookup_insert]
      exact hentry.symm
    · rw [Finmap.lookup_insert_of_ne _ hl]
  simp only [Linked.write, hsame]

theorem Represents.touch (h : Represents t r) (hentry : t.find? k = some entry) :
    Represents (t.moveToBack entry.element) (r.use k entry.contents) := by
  have hused := h.use hentry entry.contents
  rwa [write_self hentry] at hused

theorem Represents.front (h : Represents t r) :
    t.front.map Element.value = r.front?.map Prod.fst := by
  rw [Linked.front, Recency.front?, ← List.head?_map, ← List.head?_map, h.order]

theorem Represents.found_front (h : Represents t r) {x : Element K} (hx : x ∈ t.front) :
    (t.find? x.value).isSome := by
  obtain ⟨entry, hentry, -⟩ := h.found (List.mem_of_head? hx)
  rw [hentry]
  rfl

theorem Represents.front_none (h : Represents t r) (hnone : t.front = none) : r.rows = [] := by
  have hfront := h.front
  rw [hnone] at hfront
  cases hrows : r.rows with
  | nil => rfl
  | cons row rest => simp [Recency.front?, hrows] at hfront

theorem Represents.dropFront (h : Represents t r) {x : Element K} (hx : t.front = some x) :
    ∃ entry, t.find? x.value = some entry ∧ entry.element = x.address ∧
      r.front? = some (x.value, entry.contents) ∧
      Represents (t.remove x.value x.address) r.dropFront := by
  have hmem : x ∈ t.order := List.mem_of_head? hx
  obtain ⟨entry, hentry, haddress⟩ := h.found hmem
  have hremoved := h.remove hentry
  rw [haddress] at hremoved
  have hrow := Recency.find?_eq_some_iff.mp (h.row hentry)
  have hfront := h.front
  rw [hx] at hfront
  cases hrows : r.rows with
  | nil => simp [Recency.front?, hrows] at hfront
  | cons row rest =>
    have hkey : x.value = row.1 := by simpa [Recency.front?, hrows] using hfront
    have hnodup := r.nodup
    rw [hrows, List.map_cons, List.nodup_cons] at hnodup
    have hcontents : row.2 = entry.contents := by
      apply Recency.mem_unique (t := r) (k := x.value) _ hrow
      rw [hrows, hkey]
      exact List.mem_cons_self
    have hdrop : r.remove x.value = r.dropFront := by
      apply Recency.ext
      simp only [Recency.remove, Recency.dropFront, hrows, List.tail_cons]
      rw [List.filter_cons_of_neg (by simp [hkey]), List.filter_eq_self]
      intro other hother
      simp only [ne_eq, decide_eq_true_eq, hkey]
      intro heq
      exact hnodup.1 (List.mem_map.mpr ⟨other, hother, heq⟩)
    refine ⟨entry, hentry, haddress, ?_, by rwa [hdrop] at hremoved⟩
    rw [Recency.front?, hrows, hkey, ← hcontents]
    rfl

end Represents

end Linked

end EveTrade.LinkedTable
