import Mathlib.Tactic

set_option autoImplicit false

/-!
# Chains of numbered rows

Rows numbered from one, kept in any order, each of which takes over what the row before it in
number hands on.
-/
namespace EveTrade.LedgerChain

variable {R V : Type}

/-- The numbers of the rows are exactly `1, …, n`; the first row takes over `start`, and the last
hands on `current`. -/
structure Chain (number : R → Int) (before after : R → V) (start : V) (rows : List R) (n : Int)
    (current : V) : Prop where
  nonneg : 0 ≤ n
  range : ∀ r ∈ rows, 1 ≤ number r ∧ number r ≤ n
  complete : ∀ k, 1 ≤ k → k ≤ n → ∃ r ∈ rows, number r = k
  distinct : (rows.map number).Nodup
  first : ∀ r ∈ rows, number r = 1 → before r = start
  linked : ∀ r ∈ rows, ∀ m ∈ rows, number m = number r + 1 → before m = after r
  last : ∀ r ∈ rows, number r = n → after r = current
  unused : n = 0 → current = start

namespace Chain

variable {number : R → Int} {before after : R → V} {start : V} {rows : List R} {n : Int}
  {current : V}

theorem nil : Chain number before after start [] 0 start where
  nonneg := le_refl 0
  range := by simp
  complete := fun k hk hk' => by omega
  distinct := List.nodup_nil
  first := by simp
  linked := by simp
  last := by simp
  unused := fun _ => rfl

theorem append (h : Chain number before after start rows n current) {r : R}
    (hnumber : number r = n + 1) (hbefore : before r = current) :
    Chain number before after start (rows ++ [r]) (n + 1) (after r) where
  nonneg := by linarith [h.nonneg]
  range := by
    intro m hm
    rcases List.mem_append.1 hm with hm | hm
    · have := h.range m hm
      omega
    · obtain rfl := List.mem_singleton.1 hm
      have := h.nonneg
      omega
  complete := by
    intro k hk hk'
    by_cases hlast : k = n + 1
    · exact ⟨r, by simp, hnumber.trans hlast.symm⟩
    · obtain ⟨m, hm, hmk⟩ := h.complete k hk (by omega)
      exact ⟨m, by simp [hm], hmk⟩
  distinct := by
    rw [List.map_append, List.nodup_append]
    refine ⟨h.distinct, by simp, ?_⟩
    intro k hk j hj
    obtain ⟨m, hm, rfl⟩ := List.mem_map.1 hk
    obtain rfl := List.mem_singleton.1 hj
    have := h.range m hm
    omega
  first := by
    intro m hm hone
    rcases List.mem_append.1 hm with hm | hm
    · exact h.first m hm hone
    · obtain rfl := List.mem_singleton.1 hm
      exact hbefore.trans (h.unused (by omega))
  linked := by
    intro m hm q hq hnext
    rcases List.mem_append.1 hm with hold | hnew
    · rcases List.mem_append.1 hq with hq | hq
      · exact h.linked m hold q hq hnext
      · obtain rfl := List.mem_singleton.1 hq
        exact hbefore.trans (h.last m hold (by omega)).symm
    · -- no row is numbered after the new one
      obtain rfl := List.mem_singleton.1 hnew
      rcases List.mem_append.1 hq with hq | hq
      · have := h.range q hq
        omega
      · obtain rfl := List.mem_singleton.1 hq
        omega
  last := by
    intro m hm hn
    rcases List.mem_append.1 hm with hm | hm
    · have := h.range m hm
      omega
    · obtain rfl := List.mem_singleton.1 hm
      rfl
  unused := fun hz => by linarith [h.nonneg]

end Chain

section Highest

/-- The row with the highest number, the first of them in case of a tie. -/
def highest (number : R → Int) (rows : List R) : Option R :=
  rows.foldl
    (fun best r =>
      match best with
      | none => some r
      | some m => if number m < number r then some r else some m)
    none

variable {number : R → Int}

theorem foldl_highest (rows : List R) (m : R) :
    ∃ q, rows.foldl
        (fun best r =>
          match best with
          | none => some r
          | some m => if number m < number r then some r else some m) (some m) = some q ∧
      (q = m ∨ q ∈ rows) ∧ number m ≤ number q ∧ ∀ r ∈ rows, number r ≤ number q := by
  induction rows generalizing m with
  | nil => exact ⟨m, rfl, .inl rfl, le_refl _, by simp⟩
  | cons r rows ih =>
    rw [List.foldl_cons]
    by_cases hlt : number m < number r
    · obtain ⟨q, hq, hmem, hr, hrows⟩ := ih r
      refine ⟨q, by simpa only [if_pos hlt] using hq, .inr ?_, by omega, ?_⟩
      · rcases hmem with rfl | hmem
        · exact List.mem_cons_self
        · exact List.mem_cons_of_mem _ hmem
      · exact List.forall_mem_cons.2 ⟨hr, hrows⟩
    · obtain ⟨q, hq, hmem, hm, hrows⟩ := ih m
      refine ⟨q, by simpa only [if_neg hlt] using hq, ?_, hm, ?_⟩
      · exact hmem.imp id (List.mem_cons_of_mem _)
      · exact List.forall_mem_cons.2 ⟨by omega, hrows⟩

theorem highest_of_mem (number : R → Int) {rows : List R} {r : R} (h : r ∈ rows) :
    ∃ q, highest number rows = some q ∧ q ∈ rows ∧ ∀ m ∈ rows, number m ≤ number q := by
  cases rows with
  | nil => cases h
  | cons m rows =>
    obtain ⟨q, hq, hmem, hm, hrows⟩ := foldl_highest rows m
    refine ⟨q, hq, ?_, List.forall_mem_cons.2 ⟨hm, hrows⟩⟩
    rcases hmem with rfl | hmem
    · exact List.mem_cons_self
    · exact List.mem_cons_of_mem _ hmem

theorem Chain.highest {before after : R → V} {start : V} {rows : List R} {n : Int} {current : V}
    (h : Chain number before after start rows n current) (hn : 1 ≤ n) :
    ∃ q ∈ rows, LedgerChain.highest number rows = some q ∧ number q = n ∧ after q = current := by
  obtain ⟨r, hr, hrn⟩ := h.complete n hn (le_refl n)
  obtain ⟨q, hq, hmem, hmax⟩ := highest_of_mem number hr
  have hqn : number q = n := le_antisymm (h.range q hmem).2 (hrn ▸ hmax r hr)
  exact ⟨q, hmem, hq, hqn, h.last q hmem hqn⟩

end Highest

end EveTrade.LedgerChain
