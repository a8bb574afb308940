import Mathlib.Data.List.Basic
import Mathlib.Data.List.TakeDrop
import Mathlib.Logic.Relation
import Mathlib.Tactic

set_option autoImplicit false

/-!
# Parties that ask for locks

Each party asks for a fixed list of locks in order, waits for a lock that another one holds, and
keeps what it was granted until it finishes. It may finish at any time. A deadlock is a cycle of
parties that each wait for a lock held by the next. Which lists of requests can reach one is a
question about the lists alone, and lists that climb in one common rank never do.
-/
namespace EveTrade.LockSchedules

open Relation

variable {L : Type}

structure Party (L : Type) where
  requests : List L
  granted : ℕ
  live : Bool

namespace Party

def held (p : Party L) : List L := if p.live then p.requests.take p.granted else []

def wanted (p : Party L) : Option L := if p.live then p.requests[p.granted]? else none

def grant (p : Party L) : Party L := { p with granted := p.granted + 1 }

def finish (p : Party L) : Party L := { p with live := false }

end Party

inductive Event where
  | request (j : ℕ)
  | finish (j : ℕ)

section Runs

variable [DecidableEq L]

def heldByOther (w : List (Party L)) (j : ℕ) (l : L) : Bool :=
  w.zipIdx.any fun q => decide (q.2 ≠ j ∧ l ∈ q.1.held)

def serve (w : List (Party L)) : Event → List (Party L)
  | .request j =>
    match w[j]? with
    | none => w
    | some p =>
      match p.wanted with
      | none => w
      | some l => if heldByOther w j l then w else w.set j p.grant
  | .finish j =>
    match w[j]? with
    | none => w
    | some p => w.set j p.finish

def run : List Event → List (Party L) → List (Party L)
  | [], w => w
  | e :: es, w => run es (serve w e)

theorem run_append (es fs : List Event) (w : List (Party L)) :
    run (es ++ fs) w = run fs (run es w) := by
  induction es generalizing w with
  | nil => rfl
  | cons e es ih => exact ih _

end Runs

def start (requests : List (List L)) : List (Party L) := requests.map fun r => ⟨r, 0, true⟩

/-- The first party waits for a lock that the second one holds. -/
def Waits (w : List (Party L)) (i j : ℕ) : Prop :=
  i ≠ j ∧ ∃ p q l, w[i]? = some p ∧ w[j]? = some q ∧ p.wanted = some l ∧ l ∈ q.held

instance [DecidableEq L] (w : List (Party L)) (i j : ℕ) : Decidable (Waits w i j) :=
  decidable_of_iff (i ≠ j ∧ ∃ p ∈ w[i]?, ∃ q ∈ w[j]?, ∃ l ∈ p.wanted, l ∈ q.held)
    ⟨fun ⟨hij, p, hp, q, hq, l, hl, hheld⟩ => ⟨hij, p, q, l, hp, hq, hl, hheld⟩,
      fun ⟨hij, p, q, l, hp, hq, hl, hheld⟩ => ⟨hij, p, hp, q, hq, l, hl, hheld⟩⟩

def Deadlocked (w : List (Party L)) : Prop := ∃ i, TransGen (Waits w) i i

section Positions

def asked (requests : List (List L)) (i n : ℕ) : List L := (requests[i]?.getD []).take n

/-- Where each party stands at its position, the first one's next request is among what the second
one has asked for before. -/
def Blocks (requests : List (List L)) (pos : ℕ → ℕ) (i j : ℕ) : Prop :=
  i ≠ j ∧ ∃ l, (requests[i]?.getD [])[pos i]? = some l ∧ l ∈ asked requests j (pos j)

/-- There are positions at which nobody has asked for what another one has, and some parties block
each other in a cycle. -/
def Crossing (requests : List (List L)) : Prop :=
  ∃ pos : ℕ → ℕ,
    (∀ i j, i ≠ j → (asked requests i (pos i)).Disjoint (asked requests j (pos j))) ∧
      ∃ i, TransGen (Blocks requests pos) i i

end Positions

section Exclusion

variable {requests : List (List L)} {w : List (Party L)}

/-- The parties ask for the given locks, and no lock is held twice. -/
structure Fits (requests : List (List L)) (w : List (Party L)) : Prop where
  requests : w.map Party.requests = requests
  exclusive : ∀ (i j : ℕ) (p q : Party L), i ≠ j → w[i]? = some p → w[j]? = some q →
    p.held.Disjoint q.held

theorem Fits.start (requests : List (List L)) : Fits requests (start requests) where
  requests := by
    simp [LockSchedules.start, Function.comp_def]
  exclusive := by
    intro i j p q _ hp _ l hl
    simp only [LockSchedules.start, List.getElem?_map, Option.map_eq_some_iff] at hp
    obtain ⟨r, _, rfl⟩ := hp
    simp [Party.held] at hl

theorem Fits.set (h : Fits requests w) {j : ℕ} {p p' : Party L} (hp : w[j]? = some p)
    (same : p'.requests = p.requests)
    (free : ∀ i q, w[i]? = some q → i ≠ j → p'.held.Disjoint q.held) :
    Fits requests (w.set j p') where
  requests := by
    have hmap : (w.map Party.requests)[j]? = some p'.requests := by
      rw [List.getElem?_map, hp, same]
      rfl
    obtain ⟨hlt, hget⟩ := List.getElem?_eq_some_iff.1 hmap
    rw [List.map_set, ← h.requests, ← hget]
    exact List.set_getElem_self hlt
  exclusive := by
    obtain ⟨hlt, _⟩ := List.getElem?_eq_some_iff.1 hp
    intro i k q q' hik hq hq'
    rw [List.getElem?_set] at hq hq'
    by_cases hi : j = i
    · subst hi
      rw [if_pos rfl, if_pos hlt] at hq
      rw [if_neg hik] at hq'
      obtain rfl := Option.some.inj hq
      exact free k q' hq' hik.symm
    · rw [if_neg hi] at hq
      by_cases hk : j = k
      · subst hk
        rw [if_pos rfl, if_pos hlt] at hq'
        obtain rfl := Option.some.inj hq'
        exact (free i q hq hik).symm
      · rw [if_neg hk] at hq'
        exact h.exclusive i k q q' hik hq hq'

theorem held_grant {p : Party L} {l : L} (h : p.wanted = some l) : p.grant.held = p.held ++ [l] := by
  unfold Party.wanted at h
  split_ifs at h with hlive
  simp only [Party.held, Party.grant, hlive, if_true, List.take_add_one, h, Option.toList_some]

def standing (w : List (Party L)) (i : ℕ) : ℕ :=
  match w[i]? with
  | none => 0
  | some p => if p.live then p.granted else 0

theorem Fits.requests_getElem (h : Fits requests w) (i : ℕ) :
    requests[i]? = w[i]?.map Party.requests := by
  rw [← h.requests, List.getElem?_map]

theorem Fits.held_eq (h : Fits requests w) {i : ℕ} {p : Party L} (hp : w[i]? = some p) :
    asked requests i (standing w i) = p.held := by
  simp only [asked, standing, h.requests_getElem, hp, Option.map_some, Option.getD_some, Party.held]
  split_ifs <;> simp

theorem Fits.asked_absent (h : Fits requests w) {i : ℕ} (hp : w[i]? = none) :
    asked requests i (standing w i) = [] := by
  simp [asked, h.requests_getElem, hp]

theorem crossing_of_deadlocked (h : Fits requests w) (hdead : Deadlocked w) :
    Crossing requests := by
  obtain ⟨i, hcycle⟩ := hdead
  refine ⟨standing w, fun j k hjk => ?_, i, TransGen.mono (fun j k hwaits => ?_) i i hcycle⟩
  · cases hj : w[j]? with
    | none =>
      rw [h.asked_absent hj]
      exact List.disjoint_nil_left _
    | some p =>
      cases hk : w[k]? with
      | none =>
        rw [h.asked_absent hk]
        exact List.disjoint_nil_right _
      | some q =>
        rw [h.held_eq hj, h.held_eq hk]
        exact h.exclusive j k p q hjk hj hk
  · obtain ⟨hjk, p, q, l, hp, hq, hwanted, hheld⟩ := hwaits
    refine ⟨hjk, l, ?_, h.held_eq hq ▸ hheld⟩
    unfold Party.wanted at hwanted
    split_ifs at hwanted with hlive
    simp only [standing, h.requests_getElem, hp, hlive, Option.map_some, Option.getD_some, if_true]
    exact hwanted

def placed (requests : List (List L)) (pos : ℕ → ℕ) : List (Party L) :=
  requests.mapIdx fun i r => ⟨r, pos i, true⟩

theorem placed_getElem (pos : ℕ → ℕ) (i : ℕ) :
    (placed requests pos)[i]? = requests[i]?.map fun r => ⟨r, pos i, true⟩ :=
  List.getElem?_mapIdx

theorem placed_set {pos : ℕ → ℕ} {j n : ℕ} {r : List L} (hr : requests[j]? = some r) :
    (placed requests pos).set j ⟨r, n, true⟩ = placed requests (Function.update pos j n) := by
  apply List.ext_getElem?
  intro i
  rw [List.getElem?_set, placed_getElem, placed_getElem]
  by_cases hij : j = i
  · subst hij
    obtain ⟨hlt, _⟩ := List.getElem?_eq_some_iff.1 hr
    rw [if_pos rfl, if_pos (by simpa [placed] using hlt), hr]
    simp
  · rw [if_neg hij, Function.update_of_ne (Ne.symm hij)]

end Exclusion

section Reaching

variable [DecidableEq L] {requests : List (List L)} {w : List (Party L)}

theorem heldByOther_eq_false {j : ℕ} {l : L} :
    heldByOther w j l = false ↔ ∀ i p, w[i]? = some p → i ≠ j → l ∉ p.held := by
  simp only [heldByOther, List.any_eq_false, decide_eq_true_eq, not_and]
  constructor
  · intro h i p hp hij
    exact h (p, i) (List.mem_zipIdx_iff_getElem?.2 hp) hij
  · rintro h ⟨p, i⟩ hp hij
    exact h i p (List.mem_zipIdx_iff_getElem?.1 hp) hij

theorem Fits.serve (h : Fits requests w) (e : Event) : Fits requests (serve w e) := by
  cases e with
  | request j =>
    cases hp : w[j]? with
    | none => simpa only [LockSchedules.serve, hp] using h
    | some p =>
      cases hl : p.wanted with
      | none => simpa only [LockSchedules.serve, hp, hl] using h
      | some l =>
        simp only [LockSchedules.serve, hp, hl]
        split_ifs with hheld
        · exact h
        · refine h.set hp rfl fun i q hq hij => ?_
          rw [held_grant hl]
          have hfree := heldByOther_eq_false.1 (Bool.not_eq_true _ ▸ hheld) i q hq hij
          have hapart := h.exclusive j i p q hij.symm hp hq
          rw [List.disjoint_append_left]
          exact ⟨hapart, List.singleton_disjoint.2 hfree⟩
  | finish j =>
    cases hp : w[j]? with
    | none => simpa only [LockSchedules.serve, hp] using h
    | some p =>
      simp only [LockSchedules.serve, hp]
      refine h.set hp rfl fun i q _ _ => ?_
      simp [Party.held, Party.finish]

theorem Fits.run (h : Fits requests w) (es : List Event) : Fits requests (run es w) := by
  induction es generalizing w with
  | nil => exact h
  | cons e es ih => exact ih (h.serve e)

theorem serve_placed (pos : ℕ → ℕ) {j : ℕ} {r : List L} {l : L} (hr : requests[j]? = some r)
    (hl : r[pos j]? = some l) (hfree : ∀ i, i ≠ j → l ∉ asked requests i (pos i)) :
    serve (placed requests pos) (.request j) =
      placed requests (Function.update pos j (pos j + 1)) := by
  have hp : (placed requests pos)[j]? = some ⟨r, pos j, true⟩ := by
    rw [placed_getElem, hr]
    rfl
  have hwanted : (⟨r, pos j, true⟩ : Party L).wanted = some l := hl
  have hother : heldByOther (placed requests pos) j l = false := by
    refine heldByOther_eq_false.2 fun i q hq hij => ?_
    rw [placed_getElem] at hq
    obtain ⟨r', hr', rfl⟩ := Option.map_eq_some_iff.1 hq
    have hnot := hfree i hij
    simpa [asked, hr', Party.held] using hnot
  simp only [serve, hp, hwanted, hother, Bool.false_eq_true, if_false]
  exact placed_set hr

/-- A party climbs to its position while the others stay at theirs. -/
theorem climb (pos : ℕ → ℕ) {j n : ℕ} (hn : n ≤ (requests[j]?.getD []).length)
    (hfree : ∀ i, i ≠ j → (asked requests j n).Disjoint (asked requests i (pos i)))
    (hzero : pos j = 0) :
    ∃ es, run es (placed requests pos) = placed requests (Function.update pos j n) := by
  induction n with
  | zero =>
    refine ⟨[], ?_⟩
    rw [← hzero, Function.update_eq_self]
    rfl
  | succ n ih =>
    have hsub : ∀ i, i ≠ j → (asked requests j n).Disjoint (asked requests i (pos i)) :=
      fun i hi l hl => hfree i hi (List.take_subset_take_left _ (Nat.le_succ n) hl)
    obtain ⟨es, hes⟩ := ih (by omega) hsub
    obtain ⟨r, hr⟩ : ∃ r, requests[j]? = some r := by
      cases hj : requests[j]? with
      | none => simp [hj] at hn
      | some r => exact ⟨r, rfl⟩
    rw [hr, Option.getD_some] at hn
    have hl : r[n]? = some r[n] := List.getElem?_eq_getElem (by omega)
    have hserve := serve_placed (Function.update pos j n) hr
      (by rw [Function.update_self]; exact hl) (fun i hi hmem => by
        rw [Function.update_of_ne hi] at hmem
        refine hfree i hi ?_ hmem
        rw [asked, hr, Option.getD_some, List.take_add_one, hl]
        exact List.mem_append_right _ (List.mem_singleton_self _))
    refine ⟨es ++ [.request j], ?_⟩
    rw [run_append, hes, run, run, hserve, Function.update_self, Function.update_idem]

theorem reach_placed (requests : List (List L)) (pos : ℕ → ℕ)
    (hle : ∀ i, pos i ≤ (requests[i]?.getD []).length)
    (hapart : ∀ i j, i ≠ j → (asked requests i (pos i)).Disjoint (asked requests j (pos j))) :
    ∃ es, run es (start requests) = placed requests pos := by
  have hupto : ∀ m, ∃ es, run es (start requests) =
      placed requests fun i => if i < m then pos i else 0 := by
    intro m
    induction m with
    | zero =>
      refine ⟨[], ?_⟩
      apply List.ext_getElem?
      intro i
      rw [placed_getElem]
      simp [run, start]
    | succ m ih =>
      obtain ⟨es, hes⟩ := ih
      have hstep := climb (fun i => if i < m then pos i else 0) (hle m)
        (fun i hi => by
          split_ifs with him
          · exact hapart m i hi.symm
          · simp [asked])
        (by simp)
      obtain ⟨fs, hfs⟩ := hstep
      refine ⟨es ++ fs, ?_⟩
      rw [run_append, hes, hfs]
      congr 1
      funext i
      by_cases him : i = m
      · subst him
        simp
      · rw [Function.update_of_ne him]
        have : i < m + 1 ↔ i < m := by omega
        simp only [this]
  obtain ⟨es, hes⟩ := hupto requests.length
  refine ⟨es, hes.trans ?_⟩
  apply List.ext_getElem?
  intro i
  rw [placed_getElem, placed_getElem]
  cases hi : requests[i]? with
  | none => rfl
  | some r =>
    obtain ⟨hlt, _⟩ := List.getElem?_eq_some_iff.1 hi
    simp [hlt]

/-- No order of requests ends in a deadlock exactly if the lists do not cross. -/
theorem deadlock_free_iff (requests : List (List L)) :
    (∀ es, ¬ Deadlocked (run es (start requests))) ↔ ¬ Crossing requests := by
  constructor
  · rintro hfree ⟨pos, hapart, i, hcycle⟩
    -- A position past the end of a list is as good as its end.
    have htake : ∀ j, asked requests j (min (pos j) (requests[j]?.getD []).length) =
        asked requests j (pos j) := by
      intro j
      unfold asked
      rw [← List.take_take, List.take_length]
    obtain ⟨es, hes⟩ := reach_placed requests
      (fun j => min (pos j) (requests[j]?.getD []).length) (fun j => min_le_right _ _)
      (fun j k hjk => by
        rw [htake, htake]
        exact hapart j k hjk)
    refine hfree es ⟨i, ?_⟩
    rw [hes]
    refine TransGen.mono (fun j k hblocks => ?_) i i hcycle
    obtain ⟨hjk, l, hl, hmem⟩ := hblocks
    obtain ⟨hlt, _⟩ := List.getElem?_eq_some_iff.1 hl
    cases hj : requests[j]? with
    | none => simp [hj] at hl
    | some r =>
      cases hk : requests[k]? with
      | none => simp [asked, hk] at hmem
      | some r' =>
        refine ⟨hjk, _, _, l, by rw [placed_getElem, hj]; rfl, by rw [placed_getElem, hk]; rfl, ?_, ?_⟩
        · rw [hj, Option.getD_some] at hl hlt
          simp only [Party.wanted, Option.getD_some, if_true, min_eq_left hlt.le]
          exact hl
        · rw [← htake] at hmem
          simpa [asked, hk, Party.held] using hmem
  · intro hnot es hdead
    exact hnot (crossing_of_deadlocked ((Fits.start requests).run es) hdead)

end Reaching

section Ranks

variable {requests : List (List L)}

/-- Every request is for something already granted, or ranks above all that was granted. -/
def Climbs (rank : L → ℕ) : List L → List L → Prop
  | _, [] => True
  | granted, l :: rest =>
    (l ∈ granted ∨ ∀ m ∈ granted, rank m < rank l) ∧ Climbs rank (l :: granted) rest

theorem Climbs.next {rank : L → ℕ} {granted r : List L} (h : Climbs rank granted r) {n : ℕ} {l : L}
    (hl : r[n]? = some l) :
    (l ∈ granted ∨ l ∈ r.take n) ∨ ∀ m, m ∈ granted ∨ m ∈ r.take n → rank m < rank l := by
  induction r generalizing granted n with
  | nil => simp at hl
  | cons k rest ih =>
    cases n with
    | zero =>
      obtain rfl : k = l := by simpa using hl
      rcases h.1 with hagain | hhigher
      · exact .inl (.inl hagain)
      · right
        rintro m (hm | hm)
        · exact hhigher m hm
        · simp at hm
    | succ n =>
      have hrest : rest[n]? = some l := by simpa using hl
      have hnext := ih h.2 hrest
      simp only [List.mem_cons, List.take_succ_cons] at hnext ⊢
      rcases hnext with hagain | hhigher
      · left
        tauto
      · right
        intro m hm
        apply hhigher
        tauto

theorem Climbs.append {rank : L → ℕ} {granted r s : List L} (hr : Climbs rank granted r)
    (hs : ∀ held, (∀ l, l ∈ held ↔ l ∈ granted ∨ l ∈ r) → Climbs rank held s) :
    Climbs rank granted (r ++ s) := by
  induction r generalizing granted with
  | nil => exact hs granted (by simp)
  | cons k rest ih =>
    refine ⟨hr.1, ih hr.2 fun held hheld => hs held fun l => ?_⟩
    rw [hheld, List.mem_cons, List.mem_cons]
    tauto

theorem Climbs.filter {rank : L → ℕ} (keep : L → Bool) {granted held r : List L}
    (h : Climbs rank granted r) (hsub : ∀ l ∈ held, l ∈ granted)
    (hkeep : ∀ l ∈ granted, keep l = true → l ∈ held) : Climbs rank held (r.filter keep) := by
  induction r generalizing granted held with
  | nil => trivial
  | cons k rest ih =>
    by_cases hk : keep k = true
    · rw [List.filter_cons_of_pos hk]
      refine ⟨?_, ih h.2 ?_ ?_⟩
      · rcases h.1 with hagain | hhigher
        · exact .inl (hkeep k hagain hk)
        · exact .inr fun m hm => hhigher m (hsub m hm)
      · intro l hl
        rcases List.mem_cons.1 hl with rfl | hl
        · exact List.mem_cons_self
        · exact List.mem_cons_of_mem _ (hsub l hl)
      · intro l hl hkept
        rcases List.mem_cons.1 hl with rfl | hl
        · exact List.mem_cons_self
        · exact List.mem_cons_of_mem _ (hkeep l hl hkept)
    · rw [List.filter_cons_of_neg hk]
      refine ih h.2 (fun l hl => List.mem_cons_of_mem _ (hsub l hl)) fun l hl hkept => ?_
      rcases List.mem_cons.1 hl with rfl | hl
      · exact absurd hkept hk
      · exact hkeep l hl hkept

/-- Lists that climb in one rank do not cross: along a cycle the wanted locks would rank higher and
higher. -/
theorem not_crossing_of_climbs (rank : L → ℕ) (h : ∀ r ∈ requests, Climbs rank [] r) :
    ¬ Crossing requests := by
  rintro ⟨pos, hapart, i, hcycle⟩
  let height : ℕ → ℕ := fun j => (((requests[j]?.getD [])[pos j]?).map rank).getD 0
  have hup : ∀ j k m, Blocks requests pos j k → Blocks requests pos k m → height j < height k := by
    rintro j k m ⟨hjk, l, hl, hmem⟩ ⟨hkm, l', hl', hmem'⟩
    simp only [height, hl, hl', Option.map_some, Option.getD_some]
    cases hk : requests[k]? with
    | none => simp [hk] at hl'
    | some r =>
      have hr : r ∈ requests := List.mem_of_getElem? hk
      rw [asked, hk, Option.getD_some] at hmem
      rw [hk, Option.getD_some] at hl'
      rcases (h r hr).next hl' with (hnever | hagain) | hhigher
      · cases hnever
      · refine absurd hmem' (hapart k m hkm ?_)
        rw [asked, hk, Option.getD_some]
        exact hagain
      · exact hhigher l (.inr hmem)
  have hpath : ∀ j k, TransGen (Blocks requests pos) j k →
      ∀ m, Blocks requests pos k m → height j < height k := by
    intro j k hjk
    induction hjk with
    | single hjk => exact fun m hm => hup j _ m hjk hm
    | tail _ hlast ih => exact fun m hm => (ih _ hlast).trans (hup _ _ m hlast hm)
  obtain ⟨m, hm, _⟩ := TransGen.head'_iff.1 hcycle
  exact absurd (hpath i i hcycle m hm) (lt_irrefl _)

end Ranks

end EveTrade.LockSchedules
