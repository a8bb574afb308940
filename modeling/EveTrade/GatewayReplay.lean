import EveTrade.RecencyList
import Mathlib

set_option autoImplicit false

/-!
# The replay cache of the gateway

An interaction id is entered with the fingerprint of its payload before the market is called, and
its entry keeps the response until it expires. The map of the entries and the list of their order
change together, so they are one list in order of use here.
-/
namespace EveTrade.GatewayReplay

open RecencyList

def defaultReplayMaxEntries : ℕ := 4096

def maxReplayCleanupPerCall : ℕ := 64

inductive ReplayDisposition where
  | new
  | inFlight
  | cached
  | conflict
  | overflow
deriving DecidableEq

/-- No response is stored as an empty one: the copy of an empty slice is nil. -/
structure InteractionReplayEntry where
  fingerprint : ByteArray
  response : ByteArray
  expiresAt : Int
deriving DecidableEq

structure InteractionReplayCache where
  ttl : Int
  maxEntries : ℕ
  entries : Recency String InteractionReplayEntry

def tenMinutes : Int := 10 * 60 * 1000000000

def newInteractionReplayCache (ttl : Int) (maxEntries : Option Int) : InteractionReplayCache where
  ttl := if ttl ≤ 0 then tenMinutes else ttl
  maxEntries := match maxEntries with
    | some n => if 0 < n then n.toNat else defaultReplayMaxEntries
    | none => defaultReplayMaxEntries
  entries := .empty

namespace InteractionReplayCache

variable (c : InteractionReplayCache) (now : Int)

def removeExpired (limit : ℕ) : InteractionReplayCache :=
  { c with entries := c.entries.clean (fun entry => entry.expiresAt ≤ now) limit }

def remove (interactionId : String) : InteractionReplayCache :=
  { c with entries := c.entries.remove interactionId }

/-- The end of `begin`, for an id without an entry. -/
def enter (interactionId : String) (fingerprint : ByteArray) :
    (ReplayDisposition × ByteArray) × InteractionReplayCache :=
  if c.maxEntries ≤ c.entries.size then ((.overflow, .empty), c)
  else
    let entry := ⟨fingerprint, .empty, now + c.ttl⟩
    ((.new, .empty), { c with entries := c.entries.use interactionId entry })

/-- What a packet with this fingerprint is told about an entry that has not expired. -/
def disposition (entry : InteractionReplayEntry) (fingerprint : ByteArray) :
    ReplayDisposition × ByteArray :=
  if entry.fingerprint ≠ fingerprint then (.conflict, .empty)
  else if entry.response.size = 0 then (.inFlight, .empty)
  else (.cached, entry.response)

def begin (interactionId : String) (fingerprint : ByteArray) :
    (ReplayDisposition × ByteArray) × InteractionReplayCache :=
  let c := c.removeExpired now maxReplayCleanupPerCall
  match c.entries.find? interactionId with
  | some entry =>
    if entry.expiresAt ≤ now then (c.remove interactionId).enter now interactionId fingerprint
    else
      -- the hit moves the entry to the back, and its expiry stays as it is
      (disposition entry fingerprint, { c with entries := c.entries.use interactionId entry })
  | none => c.enter now interactionId fingerprint

def complete (interactionId : String) (fingerprint response : ByteArray) :
    InteractionReplayCache :=
  match c.entries.find? interactionId with
  | some entry =>
    if entry.fingerprint ≠ fingerprint then c
    else
      let entry := { entry with response := response, expiresAt := now + c.ttl }
      { c with entries := c.entries.use interactionId entry }
  | none => c

def release (interactionId : String) (fingerprint : ByteArray) : InteractionReplayCache :=
  match c.entries.find? interactionId with
  | some entry => if entry.fingerprint = fingerprint then c.remove interactionId else c
  | none => c

end InteractionReplayCache

open InteractionReplayCache

section Steps

variable {c : InteractionReplayCache} {now : Int} {interactionId : String}
  {fingerprint : ByteArray}

def cleaned (c : InteractionReplayCache) (now : Int) : Recency String InteractionReplayEntry :=
  c.entries.clean (fun entry => entry.expiresAt ≤ now) maxReplayCleanupPerCall

/-- No entry of the id is left that has not expired. -/
def Vacant (c : InteractionReplayCache) (now : Int) (interactionId : String) : Prop :=
  ∀ entry, (cleaned c now).find? interactionId = some entry → entry.expiresAt ≤ now

/-- What `begin` can answer, and the cache that it leaves. -/
inductive Begun (c : InteractionReplayCache) (now : Int) (interactionId : String)
    (fingerprint : ByteArray) : ReplayDisposition × ByteArray → InteractionReplayCache → Prop where
  | hit (entry : InteractionReplayEntry)
      (found : (cleaned c now).find? interactionId = some entry) (live : now < entry.expiresAt) :
      Begun c now interactionId fingerprint (disposition entry fingerprint)
        { c with entries := (cleaned c now).use interactionId entry }
  | full (vacant : Vacant c now interactionId)
      (full : c.maxEntries ≤ ((cleaned c now).remove interactionId).size) :
      Begun c now interactionId fingerprint (.overflow, .empty)
        { c with entries := (cleaned c now).remove interactionId }
  | entered (vacant : Vacant c now interactionId)
      (room : ((cleaned c now).remove interactionId).size < c.maxEntries) :
      Begun c now interactionId fingerprint (.new, .empty)
        { c with
          entries := ((cleaned c now).remove interactionId).use interactionId
            ⟨fingerprint, .empty, now + c.ttl⟩ }

theorem begun_enter (vacant : Vacant c now interactionId) :
    let answer := ({ c with entries := (cleaned c now).remove interactionId } :
      InteractionReplayCache).enter now interactionId fingerprint
    Begun c now interactionId fingerprint answer.1 answer.2 := by
  unfold enter
  by_cases h : c.maxEntries ≤ ((cleaned c now).remove interactionId).size
  · simp only [h, if_true]
    exact .full vacant h
  · simp only [h, if_false]
    exact .entered vacant (Nat.lt_of_not_le h)

theorem begin_vacant (vacant : Vacant c now interactionId) :
    c.begin now interactionId fingerprint =
      ({ c with entries := (cleaned c now).remove interactionId } :
        InteractionReplayCache).enter now interactionId fingerprint := by
  unfold Vacant at vacant
  cases hfound : (cleaned c now).find? interactionId with
  | none =>
    rw [Recency.remove_eq_self hfound]
    unfold cleaned at hfound ⊢
    simp only [InteractionReplayCache.begin, removeExpired, hfound]
  | some entry =>
    have hexpired := vacant entry hfound
    unfold cleaned at hfound ⊢
    simp only [InteractionReplayCache.begin, removeExpired, hfound, hexpired, if_true]
    rfl

theorem begin_hit {entry : InteractionReplayEntry}
    (hfound : (cleaned c now).find? interactionId = some entry) (hlive : now < entry.expiresAt) :
    c.begin now interactionId fingerprint =
      (disposition entry fingerprint,
        { c with entries := (cleaned c now).use interactionId entry }) := by
  unfold cleaned at hfound ⊢
  simp only [InteractionReplayCache.begin, removeExpired, hfound, not_le.mpr hlive, if_false]

theorem begun_begin (c : InteractionReplayCache) (now : Int) (interactionId : String)
    (fingerprint : ByteArray) :
    Begun c now interactionId fingerprint (c.begin now interactionId fingerprint).1
      (c.begin now interactionId fingerprint).2 := by
  by_cases vacant : Vacant c now interactionId
  · rw [begin_vacant vacant]
    exact begun_enter vacant
  · simp only [Vacant, not_forall, not_le] at vacant
    obtain ⟨entry, hfound, hlive⟩ := vacant
    rw [begin_hit hfound hlive]
    exact .hit entry hfound hlive

/-- A property of what `begin` answers and leaves is shown case by case. -/
theorem begin_elim {P : ReplayDisposition × ByteArray → InteractionReplayCache → Prop}
    (h : ∀ answer c', Begun c now interactionId fingerprint answer c' → P answer c') :
    P (c.begin now interactionId fingerprint).1 (c.begin now interactionId fingerprint).2 :=
  h _ _ (begun_begin c now interactionId fingerprint)

theorem complete_cases (c : InteractionReplayCache) (now : Int) (interactionId : String)
    (fingerprint response : ByteArray) :
    c.complete now interactionId fingerprint response = c ∨
      ∃ entry, c.entries.find? interactionId = some entry ∧ entry.fingerprint = fingerprint ∧
        c.complete now interactionId fingerprint response =
          { c with
            entries := c.entries.use interactionId ⟨fingerprint, response, now + c.ttl⟩ } := by
  unfold complete
  cases hfound : c.entries.find? interactionId with
  | none => exact .inl rfl
  | some entry =>
    by_cases h : entry.fingerprint = fingerprint
    · refine .inr ⟨entry, rfl, h, ?_⟩
      simp [h]
    · exact .inl (by simp [h])

theorem release_cases (c : InteractionReplayCache) (interactionId : String)
    (fingerprint : ByteArray) :
    c.release interactionId fingerprint = c ∨
      ∃ entry, c.entries.find? interactionId = some entry ∧ entry.fingerprint = fingerprint ∧
        c.release interactionId fingerprint = c.remove interactionId := by
  unfold release
  cases hfound : c.entries.find? interactionId with
  | none => exact .inl rfl
  | some entry =>
    by_cases h : entry.fingerprint = fingerprint
    · exact .inr ⟨entry, rfl, h, by simp [h]⟩
    · exact .inl (by simp [h])

end Steps

section Runs

inductive CacheCall where
  | begin (interactionId : String) (fingerprint : ByteArray)
  | complete (interactionId : String) (fingerprint response : ByteArray)
  | release (interactionId : String) (fingerprint : ByteArray)

def step (c : InteractionReplayCache) (now : Int) : CacheCall → InteractionReplayCache
  | .begin interactionId fingerprint => (c.begin now interactionId fingerprint).2
  | .complete interactionId fingerprint response =>
    c.complete now interactionId fingerprint response
  | .release interactionId fingerprint => c.release interactionId fingerprint

def run (c : InteractionReplayCache) : List (Int × CacheCall) → InteractionReplayCache
  | [] => c
  | (now, call) :: calls => run (step c now call) calls

/-- The clock never goes back. -/
def Clocked (calls : List (Int × CacheCall)) : Prop := calls.Pairwise fun a b => a.1 ≤ b.1

instance (calls : List (Int × CacheCall)) : Decidable (Clocked calls) :=
  inferInstanceAs (Decidable (calls.Pairwise _))

def Overflows (c : InteractionReplayCache) (now : Int) : CacheCall → Prop
  | .begin interactionId fingerprint => (c.begin now interactionId fingerprint).1.1 = .overflow
  | _ => False

/-- As many ids as the cache has room for hold entries that have not expired. -/
def Full (c : InteractionReplayCache) (now : Int) : Prop :=
  ∃ ids : Finset String, ids.card = c.maxEntries ∧
    ∀ interactionId ∈ ids, ∃ entry, c.entries.find? interactionId = some entry ∧
      now < entry.expiresAt

/-- Whenever one of the calls is answered with an overflow, the cache is full at that moment. -/
def RefusedWhenFull (c : InteractionReplayCache) : List (Int × CacheCall) → Prop
  | [] => True
  | (now, call) :: calls =>
    (Overflows c now call → Full c now) ∧ RefusedWhenFull (step c now call) calls

/-- A `begin` that finds an entry finds one that no other entry outlives. -/
def HitsLatest (c : InteractionReplayCache) (now : Int) : CacheCall → Prop
  | .begin interactionId _ => ∀ entry, c.entries.find? interactionId = some entry →
    now < entry.expiresAt → ∀ r ∈ c.entries.rows, r.2.expiresAt ≤ entry.expiresAt
  | _ => True

def Orderly (c : InteractionReplayCache) : List (Int × CacheCall) → Prop
  | [] => True
  | (now, call) :: calls => HitsLatest c now call ∧ Orderly (step c now call) calls

variable {call : CacheCall} {t : Int} {n : ℕ}

theorem orderly_append {c : InteractionReplayCache} {p q : List (Int × CacheCall)} :
    Orderly c (p ++ q) ↔ Orderly c p ∧ Orderly (run c p) q := by
  induction p generalizing c with
  | nil => simp [Orderly, run]
  | cons a p ih =>
    simp only [List.cons_append, Orderly, run]
    rw [ih, and_assoc]

theorem step_maxEntries (c : InteractionReplayCache) (now : Int) (call : CacheCall) :
    (step c now call).maxEntries = c.maxEntries := by
  cases call with
  | begin interactionId fingerprint =>
    refine begin_elim (P := fun _ c' => c'.maxEntries = c.maxEntries) ?_
    intro answer c' hbegun
    cases hbegun <;> rfl
  | complete interactionId fingerprint response =>
    obtain heq | ⟨entry, -, -, heq⟩ := complete_cases c now interactionId fingerprint response
    · rw [GatewayReplay.step, heq]
    · rw [GatewayReplay.step, heq]
  | release interactionId fingerprint =>
    obtain heq | ⟨entry, -, -, heq⟩ := release_cases c interactionId fingerprint
    · rw [GatewayReplay.step, heq]
    · rw [GatewayReplay.step, heq]
      rfl

/-- What every call keeps at its time: the bound on the entries, and that none of them was given
more than the time to live. -/
structure Dated (now : Int) (c : InteractionReplayCache) : Prop where
  bounded : c.entries.size ≤ c.maxEntries
  dated : ∀ r ∈ c.entries.rows, r.2.expiresAt ≤ now + c.ttl

variable {c : InteractionReplayCache} {now last : Int}

theorem mem_of_mem_cleaned {r : String × InteractionReplayEntry}
    (h : r ∈ (cleaned c now).rows) : r ∈ c.entries.rows :=
  Recency.mem_of_mem_clean h

theorem size_cleaned_le (c : InteractionReplayCache) (now : Int) :
    (cleaned c now).size ≤ c.entries.size :=
  Recency.size_clean_le _ _ _

theorem mem_cleaned {r : String × InteractionReplayEntry} (h : r ∈ c.entries.rows)
    (hlive : now < r.2.expiresAt) : r ∈ (cleaned c now).rows :=
  Recency.mem_clean h (by simpa using hlive)

theorem Dated.later (h : Dated last c) (hle : last ≤ now) : Dated now c where
  bounded := h.bounded
  dated := by
    intro r hr
    have := h.dated r hr
    omega

theorem Dated.step (h : Dated last c) (hle : last ≤ now) (call : CacheCall) :
    Dated now (step c now call) := by
  have hnow := h.later hle
  cases call with
  | begin interactionId fingerprint =>
    refine begin_elim (P := fun _ c' => Dated now c') ?_
    intro answer c' hbegun
    cases hbegun with
    | hit entry found live =>
      refine ⟨?_, ?_⟩
      · rw [Recency.size_use_old found]
        exact le_trans (size_cleaned_le c now) h.bounded
      · intro r hr
        rcases Recency.mem_use.mp hr with ⟨hr, -⟩ | rfl
        · exact hnow.dated r (mem_of_mem_cleaned hr)
        · exact hnow.dated _ (mem_of_mem_cleaned (Recency.find?_eq_some_iff.mp found))
    | full vacant full =>
      refine ⟨?_, ?_⟩
      · exact le_trans (Recency.size_remove_le _ _) (le_trans (size_cleaned_le c now) h.bounded)
      · intro r hr
        exact hnow.dated r (mem_of_mem_cleaned (Recency.mem_remove.mp hr).1)
    | entered vacant room =>
      refine ⟨?_, ?_⟩
      · rw [Recency.size_use_new (Recency.find?_remove_self _ _)]
        exact room
      · intro r hr
        rcases Recency.mem_use.mp hr with ⟨hr, -⟩ | rfl
        · exact hnow.dated r (mem_of_mem_cleaned (Recency.mem_remove.mp hr).1)
        · exact le_refl _
  | complete interactionId fingerprint response =>
    change Dated now (c.complete now interactionId fingerprint response)
    obtain heq | ⟨entry, found, -, heq⟩ :=
      complete_cases c now interactionId fingerprint response
    · rwa [heq]
    · rw [heq]
      refine ⟨?_, ?_⟩
      · rw [Recency.size_use_old found]
        exact h.bounded
      · intro r hr
        rcases Recency.mem_use.mp hr with ⟨hr, -⟩ | rfl
        · exact hnow.dated r hr
        · exact le_refl _
  | release interactionId fingerprint =>
    change Dated now (c.release interactionId fingerprint)
    obtain heq | ⟨entry, found, -, heq⟩ := release_cases c interactionId fingerprint
    · rwa [heq]
    · rw [heq]
      refine ⟨le_trans (Recency.size_remove_le _ _) h.bounded, ?_⟩
      intro r hr
      exact hnow.dated r (Recency.mem_remove.mp hr).1

/-- The list of the cache is in the order in which its entries expire. -/
def InOrder (c : InteractionReplayCache) : Prop :=
  c.entries.Ordered InteractionReplayEntry.expiresAt

theorem InOrder.step (h : InOrder c) (hdated : Dated now c)
    (hlatest : HitsLatest c now call) : InOrder (step c now call) := by
  have hclean : (cleaned c now).Ordered InteractionReplayEntry.expiresAt := h.clean _ _
  cases call with
  | begin interactionId fingerprint =>
    refine begin_elim (P := fun _ c' => InOrder c') ?_
    intro answer c' hbegun
    cases hbegun with
    | hit entry found live =>
      have hentry := mem_of_mem_cleaned (Recency.find?_eq_some_iff.mp found)
      apply hclean.use
      intro r hr _
      exact hlatest entry (Recency.find?_eq_some_iff.mpr hentry) live r (mem_of_mem_cleaned hr)
    | full vacant full => exact hclean.remove interactionId
    | entered vacant room =>
      apply (hclean.remove interactionId).use
      intro r hr _
      exact hdated.dated r (mem_of_mem_cleaned (Recency.mem_remove.mp hr).1)
  | complete interactionId fingerprint response =>
    change InOrder (c.complete now interactionId fingerprint response)
    obtain heq | ⟨entry, found, -, heq⟩ :=
      complete_cases c now interactionId fingerprint response
    · rwa [heq]
    · rw [heq]
      apply Recency.Ordered.use h
      intro r hr _
      exact hdated.dated r hr
  | release interactionId fingerprint =>
    change InOrder (c.release interactionId fingerprint)
    obtain heq | ⟨entry, found, -, heq⟩ := release_cases c interactionId fingerprint
    · rwa [heq]
    · rw [heq]
      exact Recency.Ordered.remove h interactionId

theorem disposition_ne_overflow (entry : InteractionReplayEntry) (fingerprint : ByteArray) :
    (disposition entry fingerprint).1 ≠ .overflow := by
  unfold disposition
  split_ifs <;> simp

theorem Overflows.full (h : Overflows c now call) :
    ∃ interactionId, Vacant c now interactionId ∧
      c.maxEntries ≤ ((cleaned c now).remove interactionId).size := by
  cases call with
  | complete interactionId fingerprint response => exact h.elim
  | release interactionId fingerprint => exact h.elim
  | begin interactionId fingerprint =>
    revert h
    refine begin_elim (P := fun answer _ => answer.1 = .overflow →
      ∃ interactionId, Vacant c now interactionId ∧
        c.maxEntries ≤ ((cleaned c now).remove interactionId).size) ?_
    intro answer c' hbegun hover
    cases hbegun with
    | hit entry found live => exact absurd hover (disposition_ne_overflow entry fingerprint)
    | full vacant full => exact ⟨interactionId, vacant, full⟩
    | entered vacant room => cases hover

/-- In a list in order, the clean-up leaves an expired entry only if it has stopped at its limit, and
then there is room. -/
theorem InOrder.full_of_overflow (h : InOrder c) (hdated : Dated now c)
    (hover : Overflows c now call) : Full c now := by
  obtain ⟨interactionId, -, hfull⟩ := hover.full
  have hsize : c.entries.size ≤ (cleaned c now).size :=
    le_trans hdated.bounded (le_trans hfull (Recency.size_remove_le _ _))
  have hfront : ∀ r ∈ (cleaned c now).front?, now < r.2.expiresAt := by
    intro r hr
    have hstop : c.entries.size < (cleaned c now).size + maxReplayCleanupPerCall := by
      unfold maxReplayCleanupPerCall
      omega
    simpa using Recency.clean_front hstop r hr
  have hlive : ∀ r ∈ (cleaned c now).rows, now < r.2.expiresAt := by
    intro r hr
    obtain ⟨first, hfirst, hle⟩ := Recency.Ordered.front_le (Recency.Ordered.clean h _ _) hr
    have := hfront first hfirst
    omega
  refine ⟨((cleaned c now).rows.map Prod.fst).toFinset, ?_, ?_⟩
  · rw [List.toFinset_card_of_nodup (cleaned c now).nodup, List.length_map]
    have hbounded := hdated.bounded
    have hle := Recency.size_remove_le (cleaned c now) interactionId
    have hcleaned := size_cleaned_le c now
    unfold Recency.size at *
    omega
  · intro id hid
    obtain ⟨r, hr, rfl⟩ := List.mem_map.mp (List.mem_toFinset.mp hid)
    exact ⟨r.2, Recency.find?_eq_some_iff.mpr (mem_of_mem_cleaned hr), hlive r hr⟩

theorem refusedWhenFull_of_orderly {calls : List (Int × CacheCall)} (hclock : Clocked calls)
    (hlast : ∀ a ∈ calls, last ≤ a.1) (hdated : Dated last c) (horder : InOrder c)
    (h : Orderly c calls) : RefusedWhenFull c calls := by
  induction calls generalizing c last with
  | nil => trivial
  | cons a calls ih =>
    obtain ⟨hlatest, hrest⟩ := h
    obtain ⟨hfirst, hclock⟩ := List.pairwise_cons.mp hclock
    have hle : last ≤ a.1 := hlast a List.mem_cons_self
    have hnow : Dated a.1 c := hdated.later hle
    refine ⟨fun hover => horder.full_of_overflow hnow hover, ?_⟩
    exact ih hclock hfirst (hdated.step hle a.2) (horder.step hnow hlatest) hrest

theorem Full.live (h : Full c now) (hbounded : c.entries.size ≤ c.maxEntries) :
    ∀ r ∈ c.entries.rows, now < r.2.expiresAt := by
  obtain ⟨ids, hcard, hids⟩ := h
  have hsub : ids ⊆ (c.entries.rows.map Prod.fst).toFinset := by
    intro id hid
    obtain ⟨entry, hfound, -⟩ := hids id hid
    exact List.mem_toFinset.mpr (List.mem_map.mpr ⟨_, Recency.find?_eq_some_iff.mp hfound, rfl⟩)
  have hall : ids = (c.entries.rows.map Prod.fst).toFinset := by
    apply Finset.eq_of_subset_of_card_le hsub
    rw [List.toFinset_card_of_nodup c.entries.nodup, List.length_map, hcard]
    exact hbounded
  intro r hr
  have hid : r.1 ∈ ids := by
    rw [hall]
    exact List.mem_toFinset.mpr (List.mem_map.mpr ⟨r, hr, rfl⟩)
  obtain ⟨entry, hfound, hlive⟩ := hids r.1 hid
  rwa [Recency.mem_unique hr (Recency.find?_eq_some_iff.mp hfound)]

/-- At time `t` an expired row stands behind a live one, and `n` more behind it. -/
def Blocked (c : InteractionReplayCache) (t : Int) (n : ℕ) : Prop :=
  ∃ front shield middle expired back,
    c.entries.rows = front ++ shield :: (middle ++ expired :: back) ∧
      t < shield.2.expiresAt ∧ expired.2.expiresAt ≤ t ∧ n ≤ back.length

theorem Blocked.not_full (h : Blocked c t n)
    (hbounded : c.entries.size ≤ c.maxEntries) : ¬ Full c t := by
  obtain ⟨front, shield, middle, expired, back, hrows, -, hexpired, -⟩ := h
  intro hfull
  have hlive := hfull.live hbounded expired (by simp [hrows])
  omega

theorem Blocked.lt_maxEntries (h : Blocked c t n)
    (hbounded : c.entries.size ≤ c.maxEntries) : n < c.maxEntries := by
  obtain ⟨front, shield, middle, expired, back, hrows, -, -, hn⟩ := h
  have hlen := congrArg List.length hrows
  simp only [List.length_append, List.length_cons] at hlen
  unfold Recency.size at hbounded
  omega

theorem Blocked.begin (h : Blocked c t n) {interactionId : String}
    (hnew : c.entries.find? interactionId = none) (fingerprint : ByteArray) :
    Overflows c t (.begin interactionId fingerprint) ∨
      Blocked (step c t (.begin interactionId fingerprint)) t (n + 1) := by
  obtain ⟨front, shield, middle, expired, back, hrows, hshield, hexpired, hn⟩ := h
  obtain ⟨front', hcleaned⟩ := dropStale_append_fresh
    (fun entry : InteractionReplayEntry => entry.expiresAt ≤ t) (r := shield)
    (by simpa using hshield) maxReplayCleanupPerCall front (middle ++ expired :: back)
  have habsent : (cleaned c t).find? interactionId = none := by
    rw [Recency.find?_eq_none_iff] at hnew ⊢
    intro entry hmem
    exact hnew entry (mem_of_mem_cleaned hmem)
  have vacant : Vacant c t interactionId := by
    intro entry hfound
    rw [habsent] at hfound
    cases hfound
  unfold Overflows GatewayReplay.step
  simp only [begin_vacant vacant, Recency.remove_eq_self habsent, enter]
  by_cases hfull : c.maxEntries ≤ (cleaned c t).size
  · simp [hfull]
  · right
    simp only [hfull, if_false]
    refine ⟨front', shield, middle, expired,
      back ++ [(interactionId, ⟨fingerprint, .empty, t + c.ttl⟩)], ?_, hshield, hexpired, ?_⟩
    · change ((cleaned c t).remove interactionId).rows ++ _ = _
      rw [Recency.remove_eq_self habsent]
      change dropStale _ _ c.entries.rows ++ _ = _
      rw [hrows, hcleaned]
      simp
    · simpa using hn

theorem exists_new_id (c : InteractionReplayCache) :
    ∃ interactionId, c.entries.find? interactionId = none := by
  obtain ⟨interactionId, h⟩ :=
    Infinite.exists_notMem_finset (c.entries.rows.map Prod.fst).toFinset
  refine ⟨interactionId, Recency.find?_eq_none_iff.mpr ?_⟩
  intro entry hmem
  exact h (List.mem_toFinset.mpr (List.mem_map.mpr ⟨_, hmem, rfl⟩))

/-- New ids fill a blocked cache up, and the first that finds no room is refused because of the
expired entry. -/
theorem Blocked.refused (h : Blocked c t n) (hdated : Dated t c) :
    ∃ later, (∀ a ∈ later, a.1 = t) ∧ Orderly c later ∧ ¬ RefusedWhenFull c later := by
  -- the rows behind the expired one only grow, so the induction is on the room that is left
  induction hroom : c.maxEntries - n generalizing c n with
  | zero =>
    have := h.lt_maxEntries hdated.bounded
    omega
  | succ k ih =>
    obtain ⟨interactionId, hnew⟩ := exists_new_id c
    have hlatest : HitsLatest c t (.begin interactionId .empty) := by
      intro entry hfound
      rw [hnew] at hfound
      cases hfound
    rcases h.begin hnew .empty with hover | hblocked
    · refine ⟨[(t, .begin interactionId .empty)], by simp, ⟨hlatest, trivial⟩, ?_⟩
      intro hrefused
      exact h.not_full hdated.bounded (hrefused.1 hover)
    · have hdated' := hdated.step (le_refl t) (.begin interactionId .empty)
      have hmax : (step c t (.begin interactionId .empty)).maxEntries = c.maxEntries :=
        step_maxEntries c t _
      obtain ⟨later, htime, horderly, hrefused⟩ := ih hblocked hdated' (by rw [hmax]; omega)
      refine ⟨(t, .begin interactionId .empty) :: later, ?_, ⟨hlatest, horderly⟩, ?_⟩
      · simpa using htime
      · intro hall
        exact hrefused hall.2

/-- A hit on an entry that another one outlives leaves the cache blocked when it expires. -/
theorem blocked_of_hit (h : ¬ HitsLatest c now call) :
    ∃ t, now ≤ t ∧ Blocked (step c now call) t 0 := by
  cases call with
  | complete interactionId fingerprint response => exact absurd trivial h
  | release interactionId fingerprint => exact absurd trivial h
  | begin interactionId fingerprint =>
    simp only [HitsLatest, not_forall, not_le] at h
    obtain ⟨entry, hfound, hlive, r, hr, houtlives⟩ := h
    have hentry := Recency.find?_eq_some_iff.mp hfound
    have hcleaned : (cleaned c now).find? interactionId = some entry :=
      Recency.find?_eq_some_iff.mpr (mem_cleaned hentry hlive)
    have hne : r.1 ≠ interactionId := by
      intro heq
      have hsame : r.2 = entry := Recency.mem_unique (by rwa [← heq]) hentry
      rw [hsame] at houtlives
      exact lt_irrefl _ houtlives
    have hkept : r ∈ ((cleaned c now).remove interactionId).rows :=
      Recency.mem_remove.mpr ⟨mem_cleaned hr (lt_trans hlive houtlives), hne⟩
    obtain ⟨front, middle, hsplit⟩ := List.append_of_mem hkept
    refine ⟨entry.expiresAt, le_of_lt hlive, front, r, middle, (interactionId, entry), [], ?_,
      houtlives, le_refl _, Nat.zero_le _⟩
    simp only [GatewayReplay.step, begin_hit hcleaned hlive, Recency.use, hsplit]
    simp

theorem refused_of_not_orderly {calls : List (Int × CacheCall)} (hclock : Clocked calls)
    (hlast : ∀ a ∈ calls, last ≤ a.1) (hdated : Dated last c) (h : ¬ Orderly c calls) :
    ∃ p later, p <+: calls ∧ Clocked (p ++ later) ∧ (∀ a ∈ p ++ later, last ≤ a.1) ∧
      Orderly (run c p) later ∧ ¬ RefusedWhenFull c (p ++ later) := by
  induction calls generalizing c last with
  | nil => exact absurd trivial h
  | cons a calls ih =>
    obtain ⟨hfirst, hclock⟩ := List.pairwise_cons.mp hclock
    have hle : last ≤ a.1 := hlast a List.mem_cons_self
    have hdated' := hdated.step hle a.2
    by_cases hlatest : HitsLatest c a.1 a.2
    · have hrest : ¬ Orderly (step c a.1 a.2) calls := fun hrest => h ⟨hlatest, hrest⟩
      obtain ⟨p, later, hpre, hclock', hafter, horderly, hrefused⟩ :=
        ih hclock hfirst hdated' hrest
      refine ⟨a :: p, later, (List.prefix_cons_inj a).mpr hpre,
        List.pairwise_cons.mpr ⟨hafter, hclock'⟩, ?_, horderly, fun hall => hrefused hall.2⟩
      intro b hb
      rcases List.mem_cons.mp hb with rfl | hb
      · exact hle
      · exact le_trans hle (hafter b hb)
    · obtain ⟨t, ht, hblocked⟩ := blocked_of_hit hlatest
      obtain ⟨later, htime, horderly, hrefused⟩ := hblocked.refused (hdated'.later ht)
      have hclock' : Clocked later := by
        apply List.pairwise_of_forall_mem_list
        intro x hx y hy
        rw [htime x hx, htime y hy]
      have hafter : ∀ b ∈ later, a.1 ≤ b.1 := by
        intro b hb
        rw [htime b hb]
        exact ht
      refine ⟨[a], later, ⟨calls, rfl⟩, List.pairwise_cons.mpr ⟨hafter, hclock'⟩, ?_, horderly,
        fun hall => hrefused hall.2⟩
      intro b hb
      rcases List.mem_cons.mp hb with rfl | hb
      · exact hle
      · exact le_trans hle (hafter b hb)

theorem dated_new (ttl : Int) (maxEntries : Option Int) (now : Int) :
    Dated now (newInteractionReplayCache ttl maxEntries) where
  bounded := Nat.zero_le _
  dated := by
    intro r hr
    cases hr

theorem exists_first (calls : List (Int × CacheCall)) (hclock : Clocked calls) :
    ∃ first, ∀ a ∈ calls, first ≤ a.1 := by
  cases calls with
  | nil => exact ⟨0, by simp⟩
  | cons a calls =>
    refine ⟨a.1, ?_⟩
    intro b hb
    rcases List.mem_cons.mp hb with rfl | hb
    · exact le_refl _
    · exact (List.pairwise_cons.mp hclock).1 b hb

/-- A `begin` is refused for lack of room only when the cache is full of live entries, in every
sequence whose hits are on the entry that expires last, and a hit on any other entry lets new ids be
refused that an expired entry alone stands in the way of. -/
theorem overflow_when_full_iff (ttl : Int) (maxEntries : Option Int)
    (calls : List (Int × CacheCall)) (hclock : Clocked calls) :
    Orderly (newInteractionReplayCache ttl maxEntries) calls ↔
      ∀ p later, p <+: calls → Clocked (p ++ later) →
        Orderly (run (newInteractionReplayCache ttl maxEntries) p) later →
        RefusedWhenFull (newInteractionReplayCache ttl maxEntries) (p ++ later) := by
  constructor
  · rintro horderly p later ⟨rest, rfl⟩ hclocked hlater
    have hp := (orderly_append.mp horderly).1
    obtain ⟨first, hfirst⟩ := exists_first (p ++ later) hclocked
    exact refusedWhenFull_of_orderly hclocked hfirst (dated_new ttl maxEntries first)
      (Recency.ordered_empty _) (orderly_append.mpr ⟨hp, hlater⟩)
  · intro h
    by_contra hnot
    obtain ⟨first, hfirst⟩ := exists_first calls hclock
    obtain ⟨p, later, hpre, hclocked, -, horderly, hrefused⟩ :=
      refused_of_not_orderly hclock hfirst (dated_new ttl maxEntries first) hnot
    exact hrefused (h p later hpre hclocked horderly)

/-- One second of time to live and room for two: the id `a` is asked for again before it expires,
and `c` is refused when only `b` is live. -/
def repeatedHit : List (Int × CacheCall) :=
  [(0, .begin "a" .empty), (500, .begin "b" .empty), (600, .begin "a" .empty),
    (1000, .begin "c" .empty)]

theorem repeatedHit_refused_by_expired :
    Clocked repeatedHit ∧ ¬ RefusedWhenFull (newInteractionReplayCache 1000 (some 2)) repeatedHit := by
  refine ⟨by decide, ?_⟩
  rintro ⟨-, -, -, h, -⟩
  have hover : Overflows (run (newInteractionReplayCache 1000 (some 2)) (repeatedHit.take 3)) 1000
      (.begin "c" .empty) := by
    unfold Overflows
    decide +kernel
  have hexpired : ¬ ∀ r ∈ (run (newInteractionReplayCache 1000 (some 2))
      (repeatedHit.take 3)).entries.rows, 1000 < r.2.expiresAt := by decide +kernel
  exact hexpired ((h hover).live (by decide +kernel))

theorem overflow_when_full_iff_repeatedHit :
    Clocked repeatedHit ∧
      (Orderly (newInteractionReplayCache 1000 (some 2)) repeatedHit ↔
        ∀ p later, p <+: repeatedHit → Clocked (p ++ later) →
          Orderly (run (newInteractionReplayCache 1000 (some 2)) p) later →
          RefusedWhenFull (newInteractionReplayCache 1000 (some 2)) (p ++ later)) :=
  ⟨by decide, overflow_when_full_iff 1000 (some 2) repeatedHit (by decide)⟩

end Runs

end EveTrade.GatewayReplay
