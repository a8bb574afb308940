import EveTrade.GatewayRateLimit
import EveTrade.GatewayReplay
import EveTrade.LinkedTable

set_option autoImplicit false

/-!
# The maps and lists of the gateway

The replay cache and the rate limiters keep a map and a linked list each. The functions here are
those of the cache and of the limiter as they change the two, where a look-up through the list that
finds no entry ends the program. They never do, and they do what the functions on a list in order of
use do.
-/
namespace EveTrade.GatewayTables

open RecencyList LinkedTable GatewayReplay GatewayRateLimit

section Replay

/-- The replay cache, with `seen` and `order` as they are. -/
structure ReplayTable where
  ttl : Int
  maxEntries : ℕ
  table : Linked String InteractionReplayEntry

namespace ReplayTable

def new (ttl : Int) (maxEntries : Option Int) : ReplayTable :=
  let c := newInteractionReplayCache ttl maxEntries
  ⟨c.ttl, c.maxEntries, .empty⟩

variable (c : ReplayTable) (now : Int)

def remove (interactionId : String) (entry : Entry InteractionReplayEntry) : ReplayTable :=
  { c with table := c.table.remove interactionId entry.element }

/-- None where the entry of the oldest id is nil. -/
def removeExpired (c : ReplayTable) : ℕ → Option ReplayTable
  | 0 => some c
  | limit + 1 =>
    match c.table.front with
    | none => some c
    | some oldest =>
      match c.table.find? oldest.value with
      | none => none
      | some entry =>
        if now < entry.contents.expiresAt then some c
        else (c.remove oldest.value entry).removeExpired limit

def enter (interactionId : String) (fingerprint : ByteArray) :
    (ReplayDisposition × ByteArray) × ReplayTable :=
  if c.maxEntries ≤ c.table.len then ((.overflow, .empty), c)
  else
    let entry := ⟨fingerprint, .empty, now + c.ttl⟩
    ((.new, .empty), { c with table := c.table.pushBack interactionId entry })

/-- `begin` after its clean-up. -/
def answer (interactionId : String) (fingerprint : ByteArray) :
    (ReplayDisposition × ByteArray) × ReplayTable :=
  match c.table.find? interactionId with
  | some entry =>
    if entry.contents.expiresAt ≤ now then
      (c.remove interactionId entry).enter now interactionId fingerprint
    else
      (InteractionReplayCache.disposition entry.contents fingerprint,
        { c with table := c.table.moveToBack entry.element })
  | none => c.enter now interactionId fingerprint

def begin (interactionId : String) (fingerprint : ByteArray) :
    Option ((ReplayDisposition × ByteArray) × ReplayTable) :=
  (c.removeExpired now maxReplayCleanupPerCall).map fun c => c.answer now interactionId fingerprint

def complete (interactionId : String) (fingerprint response : ByteArray) : ReplayTable :=
  match c.table.find? interactionId with
  | some entry =>
    if entry.contents.fingerprint ≠ fingerprint then c
    else
      let contents := { entry.contents with response := response, expiresAt := now + c.ttl }
      { c with
        table := (c.table.write interactionId entry contents).moveToBack entry.element }
  | none => c

def release (interactionId : String) (fingerprint : ByteArray) : ReplayTable :=
  match c.table.find? interactionId with
  | some entry => if entry.contents.fingerprint = fingerprint then c.remove interactionId entry else c
  | none => c

def step : CacheCall → Option ReplayTable
  | .begin interactionId fingerprint => (c.begin now interactionId fingerprint).map Prod.snd
  | .complete interactionId fingerprint response =>
    some (c.complete now interactionId fingerprint response)
  | .release interactionId fingerprint => some (c.release interactionId fingerprint)

/-- The table is that of a cache in order of use. -/
structure Represents (c : ReplayTable) (cache : InteractionReplayCache) : Prop where
  ttl : c.ttl = cache.ttl
  maxEntries : c.maxEntries = cache.maxEntries
  table : c.table.Represents cache.entries

end ReplayTable

open ReplayTable

variable {c : ReplayTable} {cache : InteractionReplayCache} {interactionId : String}

theorem represents_new (ttl : Int) (maxEntries : Option Int) :
    (ReplayTable.new ttl maxEntries).Represents (newInteractionReplayCache ttl maxEntries) :=
  ⟨rfl, rfl, Linked.represents_empty⟩

theorem removeExpired_represents (h : c.Represents cache) (now : Int) (limit : ℕ) :
    ∃ c', c.removeExpired now limit = some c' ∧ c'.Represents (cache.removeExpired now limit) := by
  induction limit generalizing c cache with
  | zero => exact ⟨c, rfl, h⟩
  | succ limit ih =>
    cases hfront : c.table.front with
    | none =>
      refine ⟨c, by simp only [ReplayTable.removeExpired, hfront], h.ttl, h.maxEntries, ?_⟩
      have hrows := h.table.front_none hfront
      rw [InteractionReplayCache.removeExpired,
        Recency.clean_fresh (limit + 1) (by simp [Recency.front?, hrows])]
      exact h.table
    | some oldest =>
      obtain ⟨entry, hentry, haddress, hrow, hdrop⟩ := h.table.dropFront hfront
      by_cases hlive : now < entry.contents.expiresAt
      · refine ⟨c, by simp only [ReplayTable.removeExpired, hfront, hentry, hlive, if_true],
          h.ttl, h.maxEntries, ?_⟩
        rw [InteractionReplayCache.removeExpired,
          Recency.clean_fresh (limit + 1) (by simpa [hrow] using hlive)]
        exact h.table
      · have hnext : (c.remove oldest.value entry).Represents
            { cache with entries := cache.entries.dropFront } :=
          ⟨h.ttl, h.maxEntries, by rw [← haddress] at hdrop; exact hdrop⟩
        obtain ⟨c', hloop, hc'⟩ := ih hnext
        refine ⟨c', ?_, ?_⟩
        · simp only [ReplayTable.removeExpired, hfront, hentry, hlive, if_false]
          exact hloop
        · rw [InteractionReplayCache.removeExpired,
            Recency.clean_stale hrow (by simpa using hlive) limit]
          exact hc'

theorem enter_represents (h : c.Represents cache) (hnew : cache.entries.find? interactionId = none)
    (now : Int) (fingerprint : ByteArray) :
    (c.enter now interactionId fingerprint).1 = (cache.enter now interactionId fingerprint).1 ∧
      (c.enter now interactionId fingerprint).2.Represents
        (cache.enter now interactionId fingerprint).2 := by
  unfold ReplayTable.enter InteractionReplayCache.enter
  rw [h.maxEntries, h.table.len, h.ttl]
  split_ifs
  · exact ⟨rfl, h⟩
  · exact ⟨rfl, rfl, rfl, h.table.pushBack hnew _⟩

theorem ReplayTable.Represents.unknown (h : c.Represents cache) (hnone : c.table.find? interactionId = none) :
    cache.entries.find? interactionId = none := by
  rw [← h.table.find?, hnone]
  rfl

theorem begin_represents (h : c.Represents cache) (now : Int) (interactionId : String)
    (fingerprint : ByteArray) :
    ∃ c', c.begin now interactionId fingerprint =
        some ((cache.begin now interactionId fingerprint).1, c') ∧
      c'.Represents (cache.begin now interactionId fingerprint).2 := by
  obtain ⟨c', hloop, h'⟩ := removeExpired_represents h now maxReplayCleanupPerCall
  unfold ReplayTable.begin ReplayTable.answer InteractionReplayCache.begin
  rw [hloop]
  cases hfind : c'.table.find? interactionId with
  | none =>
    have hnew := h'.unknown hfind
    obtain ⟨hanswer, hkept⟩ := enter_represents h' hnew now fingerprint
    simp only [Option.map_some, hfind, hnew]
    exact ⟨_, by rw [← hanswer], hkept⟩
  | some entry =>
    have hrow := h'.table.row hfind
    simp only [Option.map_some, hfind, hrow]
    split_ifs with hexpired
    · have hremoved : (c'.remove interactionId entry).Represents
          ((cache.removeExpired now maxReplayCleanupPerCall).remove interactionId) :=
        ⟨h'.ttl, h'.maxEntries, h'.table.remove hfind⟩
      obtain ⟨hanswer, hkept⟩ :=
        enter_represents hremoved (Recency.find?_remove_self _ _) now fingerprint
      exact ⟨_, by rw [← hanswer], hkept⟩
    · exact ⟨_, rfl, h'.ttl, h'.maxEntries, h'.table.touch hfind⟩

theorem complete_represents (h : c.Represents cache) (now : Int) (interactionId : String)
    (fingerprint response : ByteArray) :
    (c.complete now interactionId fingerprint response).Represents
      (cache.complete now interactionId fingerprint response) := by
  unfold ReplayTable.complete InteractionReplayCache.complete
  cases hfind : c.table.find? interactionId with
  | none =>
    simp only [h.unknown hfind]
    exact h
  | some entry =>
    simp only [h.table.row hfind]
    split_ifs
    · exact h
    · refine ⟨h.ttl, h.maxEntries, ?_⟩
      rw [h.ttl]
      exact h.table.use hfind _

theorem release_represents (h : c.Represents cache) (interactionId : String)
    (fingerprint : ByteArray) :
    (c.release interactionId fingerprint).Represents (cache.release interactionId fingerprint) := by
  unfold ReplayTable.release InteractionReplayCache.release
  cases hfind : c.table.find? interactionId with
  | none =>
    simp only [h.unknown hfind]
    exact h
  | some entry =>
    simp only [h.table.row hfind]
    split_ifs
    · exact ⟨h.ttl, h.maxEntries, h.table.remove hfind⟩
    · exact h

theorem replay_step_represents (h : c.Represents cache) (now : Int) (call : CacheCall) :
    ∃ c', c.step now call = some c' ∧ c'.Represents (GatewayReplay.step cache now call) := by
  cases call with
  | begin interactionId fingerprint =>
    obtain ⟨c', hbegin, hc'⟩ := begin_represents h now interactionId fingerprint
    exact ⟨c', by simp [ReplayTable.step, hbegin], hc'⟩
  | complete interactionId fingerprint response =>
    exact ⟨_, rfl, complete_represents h now interactionId fingerprint response⟩
  | release interactionId fingerprint =>
    exact ⟨_, rfl, release_represents h interactionId fingerprint⟩

end Replay

section Limiter

/-- A rate limiter, with `buckets` and `order` as they are. -/
structure LimiterTable where
  rate : ℚ
  burst : ℚ
  maxIdentities : ℕ
  idleTtl : Int
  table : Linked String TokenBucket

namespace LimiterTable

def new (ratePerSecond : ℚ) (burst maxIdentities idleTtl : Int) : Option LimiterTable :=
  (newBoundedRemoteRateLimiter ratePerSecond burst maxIdentities idleTtl).map fun l =>
    ⟨l.rate, l.burst, l.maxIdentities, l.idleTtl, .empty⟩

variable (l : LimiterTable) (now : Int)

/-- The key is deleted whether the map has it or not. -/
def removeOldest : LimiterTable :=
  match l.table.front with
  | none => l
  | some oldest => { l with table := l.table.remove oldest.value oldest.address }

/-- None where the bucket of the oldest key is nil. -/
def removeIdle (l : LimiterTable) : ℕ → Option LimiterTable
  | 0 => some l
  | limit + 1 =>
    match l.table.front with
    | none => some l
    | some oldest =>
      match l.table.find? oldest.value with
      | none => none
      | some bucket =>
        if now - bucket.contents.updated < l.idleTtl then some l
        else l.removeOldest.removeIdle limit

/-- `allow` after its clean-up. -/
def decision (key : String) : Bool × LimiterTable :=
  match l.table.find? key with
  | none =>
    let l := if l.maxIdentities ≤ l.table.len then l.removeOldest else l
    (true, { l with table := l.table.pushBack key ⟨l.burst - 1, now⟩ })
  | some bucket =>
    let spent := spend (refilled l.rate l.burst bucket.contents now) now
    (spent.1, { l with table := (l.table.write key bucket spent.2).moveToBack bucket.element })

def allow (key : String) : Option (Bool × LimiterTable) :=
  (l.removeIdle now maxLimiterCleanupPerCall).map fun l => l.decision now key

/-- The table is that of a limiter in order of use. -/
structure Represents (l : LimiterTable) (limiter : RemoteRateLimiter) : Prop where
  rate : l.rate = limiter.rate
  burst : l.burst = limiter.burst
  maxIdentities : l.maxIdentities = limiter.maxIdentities
  idleTtl : l.idleTtl = limiter.idleTtl
  table : l.table.Represents limiter.buckets

end LimiterTable

open LimiterTable

variable {l : LimiterTable} {limiter : RemoteRateLimiter}

theorem removeOldest_represents (h : l.Represents limiter) :
    l.removeOldest.Represents limiter.removeOldest := by
  unfold LimiterTable.removeOldest RemoteRateLimiter.removeOldest
  cases hfront : l.table.front with
  | none =>
    have hsame : limiter.buckets.dropFront = limiter.buckets := by
      apply Recency.ext
      simp [Recency.dropFront, h.table.front_none hfront]
    rw [hsame]
    exact h
  | some oldest =>
    obtain ⟨bucket, -, -, -, hdrop⟩ := h.table.dropFront hfront
    exact ⟨h.rate, h.burst, h.maxIdentities, h.idleTtl, hdrop⟩

theorem removeIdle_represents (h : l.Represents limiter) (now : Int) (limit : ℕ) :
    ∃ l', l.removeIdle now limit = some l' ∧ l'.Represents (limiter.removeIdle now limit) := by
  induction limit generalizing l limiter with
  | zero => exact ⟨l, rfl, h⟩
  | succ limit ih =>
    cases hfront : l.table.front with
    | none =>
      refine ⟨l, by simp only [LimiterTable.removeIdle, hfront], h.rate, h.burst, h.maxIdentities,
        h.idleTtl, ?_⟩
      have hrows := h.table.front_none hfront
      rw [RemoteRateLimiter.removeIdle,
        Recency.clean_fresh (limit + 1) (by simp [Recency.front?, hrows])]
      exact h.table
    | some oldest =>
      obtain ⟨bucket, hbucket, -, hrow, -⟩ := h.table.dropFront hfront
      by_cases hbusy : now - bucket.contents.updated < l.idleTtl
      · refine ⟨l, by simp only [LimiterTable.removeIdle, hfront, hbucket, hbusy, if_true],
          h.rate, h.burst, h.maxIdentities, h.idleTtl, ?_⟩
        rw [h.idleTtl] at hbusy
        rw [RemoteRateLimiter.removeIdle,
          Recency.clean_fresh (limit + 1) (by simpa [hrow] using hbusy)]
        exact h.table
      · obtain ⟨l', hloop, hl'⟩ := ih (removeOldest_represents h)
        refine ⟨l', ?_, ?_⟩
        · simp only [LimiterTable.removeIdle, hfront, hbucket, hbusy, if_false]
          exact hloop
        · rw [h.idleTtl, not_lt] at hbusy
          rw [RemoteRateLimiter.removeIdle, Recency.clean_stale hrow (by simpa using hbusy) limit]
          exact hl'

theorem allow_represents (h : l.Represents limiter) (now : Int) (key : String) :
    ∃ l', l.allow now key = some ((limiter.allow now key).1, l') ∧
      l'.Represents (limiter.allow now key).2 := by
  obtain ⟨l', hloop, h'⟩ := removeIdle_represents h now maxLimiterCleanupPerCall
  unfold LimiterTable.allow LimiterTable.decision RemoteRateLimiter.allow
  rw [hloop]
  cases hfind : l'.table.find? key with
  | none =>
    have hnew : (limiter.removeIdle now maxLimiterCleanupPerCall).buckets.find? key = none := by
      rw [← h'.table.find?, hfind]
      rfl
    simp only [Option.map_some, hfind, hnew]
    rw [h'.maxIdentities, h'.table.len]
    split_ifs with hfull
    · have hroom := removeOldest_represents h'
      refine ⟨_, rfl, hroom.rate, hroom.burst, hroom.maxIdentities, hroom.idleTtl, ?_⟩
      rw [hroom.burst]
      refine hroom.table.pushBack ?_ _
      rw [Recency.find?_eq_none_iff] at hnew ⊢
      exact fun v hv => hnew v (List.mem_of_mem_tail hv)
    · refine ⟨_, rfl, h'.rate, h'.burst, h'.maxIdentities, h'.idleTtl, ?_⟩
      rw [h'.burst]
      exact h'.table.pushBack hnew _
  | some bucket =>
    have hrow := h'.table.row hfind
    simp only [Option.map_some, hfind, hrow]
    rw [h'.rate, h'.burst]
    exact ⟨_, rfl, rfl, rfl, h'.maxIdentities, h'.idleTtl, h'.table.use hfind _⟩

/-- What every call keeps of the buckets: they stand in the order of their last use, none of which is
after `last`, and none is overdrawn or more than full. -/
structure Metered (limiter : RemoteRateLimiter) (last : Int) : Prop where
  rate : 0 ≤ limiter.rate
  burst : 1 ≤ limiter.burst
  room : 0 < limiter.maxIdentities
  bounded : limiter.buckets.size ≤ limiter.maxIdentities
  ordered : limiter.buckets.Ordered TokenBucket.updated
  used : ∀ r ∈ limiter.buckets.rows, r.2.updated ≤ last
  tokens : ∀ r ∈ limiter.buckets.rows, 0 ≤ r.2.tokens ∧ r.2.tokens ≤ limiter.burst

theorem Metered.use {last now : Int} {key : String} {kept : Recency String TokenBucket}
    {bucket : TokenBucket} (h : Metered limiter last) (hle : last ≤ now)
    (hkept : kept.rows.Sublist limiter.buckets.rows) (hupdated : bucket.updated = now)
    (htokens : 0 ≤ bucket.tokens ∧ bucket.tokens ≤ limiter.burst)
    (hsize : (kept.use key bucket).size ≤ limiter.maxIdentities) :
    Metered { limiter with buckets := kept.use key bucket } now where
  rate := h.rate
  burst := h.burst
  room := h.room
  bounded := hsize
  ordered := by
    refine Recency.Ordered.use (h.ordered.sublist hkept) ?_
    intro r hr _
    rw [hupdated]
    exact le_trans (h.used r (hkept.subset hr)) hle
  used := by
    intro r hr
    rcases Recency.mem_use.mp hr with ⟨hr, -⟩ | rfl
    · exact le_trans (h.used r (hkept.subset hr)) hle
    · exact le_of_eq hupdated
  tokens := by
    intro r hr
    rcases Recency.mem_use.mp hr with ⟨hr, -⟩ | rfl
    · exact h.tokens r (hkept.subset hr)
    · exact htokens

theorem spend_le (tokens : ℚ) (now : Int) : (spend tokens now).2.tokens ≤ tokens := by
  unfold spend
  split_ifs
  · exact le_refl _
  · simp

theorem Metered.allow {last now : Int} (h : Metered limiter last) (hle : last ≤ now)
    (key : String) : Metered (limiter.allow now key).2 now := by
  have hcleaned : (cleaned limiter now).rows.Sublist limiter.buckets.rows :=
    dropStale_sublist _ _ _
  have hsize := (size_allow_le h.bounded h.room now key).1
  cases hfind : (cleaned limiter now).find? key with
  | none =>
    rw [allow_new hfind] at hsize ⊢
    have hburst := h.burst
    exact h.use hle (roomMade_sublist.trans hcleaned) rfl ⟨by simpa using hburst, by simp⟩ hsize
  | some bucket =>
    rw [allow_known hfind] at hsize ⊢
    have hrow := mem_of_mem_cleaned (Recency.find?_eq_some_iff.mp hfind)
    have hrefilled : 0 ≤ refilled limiter.rate limiter.burst bucket now :=
      refilled_nonneg h.rate (le_trans zero_le_one h.burst) (h.tokens _ hrow).1
        (le_trans (h.used _ hrow) hle)
    exact h.use hle hcleaned (spend_updated _ _)
      ⟨spend_nonneg hrefilled now, le_trans (spend_le _ _) refilled_le_burst⟩ hsize

theorem metered_new {ratePerSecond : ℚ} {burst maxIdentities idleTtl : Int}
    (hnew : LimiterTable.new ratePerSecond burst maxIdentities idleTtl = some l) (now : Int) :
    ∃ limiter, l.Represents limiter ∧ Metered limiter now := by
  obtain ⟨limiter, hlimiter, rfl⟩ := Option.map_eq_some_iff.mp hnew
  obtain ⟨hrate, hburst, hroom, hempty⟩ := new_fields hlimiter
  refine ⟨limiter, ⟨rfl, rfl, rfl, rfl, ?_⟩, hrate, hburst, hroom, ?_, ?_, ?_, ?_⟩
  · rw [hempty]
    exact Linked.represents_empty
  · simp [hempty, Recency.size]
  · rw [hempty]
    exact Recency.ordered_empty _
  · simp [hempty]
  · simp [hempty]

end Limiter

section Runs

inductive TableCall where
  | replay (call : CacheCall)
  | allow (key : String)

structure Tables where
  cache : ReplayTable
  limiter : LimiterTable

/-- None where a call dereferences nil. -/
def Tables.step (s : Tables) (now : Int) : TableCall → Option Tables
  | .replay call => (s.cache.step now call).map fun cache => { s with cache }
  | .allow key => (s.limiter.allow now key).map fun answer => { s with limiter := answer.2 }

def Tables.run (s : Tables) : List (Int × TableCall) → Option Tables
  | [] => some s
  | (now, call) :: calls => (s.step now call).bind fun s' => s'.run calls

def TablesClocked (calls : List (Int × TableCall)) : Prop := calls.Pairwise fun a b => a.1 ≤ b.1

instance (calls : List (Int × TableCall)) : Decidable (TablesClocked calls) :=
  inferInstanceAs (Decidable (calls.Pairwise _))

/-- Both tables represent tables in order of use, that keep what those keep. -/
structure Kept (s : Tables) (last : Int) (maxEntries maxIdentities : ℕ) (burst : ℚ) : Prop where
  cache : ∃ cache, s.cache.Represents cache ∧ Dated last cache ∧ cache.maxEntries = maxEntries
  limiter : ∃ limiter, s.limiter.Represents limiter ∧ Metered limiter last ∧
    limiter.maxIdentities = maxIdentities ∧ limiter.burst = burst

variable {s : Tables} {last now : Int} {maxEntries maxIdentities : ℕ} {burst : ℚ}

theorem allow_burst (limiter : RemoteRateLimiter) (now : Int) (key : String) :
    (limiter.allow now key).2.burst = limiter.burst := by
  cases hfind : (cleaned limiter now).find? key with
  | none => rw [allow_new hfind]
  | some bucket => rw [allow_known hfind]

theorem Kept.step (h : Kept s last maxEntries maxIdentities burst) (hle : last ≤ now)
    (call : TableCall) :
    ∃ s', s.step now call = some s' ∧ Kept s' now maxEntries maxIdentities burst := by
  obtain ⟨cache, hcache, hdated, hmax⟩ := h.cache
  obtain ⟨limiter, hlimiter, hmetered, hroom, hburst⟩ := h.limiter
  cases call with
  | replay call =>
    obtain ⟨c', hstep, hc'⟩ := replay_step_represents hcache now call
    refine ⟨{ s with cache := c' }, by simp [Tables.step, hstep], ?_, ?_⟩
    · exact ⟨_, hc', hdated.step hle call, by rw [step_maxEntries, hmax]⟩
    · exact ⟨limiter, hlimiter, ⟨hmetered.rate, hmetered.burst, hmetered.room, hmetered.bounded,
        hmetered.ordered, fun r hr => le_trans (hmetered.used r hr) hle, hmetered.tokens⟩, hroom,
        hburst⟩
  | allow key =>
    obtain ⟨l', hallow, hl'⟩ := allow_represents hlimiter now key
    refine ⟨{ s with limiter := l' }, by simp [Tables.step, hallow], ?_, ?_⟩
    · exact ⟨cache, hcache, hdated.later hle, hmax⟩
    · refine ⟨_, hl', hmetered.allow hle key, ?_, by rw [allow_burst, hburst]⟩
      rw [(size_allow_le hmetered.bounded hmetered.room now key).2, hroom]

theorem Kept.run {calls : List (Int × TableCall)} (h : Kept s last maxEntries maxIdentities burst)
    (hclock : TablesClocked calls) (hafter : ∀ a ∈ calls, last ≤ a.1) :
    ∃ s' last', s.run calls = some s' ∧ Kept s' last' maxEntries maxIdentities burst := by
  induction calls generalizing s last with
  | nil => exact ⟨s, last, rfl, h⟩
  | cons a calls ih =>
    obtain ⟨hfirst, hrest⟩ := List.pairwise_cons.mp hclock
    obtain ⟨s', hstep, hs'⟩ := h.step (hafter a (by simp)) a.2
    obtain ⟨s'', last', hrun, hkept⟩ := ih hs' hrest hfirst
    exact ⟨s'', last', by simp [Tables.run, hstep, hrun], hkept⟩

/-- The elements of the list stand in the order in which their buckets were used last. -/
def SortedByUse (table : Linked String TokenBucket) : Prop :=
  table.order.Pairwise fun x y => ∀ a b, table.find? x.value = some a →
    table.find? y.value = some b → a.contents.updated ≤ b.contents.updated

theorem sortedByUse_of_ordered {table : Linked String TokenBucket}
    {rows : Recency String TokenBucket} (h : table.Represents rows)
    (hordered : rows.Ordered TokenBucket.updated) : SortedByUse table := by
  have hkeys : (table.order.map Element.value).Pairwise fun k k' => ∀ a b,
      table.find? k = some a → table.find? k' = some b →
        a.contents.updated ≤ b.contents.updated := by
    rw [h.order]
    refine List.Pairwise.map _ ?_ (List.Pairwise.and_mem.mp hordered)
    rintro r r' ⟨hr, hr', hle⟩ a b ha hb
    have hrow := Recency.mem_unique hr (Recency.find?_eq_some_iff.mp (h.row ha))
    have hrow' := Recency.mem_unique hr' (Recency.find?_eq_some_iff.mp (h.row hb))
    rwa [hrow, hrow'] at hle
  exact List.pairwise_map.mp hkeys

/-- Any calls of the cache and the limiter run without a nil entry. They keep maps and lists in step
and within their bounds, each clean-up finds the entry of the element in front however often it goes
round, the limiter's list is sorted by last use, and no bucket is overdrawn or more than full. -/
theorem tables_in_step (ttl : Int) (maxEntries : Option Int) (ratePerSecond : ℚ)
    (burst maxIdentities idleTtl : Int) (l : LimiterTable)
    (hnew : LimiterTable.new ratePerSecond burst maxIdentities idleTtl = some l)
    (calls : List (Int × TableCall)) (hclock : TablesClocked calls) :
    ∃ s, Tables.run ⟨.new ttl maxEntries, l⟩ calls = some s ∧
      s.cache.table.InStep ∧ s.limiter.table.InStep ∧
      s.cache.table.len ≤ (ReplayTable.new ttl maxEntries).maxEntries ∧
      s.limiter.table.len ≤ l.maxIdentities ∧
      (∀ now limit, ∃ c, s.cache.removeExpired now limit = some c ∧
        ∀ x ∈ c.table.front, (c.table.find? x.value).isSome) ∧
      (∀ now limit, ∃ l', s.limiter.removeIdle now limit = some l' ∧
        ∀ x ∈ l'.table.front, (l'.table.find? x.value).isSome) ∧
      SortedByUse s.limiter.table ∧
      ∀ key bucket, s.limiter.table.find? key = some bucket →
        0 ≤ bucket.contents.tokens ∧ bucket.contents.tokens ≤ l.burst := by
  obtain ⟨first, hfirst⟩ : ∃ first : Int, ∀ a ∈ calls, first ≤ a.1 := by
    cases calls with
    | nil => exact ⟨0, nofun⟩
    | cons a calls =>
      refine ⟨a.1, fun b hb => ?_⟩
      rcases List.mem_cons.mp hb with rfl | hb
      · exact le_refl _
      · exact (List.pairwise_cons.mp hclock).1 b hb
  obtain ⟨limiter, hlimiter, hmetered⟩ := metered_new hnew first
  have hstart : Kept ⟨.new ttl maxEntries, l⟩ first (ReplayTable.new ttl maxEntries).maxEntries
      l.maxIdentities l.burst :=
    ⟨⟨_, represents_new ttl maxEntries, dated_new ttl maxEntries first, rfl⟩,
      limiter, hlimiter, hmetered, hlimiter.maxIdentities.symm, hlimiter.burst.symm⟩
  obtain ⟨s, last, hrun, hkept⟩ := hstart.run hclock hfirst
  obtain ⟨cache, hc, hdated, hmax⟩ := hkept.cache
  obtain ⟨limiter', hl, hm, hroom, hburst⟩ := hkept.limiter
  refine ⟨s, hrun, hc.table.inStep, hl.table.inStep, ?_, ?_, ?_, ?_,
    sortedByUse_of_ordered hl.table hm.ordered, ?_⟩
  · rw [hc.table.len, ← hmax]
    exact hdated.bounded
  · rw [hl.table.len, ← hroom]
    exact hm.bounded
  · intro now limit
    obtain ⟨c', hloop, hc'⟩ := removeExpired_represents hc now limit
    exact ⟨c', hloop, fun x hx => hc'.table.found_front hx⟩
  · intro now limit
    obtain ⟨l', hloop, hl'⟩ := removeIdle_represents hl now limit
    exact ⟨l', hloop, fun x hx => hl'.table.found_front hx⟩
  · intro key bucket hbucket
    have hrow := Recency.find?_eq_some_iff.mp (hl.table.row hbucket)
    have htokens := hm.tokens _ hrow
    rwa [hburst] at htokens

def crowded : List (Int × TableCall) :=
  [(0, .replay (.begin "a" .empty)), (1, .allow "k"), (1, .allow "l"),
    (2, .replay (.begin "b" .empty)), (3, .replay (.release "a" .empty)), (4, .allow "k")]

theorem tables_in_step_crowded :
    ∃ l, LimiterTable.new 1 2 1 1 = some l ∧ TablesClocked crowded ∧
      ∃ s, Tables.run ⟨.new 10 (some 1), l⟩ crowded = some s ∧ s.cache.table.InStep ∧
        s.limiter.table.InStep := by
  refine ⟨_, rfl, by decide, ?_⟩
  obtain ⟨s, hrun, hcache, hlimiter, -⟩ :=
    tables_in_step 10 (some 1) 1 2 1 1 _ rfl crowded (by decide)
  exact ⟨s, hrun, hcache, hlimiter⟩

end Runs

end EveTrade.GatewayTables
