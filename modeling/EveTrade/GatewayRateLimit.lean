import EveTrade.RecencyList
import Mathlib.Algebra.Order.Field.Rat

set_option autoImplicit false

/-!
# The rate limiter of the gateway

One bucket of tokens for each identity, in a table of bounded size that forgets idle identities. Rate,
burst, tokens and seconds are exact here. The limiter decides as one that never forgets an identity,
as long as the table has room for the identities that are active.
-/
namespace EveTrade.GatewayRateLimit

open RecencyList

def defaultLimiterMaxIdentities : ℕ := 4096

def defaultLimiterIdleTtl : Int := 10 * 60 * 1000000000

def maxLimiterCleanupPerCall : ℕ := 32

structure TokenBucket where
  tokens : ℚ
  updated : Int
deriving DecidableEq

structure RemoteRateLimiter where
  rate : ℚ
  burst : ℚ
  maxIdentities : ℕ
  idleTtl : Int
  buckets : Recency String TokenBucket

/-- No limiter limits nothing. -/
def newBoundedRemoteRateLimiter (ratePerSecond : ℚ) (burst maxIdentities idleTtl : Int) :
    Option RemoteRateLimiter :=
  if ratePerSecond ≤ 0 ∨ burst ≤ 0 then none
  else some {
    rate := ratePerSecond
    burst := burst
    maxIdentities := if maxIdentities ≤ 0 then defaultLimiterMaxIdentities else maxIdentities.toNat
    idleTtl := if idleTtl ≤ 0 then defaultLimiterIdleTtl else idleTtl
    buckets := .empty }

def newRemoteRateLimiter (ratePerSecond : ℚ) (burst : Int) : Option RemoteRateLimiter :=
  newBoundedRemoteRateLimiter ratePerSecond burst defaultLimiterMaxIdentities defaultLimiterIdleTtl

def seconds (d : Int) : ℚ := d / 1000000000

def refilled (rate burst : ℚ) (bucket : TokenBucket) (now : Int) : ℚ :=
  min burst (bucket.tokens + seconds (now - bucket.updated) * rate)

def spend (tokens : ℚ) (now : Int) : Bool × TokenBucket :=
  if tokens < 1 then (false, ⟨tokens, now⟩) else (true, ⟨tokens - 1, now⟩)

namespace RemoteRateLimiter

variable (l : RemoteRateLimiter) (now : Int)

def removeOldest : RemoteRateLimiter := { l with buckets := l.buckets.dropFront }

def removeIdle (limit : ℕ) : RemoteRateLimiter :=
  { l with buckets := l.buckets.clean (fun bucket => l.idleTtl ≤ now - bucket.updated) limit }

def allow (key : String) : Bool × RemoteRateLimiter :=
  let l := l.removeIdle now maxLimiterCleanupPerCall
  match l.buckets.find? key with
  | none =>
    let l := if l.maxIdentities ≤ l.buckets.size then l.removeOldest else l
    (true, { l with buckets := l.buckets.use key ⟨l.burst - 1, now⟩ })
  | some bucket =>
    let spent := spend (refilled l.rate l.burst bucket now) now
    (spent.1, { l with buckets := l.buckets.use key spent.2 })

def run (l : RemoteRateLimiter) : List (Int × String) → RemoteRateLimiter
  | [] => l
  | (now, key) :: calls => run (l.allow now key).2 calls

def decisions (l : RemoteRateLimiter) : List (Int × String) → List Bool
  | [] => []
  | (now, key) :: calls => (l.allow now key).1 :: decisions (l.allow now key).2 calls

end RemoteRateLimiter

/-- A limiter that never forgets: the bucket of each key that has called. -/
structure Ideal where
  rate : ℚ
  burst : ℚ
  bucket : String → Option TokenBucket

namespace Ideal

def available (s : Ideal) (now : Int) (key : String) : ℚ :=
  match s.bucket key with
  | none => s.burst
  | some b => refilled s.rate s.burst b now

def allow (s : Ideal) (now : Int) (key : String) : Bool × Ideal :=
  let spent := spend (s.available now key) now
  (spent.1, { s with bucket := Function.update s.bucket key (some spent.2) })

def decisions (s : Ideal) : List (Int × String) → List Bool
  | [] => []
  | (now, key) :: calls => (s.allow now key).1 :: decisions (s.allow now key).2 calls

end Ideal

/-- How many of the admitted calls are of `key` and made from `lo` to `hi`. -/
def admittedWithin (key : String) (lo hi : Int) (calls : List (Int × String))
    (decisions : List Bool) : ℕ :=
  (calls.zip decisions).countP fun d =>
    decide (d.1.2 = key) && decide (lo ≤ d.1.1) && decide (d.1.1 ≤ hi) && d.2

def Clocked (calls : List (Int × String)) : Prop := calls.Pairwise fun a b => a.1 ≤ b.1

instance (calls : List (Int × String)) : Decidable (Clocked calls) :=
  inferInstanceAs (Decidable (calls.Pairwise _))

/-- The keys that called less than `ttl` before `now`. -/
def recentKeys (ttl now : Int) (seen : List (Int × String)) : Finset String :=
  ((seen.filter fun a => now - a.1 < ttl).map Prod.snd).toFinset

/-- Whenever a key without a bucket calls, fewer keys than the table has room for have called within
the idle time. -/
def NewKeysFit (l : RemoteRateLimiter) (seen : List (Int × String)) : List (Int × String) → Prop
  | [] => True
  | (now, key) :: calls =>
    (l.buckets.find? key = none → (recentKeys l.idleTtl now seen).card < l.maxIdentities) ∧
      NewKeysFit (l.allow now key).2 ((now, key) :: seen) calls

instance decidableNewKeysFit : (l : RemoteRateLimiter) → (seen calls : List (Int × String)) →
    Decidable (NewKeysFit l seen calls)
  | _, _, [] => .isTrue trivial
  | l, seen, (now, key) :: calls =>
    have := decidableNewKeysFit (l.allow now key).2 ((now, key) :: seen) calls
    inferInstanceAs (Decidable (_ ∧ _))

section Refill

theorem seconds_nonneg {d : Int} (h : 0 ≤ d) : 0 ≤ seconds d := by
  unfold seconds
  have : (0 : ℚ) ≤ d := by exact_mod_cast h
  positivity

theorem seconds_mono {d e : Int} (h : d ≤ e) : seconds d ≤ seconds e := by
  unfold seconds
  have : (d : ℚ) ≤ e := by exact_mod_cast h
  linarith

theorem seconds_add (d e : Int) : seconds (d + e) = seconds d + seconds e := by
  unfold seconds
  push_cast
  ring

variable {rate burst : ℚ} {b : TokenBucket} {now later : Int}

theorem refilled_le_burst : refilled rate burst b now ≤ burst := min_le_left _ _

theorem refilled_nonneg (hrate : 0 ≤ rate) (hburst : 0 ≤ burst) (htokens : 0 ≤ b.tokens)
    (hle : b.updated ≤ now) : 0 ≤ refilled rate burst b now := by
  have hseconds := seconds_nonneg (sub_nonneg.mpr hle)
  exact le_min hburst (by positivity)

theorem refilled_later (hrate : 0 ≤ rate) (hle : now ≤ later) :
    refilled rate burst b later ≤ refilled rate burst b now + rate * seconds (later - now) := by
  have hsplit : later - b.updated = (now - b.updated) + (later - now) := by ring
  have hgain : 0 ≤ rate * seconds (later - now) :=
    mul_nonneg hrate (seconds_nonneg (sub_nonneg.mpr hle))
  unfold refilled
  rw [hsplit, seconds_add, ← min_add_add_right]
  apply le_min
  · exact le_trans (min_le_left _ _) (by linarith)
  · exact le_trans (min_le_right _ _) (le_of_eq (by ring))

theorem refilled_idle {ttl : Int} (hrate : 0 ≤ rate) (hfill : burst ≤ rate * seconds ttl)
    (htokens : 0 ≤ b.tokens) (hidle : ttl ≤ now - b.updated) :
    refilled rate burst b now = burst := by
  apply min_eq_left
  have hmul := mul_le_mul_of_nonneg_left (seconds_mono hidle) hrate
  linarith

end Refill

section Spending

variable {s : Ideal} {last now : Int}

theorem spend_nonneg {tokens : ℚ} (h : 0 ≤ tokens) (now : Int) :
    0 ≤ (spend tokens now).2.tokens := by
  unfold spend
  split_ifs with hlt
  · exact h
  · linarith

theorem spend_updated (tokens : ℚ) (now : Int) : (spend tokens now).2.updated = now := by
  unfold spend
  split_ifs <;> rfl

/-- A limiter that never forgets, with buckets that no call has overdrawn up to `last`. -/
structure Sound (s : Ideal) (last : Int) : Prop where
  rate : 0 ≤ s.rate
  burst : 0 ≤ s.burst
  valid : ∀ key b, s.bucket key = some b → 0 ≤ b.tokens ∧ b.updated ≤ last

theorem Sound.available_nonneg (h : Sound s last) (hle : last ≤ now) (key : String) :
    0 ≤ s.available now key := by
  unfold Ideal.available
  cases hb : s.bucket key with
  | none => exact h.burst
  | some b =>
    obtain ⟨htokens, hupdated⟩ := h.valid key b hb
    exact refilled_nonneg h.rate h.burst htokens (le_trans hupdated hle)

theorem Sound.allow (h : Sound s last) (hle : last ≤ now) (key : String) :
    Sound (s.allow now key).2 now where
  rate := h.rate
  burst := h.burst
  valid := by
    intro k b hb
    by_cases hk : k = key
    · subst hk
      simp only [Ideal.allow, Function.update_self, Option.some.injEq] at hb
      subst hb
      exact ⟨spend_nonneg (h.available_nonneg hle k) now, le_of_eq (spend_updated _ _)⟩
    · simp only [Ideal.allow, Function.update_of_ne hk] at hb
      obtain ⟨htokens, hupdated⟩ := h.valid k b hb
      exact ⟨htokens, le_trans hupdated hle⟩

end Spending

section Forgetting

variable {l : RemoteRateLimiter} {now : Int} {key : String}

def cleaned (l : RemoteRateLimiter) (now : Int) : Recency String TokenBucket :=
  l.buckets.clean (fun bucket => l.idleTtl ≤ now - bucket.updated) maxLimiterCleanupPerCall

def roomMade (l : RemoteRateLimiter) (now : Int) : Recency String TokenBucket :=
  if l.maxIdentities ≤ (cleaned l now).size then (cleaned l now).dropFront else cleaned l now

theorem allow_known {bucket : TokenBucket} (h : (cleaned l now).find? key = some bucket) :
    l.allow now key =
      ((spend (refilled l.rate l.burst bucket now) now).1,
        { l with
          buckets := (cleaned l now).use key
            (spend (refilled l.rate l.burst bucket now) now).2 }) := by
  unfold cleaned at h
  simp only [RemoteRateLimiter.allow, RemoteRateLimiter.removeIdle, h]
  rfl

theorem allow_new (h : (cleaned l now).find? key = none) :
    l.allow now key =
      (true, { l with buckets := (roomMade l now).use key ⟨l.burst - 1, now⟩ }) := by
  unfold cleaned at h
  simp only [RemoteRateLimiter.allow, RemoteRateLimiter.removeIdle, h, roomMade, cleaned,
    RemoteRateLimiter.removeOldest]
  by_cases hfull : l.maxIdentities ≤
      (l.buckets.clean (fun bucket => l.idleTtl ≤ now - bucket.updated)
        maxLimiterCleanupPerCall).size
  · simp only [hfull, if_true]
  · simp only [hfull, if_false]

theorem mem_of_mem_cleaned {r : String × TokenBucket} (h : r ∈ (cleaned l now).rows) :
    r ∈ l.buckets.rows :=
  Recency.mem_of_mem_clean h

theorem mem_of_mem_roomMade {r : String × TokenBucket} (h : r ∈ (roomMade l now).rows) :
    r ∈ (cleaned l now).rows := by
  unfold roomMade at h
  split_ifs at h
  · exact List.mem_of_mem_tail h
  · exact h

/-- What the limiter has in common with one that never forgets, after the calls of `seen`, the last
of them at `last`. -/
structure Tracks (l : RemoteRateLimiter) (s : Ideal) (seen : List (Int × String)) (last : Int) :
    Prop where
  rate : s.rate = l.rate
  burst : s.burst = l.burst
  bounded : l.buckets.size ≤ l.maxIdentities
  ordered : l.buckets.Ordered TokenBucket.updated
  known : ∀ r ∈ l.buckets.rows, s.bucket r.1 = some r.2
  seen : ∀ r ∈ l.buckets.rows, (r.2.updated, r.1) ∈ seen
  valid : ∀ key b, s.bucket key = some b → 0 ≤ b.tokens ∧ b.updated ≤ last
  forgotten : ∀ key b, s.bucket key = some b → l.buckets.find? key = none →
    l.idleTtl ≤ last - b.updated

/-- The limiter refills an idle bucket to the brim. -/
structure Sized (l : RemoteRateLimiter) : Prop where
  rate : 0 ≤ l.rate
  burst : 1 ≤ l.burst
  room : 0 < l.maxIdentities
  fill : l.burst ≤ l.rate * seconds l.idleTtl

variable {s : Ideal} {seen : List (Int × String)} {last : Int}

theorem Tracks.sound (h : Tracks l s seen last) (hsized : Sized l) : Sound s last where
  rate := by
    rw [h.rate]
    exact hsized.rate
  burst := by
    rw [h.burst]
    exact le_trans zero_le_one hsized.burst
  valid := h.valid

theorem Tracks.idle_of_cleaned (h : Tracks l s seen last) (hle : last ≤ now) {key : String}
    {b : TokenBucket} (hb : s.bucket key = some b) (hfind : (cleaned l now).find? key = none) :
    l.idleTtl ≤ now - b.updated := by
  cases hknown : l.buckets.find? key with
  | none =>
    have := h.forgotten key b hb hknown
    omega
  | some bucket =>
    have hmem := Recency.find?_eq_some_iff.mp hknown
    have hsame : s.bucket key = some bucket := h.known _ hmem
    rw [hb] at hsame
    cases hsame
    by_contra hnot
    have hkept : (key, b) ∈ (cleaned l now).rows := Recency.mem_clean hmem (by simpa using hnot)
    exact Recency.find?_eq_none_iff.mp hfind b hkept

theorem Tracks.front_idle (h : Tracks l s seen last)
    (hfew : (recentKeys l.idleTtl now seen).card < l.maxIdentities)
    (hfull : l.maxIdentities ≤ (cleaned l now).size) :
    ∀ r ∈ (cleaned l now).front?, l.idleTtl ≤ now - r.2.updated := by
  intro r hr
  by_contra hnot
  have hrecent : ∀ q ∈ (cleaned l now).rows, q.1 ∈ recentKeys l.idleTtl now seen := by
    intro q hq
    obtain ⟨first, hfirst, hle⟩ := Recency.Ordered.front_le (h.ordered.clean _ _) hq
    have hsame : first = r := Option.some.inj (hfirst.symm.trans hr)
    rw [hsame] at hle
    have hseen := h.seen q (mem_of_mem_cleaned hq)
    refine List.mem_toFinset.mpr (List.mem_map.mpr ⟨_, List.mem_filter.mpr ⟨hseen, ?_⟩, rfl⟩)
    simp only [decide_eq_true_eq]
    omega
  have hsub : ((cleaned l now).rows.map Prod.fst).toFinset ⊆ recentKeys l.idleTtl now seen := by
    intro k hk
    obtain ⟨q, hq, rfl⟩ := List.mem_map.mp (List.mem_toFinset.mp hk)
    exact hrecent q hq
  have hcard := Finset.card_le_card hsub
  rw [List.toFinset_card_of_nodup (cleaned l now).nodup, List.length_map] at hcard
  unfold Recency.size at hfull
  omega

theorem Tracks.available_known (h : Tracks l s seen last) {bucket : TokenBucket}
    (hfind : (cleaned l now).find? key = some bucket) :
    s.available now key = refilled l.rate l.burst bucket now := by
  have hknown := h.known _ (mem_of_mem_cleaned (Recency.find?_eq_some_iff.mp hfind))
  simp only [Ideal.available, hknown, h.rate, h.burst]

theorem Tracks.available_new (h : Tracks l s seen last) (hsized : Sized l) (hle : last ≤ now)
    (hfind : (cleaned l now).find? key = none) : s.available now key = l.burst := by
  unfold Ideal.available
  cases hb : s.bucket key with
  | none => exact h.burst
  | some b =>
    simp only [h.rate, h.burst]
    exact refilled_idle hsized.rate hsized.fill (h.valid key b hb).1
      (h.idle_of_cleaned hle hb hfind)

theorem spend_burst (h : 1 ≤ l.burst) (now : Int) :
    spend l.burst now = (true, ⟨l.burst - 1, now⟩) := by
  simp [spend, not_lt.mpr h]

theorem Tracks.enter (h : Tracks l s seen last) (hsized : Sized l) (hle : last ≤ now)
    {kept : Recency String TokenBucket} (hsub : kept.rows.Sublist l.buckets.rows)
    (hidle : ∀ r ∈ l.buckets.rows, r ∉ kept.rows → r.1 ≠ key → l.idleTtl ≤ now - r.2.updated)
    (hroom : (kept.use key (spend (s.available now key) now).2).size ≤ l.maxIdentities) :
    Tracks { l with buckets := kept.use key (spend (s.available now key) now).2 }
      (s.allow now key).2 ((now, key) :: seen) now where
  rate := h.rate
  burst := h.burst
  bounded := hroom
  ordered := by
    have hkept : kept.Ordered TokenBucket.updated := h.ordered.sublist hsub
    apply hkept.use
    intro r hr _
    rw [spend_updated]
    exact le_trans (h.valid r.1 r.2 (h.known r (hsub.subset hr))).2 hle
  known := by
    intro r hr
    rcases Recency.mem_use.mp hr with ⟨hr, hne⟩ | rfl
    · simp only [Ideal.allow, Function.update_of_ne hne]
      exact h.known r (hsub.subset hr)
    · simp [Ideal.allow]
  seen := by
    intro r hr
    rcases Recency.mem_use.mp hr with ⟨hr, -⟩ | rfl
    · exact List.mem_cons_of_mem _ (h.seen r (hsub.subset hr))
    · rw [spend_updated]
      exact List.mem_cons_self
  valid := ((h.sound hsized).allow hle key).valid
  forgotten := by
    intro k b hb hfind
    rw [Recency.find?_eq_none_iff] at hfind
    have hk : k ≠ key := by
      rintro rfl
      exact hfind _ (Recency.mem_use.mpr (.inr rfl))
    simp only [Ideal.allow, Function.update_of_ne hk] at hb
    cases hknown : l.buckets.find? k with
    | none =>
      have := h.forgotten k b hb hknown
      change l.idleTtl ≤ now - b.updated
      omega
    | some bucket =>
      have hmem := Recency.find?_eq_some_iff.mp hknown
      have hsame := h.known _ hmem
      rw [hb] at hsame
      cases hsame
      refine hidle _ hmem ?_ hk
      intro hkept
      exact hfind bucket (Recency.mem_use.mpr (.inl ⟨hkept, hk⟩))

theorem roomMade_sublist : (roomMade l now).rows.Sublist (cleaned l now).rows := by
  unfold roomMade
  split_ifs
  · exact List.tail_sublist _
  · exact List.Sublist.refl _

theorem size_roomMade (hbounded : l.buckets.size ≤ l.maxIdentities) (hpos : 0 < l.maxIdentities) :
    (roomMade l now).size < l.maxIdentities := by
  have hle : (cleaned l now).size ≤ l.buckets.size := Recency.size_clean_le _ _ _
  unfold roomMade
  split_ifs with hfull
  · have hlen : ((cleaned l now).dropFront).size = (cleaned l now).size - 1 := by
      simp [Recency.size, Recency.dropFront]
    omega
  · omega

theorem evicted_front {r : String × TokenBucket} (hr : r ∈ (cleaned l now).rows)
    (hnot : r ∉ (roomMade l now).rows) :
    l.maxIdentities ≤ (cleaned l now).size ∧ r ∈ (cleaned l now).front? := by
  unfold roomMade at hnot
  split_ifs at hnot with hfull
  · refine ⟨hfull, ?_⟩
    unfold Recency.dropFront at hnot
    unfold Recency.front?
    cases hrows : (cleaned l now).rows with
    | nil => simp [hrows] at hr
    | cons first rest =>
      simp only [hrows, List.tail_cons] at hnot
      rw [hrows] at hr
      simpa [hnot, eq_comm] using hr
  · exact absurd hr hnot

theorem find?_of_cleaned_full (hbounded : l.buckets.size ≤ l.maxIdentities)
    (hfull : l.maxIdentities ≤ (cleaned l now).size)
    (hfind : (cleaned l now).find? key = none) : l.buckets.find? key = none := by
  have hsub : (cleaned l now).rows.Sublist l.buckets.rows := dropStale_sublist _ _ _
  have hsame : (cleaned l now).rows = l.buckets.rows :=
    hsub.eq_of_length_le (le_trans hbounded hfull)
  rw [Recency.find?_eq_none_iff] at hfind ⊢
  rwa [← hsame]

theorem Tracks.allow (h : Tracks l s seen last) (hsized : Sized l) (hle : last ≤ now)
    (hfew : l.buckets.find? key = none →
      (recentKeys l.idleTtl now seen).card < l.maxIdentities) :
    (l.allow now key).1 = (s.allow now key).1 ∧
      Tracks (l.allow now key).2 (s.allow now key).2 ((now, key) :: seen) now := by
  have hcleaned : (cleaned l now).rows.Sublist l.buckets.rows := dropStale_sublist _ _ _
  have hidle : ∀ r ∈ l.buckets.rows, r ∉ (cleaned l now).rows →
      l.idleTtl ≤ now - r.2.updated := by
    intro r hr hnot
    by_contra hfresh
    exact hnot (Recency.mem_clean hr (by simpa using hfresh))
  cases hfind : (cleaned l now).find? key with
  | some bucket =>
    rw [allow_known hfind, ← h.available_known hfind]
    refine ⟨rfl, h.enter hsized hle hcleaned (fun r hr hnot _ => hidle r hr hnot) ?_⟩
    rw [Recency.size_use_old hfind]
    exact le_trans (Recency.size_clean_le _ _ _) h.bounded
  | none =>
    have havailable := h.available_new hsized hle hfind
    have hspent := spend_burst hsized.burst now
    have hnew : (roomMade l now).find? key = none := by
      rw [Recency.find?_eq_none_iff] at hfind ⊢
      intro b hb
      exact hfind b (mem_of_mem_roomMade hb)
    rw [allow_new hfind]
    refine ⟨?_, ?_⟩
    · simp only [Ideal.allow, havailable, hspent]
    · have hbucket : (⟨l.burst - 1, now⟩ : TokenBucket) = (spend (s.available now key) now).2 := by
        rw [havailable, hspent]
      rw [hbucket]
      refine h.enter hsized hle (roomMade_sublist.trans hcleaned) ?_ ?_
      · intro r hr hnot hne
        by_cases hkept : r ∈ (cleaned l now).rows
        · obtain ⟨hfull, hfront⟩ := evicted_front hkept hnot
          have hunknown := find?_of_cleaned_full h.bounded hfull hfind
          exact h.front_idle (hfew hunknown) hfull r hfront
        · exact hidle r hr hkept
      · rw [Recency.size_use_new hnew]
        exact size_roomMade h.bounded hsized.room

theorem Sized.allow (h : Sized l) (now : Int) (key : String) : Sized (l.allow now key).2 := by
  cases hfind : (cleaned l now).find? key with
  | none =>
    rw [allow_new hfind]
    exact ⟨h.rate, h.burst, h.room, h.fill⟩
  | some bucket =>
    rw [allow_known hfind]
    exact ⟨h.rate, h.burst, h.room, h.fill⟩

theorem Tracks.decisions {calls : List (Int × String)} (h : Tracks l s seen last)
    (hsized : Sized l) (hclock : Clocked calls) (hlast : ∀ a ∈ calls, last ≤ a.1)
    (hfit : NewKeysFit l seen calls) : l.decisions calls = s.decisions calls := by
  induction calls generalizing l s seen last with
  | nil => rfl
  | cons a calls ih =>
    obtain ⟨hfew, hrest⟩ := hfit
    obtain ⟨hfirst, hclock⟩ := List.pairwise_cons.mp hclock
    obtain ⟨hsame, htracks⟩ := h.allow hsized (hlast a List.mem_cons_self) hfew
    simp only [RemoteRateLimiter.decisions, Ideal.decisions]
    rw [hsame, ih htracks (hsized.allow a.1 a.2) hclock hfirst hrest]

end Forgetting

section Windows

variable {s : Ideal} {key : String} {lo hi last now : Int} {calls : List (Int × String)}

theorem available_le_burst (s : Ideal) (now : Int) (key : String) :
    s.available now key ≤ s.burst := by
  unfold Ideal.available
  cases s.bucket key with
  | none => exact le_refl _
  | some b => exact refilled_le_burst

theorem available_later (hrate : 0 ≤ s.rate) {later : Int} (hle : now ≤ later) (key : String) :
    s.available later key ≤ s.available now key + s.rate * seconds (later - now) := by
  unfold Ideal.available
  cases s.bucket key with
  | none =>
    have hgain := mul_nonneg hrate (seconds_nonneg (sub_nonneg.mpr hle))
    exact le_add_of_nonneg_right hgain
  | some b => exact refilled_later hrate hle

theorem available_allow_other {k : String} (hk : key ≠ k) (t : Int) :
    (s.allow now k).2.available t key = s.available t key := by
  simp only [Ideal.available, Ideal.allow, Function.update_of_ne hk]

theorem spend_tokens (tokens : ℚ) (now : Int) :
    (if (spend tokens now).1 then 1 else 0) + (spend tokens now).2.tokens = tokens := by
  by_cases h : tokens < 1
  · simp [spend, h]
  · simp [spend, h]

theorem available_allow (s : Ideal) (now : Int) (key : String) :
    (if (s.allow now key).1 then 1 else 0) + (s.allow now key).2.available now key ≤
      s.available now key := by
  have hzero : seconds (now - now) = 0 := by simp [seconds]
  have hleft : (s.allow now key).2.available now key ≤
      (spend (s.available now key) now).2.tokens := by
    simp only [Ideal.available, Ideal.allow, Function.update_self, refilled, spend_updated, hzero]
    exact le_trans (min_le_right _ _) (by simp)
  have hspent := spend_tokens (s.available now key) now
  calc (if (s.allow now key).1 then (1 : ℚ) else 0) + (s.allow now key).2.available now key
      ≤ (if (s.allow now key).1 then 1 else 0) + (spend (s.available now key) now).2.tokens := by
        gcongr
    _ = s.available now key := hspent

theorem admittedWithin_cons (s : Ideal) (now : Int) (k : String) :
    admittedWithin key lo hi ((now, k) :: calls) (s.decisions ((now, k) :: calls)) =
      (if k = key ∧ lo ≤ now ∧ now ≤ hi ∧ (s.allow now k).1 then 1 else 0) +
        admittedWithin key lo hi calls ((s.allow now k).2.decisions calls) := by
  simp only [admittedWithin, Ideal.decisions, List.zip_cons_cons, List.countP_cons]
  rw [Nat.add_comm]
  congr 1
  simp [and_assoc]

theorem admittedWithin_after (hlate : ∀ a ∈ calls, hi < a.1) (decisions : List Bool) :
    admittedWithin key lo hi calls decisions = 0 := by
  apply List.countP_eq_zero.mpr
  intro d hd
  have hlt := hlate d.1 (List.of_mem_zip hd).1
  simp [not_le.mpr hlt]

/-- From `lo` on, a key is admitted for the tokens that it has and those that the rate adds. -/
theorem Sound.admitted_le (h : Sound s last) (hlo : last ≤ lo) (hclock : Clocked calls)
    (hfrom : ∀ a ∈ calls, lo ≤ a.1) (hle : lo ≤ hi) (key : String) (bound : Int)
    (hbound : bound ≤ lo) :
    (admittedWithin key bound hi calls (s.decisions calls) : ℚ) ≤
      s.available lo key + s.rate * seconds (hi - lo) := by
  induction calls generalizing s last lo with
  | nil =>
    have hgain := mul_nonneg h.rate (seconds_nonneg (sub_nonneg.mpr hle))
    have := h.available_nonneg hlo key
    simpa [admittedWithin] using add_nonneg this hgain
  | cons a calls ih =>
    obtain ⟨now, k⟩ := a
    obtain ⟨hfirst, hclock⟩ := List.pairwise_cons.mp hclock
    have hnow : lo ≤ now := hfrom _ List.mem_cons_self
    by_cases hhi : now ≤ hi
    · have hsound := h.allow (le_trans hlo hnow) k
      have hrest := ih hsound (le_refl now) hclock hfirst hhi (le_trans hbound hnow)
      have hrate : (s.allow now k).2.rate = s.rate := rfl
      have hsplit : seconds (hi - lo) = seconds (hi - now) + seconds (now - lo) := by
        rw [← seconds_add]
        congr 1
        ring
      have hlater := available_later h.rate hnow key
      rw [admittedWithin_cons, hsplit]
      push_cast
      rw [hrate] at hrest
      by_cases hk : k = key
      · subst hk
        have hspent := available_allow s now k
        simp only [true_and, le_trans hbound hnow, hhi]
        linarith
      · rw [available_allow_other (Ne.symm hk)] at hrest
        simp only [hk, false_and, if_false]
        linarith
    · have hlate : ∀ a ∈ (now, k) :: calls, hi < a.1 := by
        intro a ha
        rcases List.mem_cons.mp ha with rfl | ha
        · exact lt_of_not_ge hhi
        · exact lt_of_lt_of_le (lt_of_not_ge hhi) (hfirst a ha)
      rw [admittedWithin_after hlate]
      have hgain := mul_nonneg h.rate (seconds_nonneg (sub_nonneg.mpr hle))
      have := h.available_nonneg hlo key
      simpa using add_nonneg this hgain

theorem Sound.window (h : Sound s last) (hlo : last ≤ lo) (hclock : Clocked calls)
    (hlast : ∀ a ∈ calls, last ≤ a.1) (hle : lo ≤ hi) (key : String) :
    (admittedWithin key lo hi calls (s.decisions calls) : ℚ) ≤
      s.burst + s.rate * seconds (hi - lo) := by
  induction calls generalizing s last with
  | nil =>
    have hgain := mul_nonneg h.rate (seconds_nonneg (sub_nonneg.mpr hle))
    simpa [admittedWithin] using add_nonneg h.burst hgain
  | cons a calls ih =>
    obtain ⟨now, k⟩ := a
    obtain ⟨hfirst, hrest⟩ := List.pairwise_cons.mp hclock
    have hnow : last ≤ now := hlast _ List.mem_cons_self
    by_cases hin : lo ≤ now
    · have hfrom : ∀ a ∈ (now, k) :: calls, lo ≤ a.1 := by
        intro a ha
        rcases List.mem_cons.mp ha with rfl | ha
        · exact hin
        · exact le_trans hin (hfirst a ha)
      have hadmitted := h.admitted_le hlo hclock hfrom hle key lo (le_refl lo)
      have hburst := available_le_burst s lo key
      linarith
    · rw [admittedWithin_cons]
      simp only [hin, false_and, and_false, if_false, Nat.zero_add]
      exact ih (h.allow hnow k) (le_of_not_ge hin) hrest hfirst

end Windows

section Limiter

variable {l : RemoteRateLimiter}

theorem size_allow_le (hbounded : l.buckets.size ≤ l.maxIdentities) (hpos : 0 < l.maxIdentities)
    (now : Int) (key : String) :
    (l.allow now key).2.buckets.size ≤ (l.allow now key).2.maxIdentities ∧
      (l.allow now key).2.maxIdentities = l.maxIdentities := by
  cases hfind : (cleaned l now).find? key with
  | none =>
    have hnew : (roomMade l now).find? key = none := by
      rw [Recency.find?_eq_none_iff] at hfind ⊢
      intro b hb
      exact hfind b (mem_of_mem_roomMade hb)
    rw [allow_new hfind]
    refine ⟨?_, rfl⟩
    simp only [Recency.size_use_new hnew]
    exact size_roomMade hbounded hpos
  | some bucket =>
    rw [allow_known hfind]
    refine ⟨?_, rfl⟩
    simp only [Recency.size_use_old hfind]
    exact le_trans (Recency.size_clean_le _ _ _) hbounded

theorem size_run_le (hbounded : l.buckets.size ≤ l.maxIdentities) (hpos : 0 < l.maxIdentities)
    (calls : List (Int × String)) : (l.run calls).buckets.size ≤ l.maxIdentities := by
  induction calls generalizing l with
  | nil => exact hbounded
  | cons a calls ih =>
    obtain ⟨hsize, hmax⟩ := size_allow_le hbounded hpos a.1 a.2
    have hrest := ih hsize (by rwa [hmax])
    rwa [hmax] at hrest

theorem new_fields {ratePerSecond : ℚ} {burst maxIdentities idleTtl : Int}
    (h : newBoundedRemoteRateLimiter ratePerSecond burst maxIdentities idleTtl = some l) :
    0 ≤ l.rate ∧ 1 ≤ l.burst ∧ 0 < l.maxIdentities ∧ l.buckets = .empty := by
  unfold newBoundedRemoteRateLimiter at h
  by_cases hnil : ratePerSecond ≤ 0 ∨ burst ≤ 0
  · simp [hnil] at h
  · simp only [hnil, if_false, Option.some.injEq] at h
    subst h
    simp only [not_or, not_le] at hnil
    obtain ⟨hrate, hburst⟩ := hnil
    have hone : (1 : ℚ) ≤ burst := by exact_mod_cast hburst
    refine ⟨le_of_lt hrate, hone, ?_, rfl⟩
    by_cases hmax : maxIdentities ≤ 0
    · simp [hmax, defaultLimiterMaxIdentities]
    · simp only [hmax, if_false]
      omega

def Ideal.new (rate burst : ℚ) : Ideal := ⟨rate, burst, fun _ => none⟩

theorem exists_first (calls : List (Int × String)) (hclock : Clocked calls) (t : Int) :
    ∃ first, first ≤ t ∧ ∀ a ∈ calls, first ≤ a.1 := by
  cases calls with
  | nil => exact ⟨t, le_refl t, by simp⟩
  | cons a calls =>
    refine ⟨min t a.1, min_le_left _ _, ?_⟩
    intro b hb
    rcases List.mem_cons.mp hb with rfl | hb
    · exact min_le_right _ _
    · exact le_trans (min_le_right _ _) ((List.pairwise_cons.mp hclock).1 b hb)

/-- With a table that has room for the keys of one idle time, and idle times in which a bucket fills
up, the limiter decides every call as the one that never forgets. So no key is admitted more often in
a window than its burst and the rate allow. -/
theorem limiter_decides_as_ideal (ratePerSecond : ℚ) (burst maxIdentities idleTtl : Int)
    (l : RemoteRateLimiter)
    (hl : newBoundedRemoteRateLimiter ratePerSecond burst maxIdentities idleTtl = some l)
    (hfill : l.burst ≤ l.rate * seconds l.idleTtl) (calls : List (Int × String))
    (hclock : Clocked calls) (hfit : NewKeysFit l [] calls) :
    l.decisions calls = (Ideal.new l.rate l.burst).decisions calls ∧
      (∀ key start T, 0 ≤ T →
        (admittedWithin key start (start + T) calls (l.decisions calls) : ℚ) ≤
          l.burst + l.rate * seconds T) ∧
      ∀ p, p <+: calls → (l.run p).buckets.size ≤ l.maxIdentities := by
  obtain ⟨hrate, hburst, hroom, hempty⟩ := new_fields hl
  have hbounded : l.buckets.size ≤ l.maxIdentities := by
    rw [hempty]
    exact Nat.zero_le _
  have hsound : ∀ t, Sound (Ideal.new l.rate l.burst) t := fun t =>
    ⟨hrate, le_trans zero_le_one hburst, fun _ _ hb => nomatch hb⟩
  have htracks : ∀ t, Tracks l (Ideal.new l.rate l.burst) [] t := fun t => {
    rate := rfl
    burst := rfl
    bounded := hbounded
    ordered := by
      rw [hempty]
      exact Recency.ordered_empty _
    known := by simp [hempty]
    seen := by simp [hempty]
    valid := fun _ _ hb => nomatch hb
    forgotten := fun _ _ hb => nomatch hb }
  obtain ⟨first, -, hfirst⟩ := exists_first calls hclock 0
  have hsame := (htracks first).decisions ⟨hrate, hburst, hroom, hfill⟩ hclock hfirst hfit
  refine ⟨hsame, ?_, ?_⟩
  · intro key start T hT
    obtain ⟨first, hstart, hfirst⟩ := exists_first calls hclock start
    have hwindow := (hsound first).window hstart hclock hfirst (le_add_of_nonneg_right hT) key
    rw [add_sub_cancel_left] at hwindow
    rw [hsame]
    exact hwindow
  · intro p _
    exact size_run_le hbounded hroom p

/-- Two calls a second, three in a burst, room for two identities that are idle after two seconds. -/
def smallLimiter : RemoteRateLimiter where
  rate := 2
  burst := 3
  maxIdentities := 2
  idleTtl := 2000000000
  buckets := .empty

/-- The third key calls when the first has been idle for long enough. -/
def smallTraffic : List (Int × String) :=
  [(0, "a"), (500000000, "b"), (600000000, "b"), (2500000000, "c"), (2600000000, "b")]

theorem limiter_decides_as_ideal_small :
    newBoundedRemoteRateLimiter 2 3 2 2000000000 = some smallLimiter ∧
      smallLimiter.decisions smallTraffic = (Ideal.new 2 3).decisions smallTraffic :=
  ⟨rfl, (limiter_decides_as_ideal 2 3 2 2000000000 smallLimiter rfl
    (by norm_num [smallLimiter, seconds]) smallTraffic (by decide)
    (by decide +kernel)).1⟩

end Limiter

end EveTrade.GatewayRateLimit
