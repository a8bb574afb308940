import Mathlib.Logic.Function.Basic
import Mathlib.Tactic

set_option autoImplicit false

/-!
# The first callers of the market

The handler of the market is made by the first call that needs it. Callers that arrive while one of
them makes it wait on a channel, and enter the race again when that attempt has ended. A step is a
mutex or channel operation together with what the caller does on its own before it.
-/
namespace EveTrade.MarketInitialization

/-- A handler and the attempt that allocated it: two attempts never make the same one. -/
structure MarketHandler (P R : Type) where
  attempt : ℕ
  settlement : P
  trades : R
deriving DecidableEq

/-- The handler or the error, and the repository that is closed again. -/
def initializeDefaultMarketHandler {E P R : Type} (attempt : ℕ) (repo : Except E R)
    (publisher : Except E P) : Except E (MarketHandler P R) × Option R :=
  match repo with
  | .error err => (.error err, none)
  | .ok repo =>
    match publisher with
    | .error err => (.error err, some repo)
    | .ok publisher => (.ok ⟨attempt, publisher, repo⟩, none)

/-- A call fails with the error of an attempt, or with the one of its context. -/
inductive CallError (E : Type) where
  | attempt (err : E)
  | cancelled
deriving DecidableEq

/-- Where a caller stands. The attempts are numbered as their channels are made. -/
inductive Place (E P R : Type) where
  | start
  | looking
  | waiting (initializing : ℕ)
  | running (initializing : ℕ)
  | ending (initializing : ℕ) (result : Except E (MarketHandler P R))
  | storing (initializing : ℕ) (result : Except E (MarketHandler P R))
  | leaving (result : Except E (MarketHandler P R))
  | returned (result : Except (CallError E) (MarketHandler P R))

/-- The fields of `defaultState`, with its mutex, the channels and the callers. -/
structure State (C E P R : Type) where
  mu : Option C
  initializing : Option ℕ
  handler : Option (MarketHandler P R)
  err : Option E
  attempts : ℕ
  closed : ℕ → Bool
  closedRepos : List R
  cancelled : C → Bool
  place : C → Place E P R

inductive Event (C E P R : Type) where
  | lock (c : C)
  | unlock (c : C)
  | close (c : C)
  | wake (c : C)
  | giveUp (c : C)
  | finish (c : C) (repo : Except E R) (publisher : Except E P)
  | cancel (c : C)

def Event.own {C E P R : Type} : Event C E P R → Bool
  | .finish _ _ _ => false
  | .cancel _ => false
  | _ => true

namespace Place

variable {E P R : Type}

def holds : Place E P R → Bool
  | .looking => true
  | .storing _ _ => true
  | .leaving _ => true
  | _ => false

def attempt : Place E P R → Option ℕ
  | .running ch => some ch
  | .ending ch _ => some ch
  | .storing ch _ => some ch
  | _ => none

def attempted : Place E P R → Option (Except E (MarketHandler P R))
  | .ending _ result => some result
  | .storing _ result => some result
  | .leaving result => some result
  | .returned (.ok h) => some (.ok h)
  | .returned (.error (.attempt err)) => some (.error err)
  | _ => none

def coming : Place E P R → Option (MarketHandler P R)
  | .ending _ (.ok h) => some h
  | .storing _ (.ok h) => some h
  | _ => none

def answer : Place E P R → Option (MarketHandler P R)
  | .leaving (.ok h) => some h
  | .returned (.ok h) => some h
  | _ => none

end Place

section Steps

variable {C E P R : Type} [DecidableEq C]
variable {e : Event C E P R}

namespace State

def start : State C E P R where
  mu := none
  initializing := none
  handler := none
  err := none
  attempts := 0
  closed := fun _ => false
  closedRepos := []
  cancelled := fun _ => false
  place := fun _ => .start

def goto (s : State C E P R) (c : C) (place : Place E P R) : State C E P R :=
  { s with place := Function.update s.place c place }

def look (s : State C E P R) (c : C) : State C E P R :=
  match s.handler with
  | some handler => { s with mu := none }.goto c (.returned (.ok handler))
  | none =>
    match s.initializing with
    | some initializing => { s with mu := none }.goto c (.waiting initializing)
    | none =>
      { s with mu := none, initializing := some s.attempts, attempts := s.attempts + 1 }.goto c
        (.running s.attempts)

def store (s : State C E P R) (c : C) (initializing : ℕ)
    (result : Except E (MarketHandler P R)) : State C E P R :=
  let s := match result with
    | .ok handler => { s with handler := some handler, err := none }
    | .error err => { s with err := some err }
  { s with
    initializing := none
    closed := Function.update s.closed initializing true }.goto c (.leaving result)

def step (s : State C E P R) : Event C E P R → Option (State C E P R)
  | .lock c =>
    if s.mu.isSome then none
    else match s.place c with
      | .start => some ({ s with mu := some c }.goto c .looking)
      | .ending ch result => some ({ s with mu := some c }.goto c (.storing ch result))
      | _ => none
  | .unlock c =>
    match s.place c with
    | .looking => some (s.look c)
    | .leaving result => some ({ s with mu := none }.goto c (.returned (result.mapError .attempt)))
    | _ => none
  | .close c =>
    match s.place c with
    | .storing ch result => some (s.store c ch result)
    | _ => none
  | .wake c =>
    match s.place c with
    | .waiting ch => if s.closed ch then some (s.goto c .start) else none
    | _ => none
  | .giveUp c =>
    match s.place c with
    | .waiting _ =>
      if s.cancelled c then some (s.goto c (.returned (.error .cancelled))) else none
    | _ => none
  | .finish c repo publisher =>
    match s.place c with
    | .running ch =>
      let made := initializeDefaultMarketHandler ch repo publisher
      some ({ s with closedRepos := made.2.toList ++ s.closedRepos }.goto c (.ending ch made.1))
    | _ => none
  | .cancel c => some { s with cancelled := Function.update s.cancelled c true }

def run (s : State C E P R) : List (Event C E P R) → Option (State C E P R)
  | [] => some s
  | e :: events => (s.step e).bind fun s' => s'.run events

end State

/-- What a step can do. -/
inductive Moves (s : State C E P R) : Event C E P R → State C E P R → Prop where
  | enter (c : C) (free : s.mu = none) (here : s.place c = .start) :
      Moves s (.lock c) ({ s with mu := some c }.goto c .looking)
  | back (c : C) (ch : ℕ) (result : Except E (MarketHandler P R)) (free : s.mu = none)
      (here : s.place c = .ending ch result) :
      Moves s (.lock c) ({ s with mu := some c }.goto c (.storing ch result))
  | found (c : C) (h : MarketHandler P R) (here : s.place c = .looking)
      (handler : s.handler = some h) :
      Moves s (.unlock c) ({ s with mu := none }.goto c (.returned (.ok h)))
  | join (c : C) (ch : ℕ) (here : s.place c = .looking) (handler : s.handler = none)
      (initializing : s.initializing = some ch) :
      Moves s (.unlock c) ({ s with mu := none }.goto c (.waiting ch))
  | begin (c : C) (here : s.place c = .looking) (handler : s.handler = none)
      (initializing : s.initializing = none) :
      Moves s (.unlock c)
        ({ s with
          mu := none
          initializing := some s.attempts
          attempts := s.attempts + 1 }.goto c (.running s.attempts))
  | leave (c : C) (result : Except E (MarketHandler P R)) (here : s.place c = .leaving result) :
      Moves s (.unlock c) ({ s with mu := none }.goto c (.returned (result.mapError .attempt)))
  | close (c : C) (ch : ℕ) (result : Except E (MarketHandler P R))
      (here : s.place c = .storing ch result) : Moves s (.close c) (s.store c ch result)
  | wake (c : C) (ch : ℕ) (here : s.place c = .waiting ch) (closed : s.closed ch = true) :
      Moves s (.wake c) (s.goto c .start)
  | giveUp (c : C) (ch : ℕ) (here : s.place c = .waiting ch) (cancelled : s.cancelled c = true) :
      Moves s (.giveUp c) (s.goto c (.returned (.error .cancelled)))
  | finish (c : C) (ch : ℕ) (repo : Except E R) (publisher : Except E P)
      (here : s.place c = .running ch) :
      Moves s (.finish c repo publisher)
        ({ s with
          closedRepos := (initializeDefaultMarketHandler ch repo publisher).2.toList ++
            s.closedRepos }.goto c
          (.ending ch (initializeDefaultMarketHandler ch repo publisher).1))
  | cancel (c : C) :
      Moves s (.cancel c) { s with cancelled := Function.update s.cancelled c true }

theorem moves_of_step {s s' : State C E P R} (h : s.step e = some s') :
    Moves s e s' := by
  cases e with
  | lock c =>
    simp only [State.step] at h
    split_ifs at h with hmu
    have hfree : s.mu = none := by simpa using hmu
    split at h
    · cases h
      exact .enter c hfree ‹_›
    · cases h
      exact .back c _ _ hfree ‹_›
    · cases h
  | unlock c =>
    simp only [State.step] at h
    split at h
    · cases h
      unfold State.look
      split
      · exact .found c _ ‹_› ‹_›
      · split
        · exact .join c _ ‹_› ‹_› ‹_›
        · exact .begin c ‹_› ‹_› ‹_›
    · cases h
      exact .leave c _ ‹_›
    · cases h
  | close c =>
    simp only [State.step] at h
    split at h
    · cases h
      exact .close c _ _ ‹_›
    · cases h
  | wake c =>
    simp only [State.step] at h
    split at h
    · split_ifs at h with hclosed
      cases h
      exact .wake c _ ‹_› hclosed
    · cases h
  | giveUp c =>
    simp only [State.step] at h
    split at h
    · split_ifs at h with hcancelled
      cases h
      exact .giveUp c _ ‹_› hcancelled
    · cases h
  | finish c repo publisher =>
    simp only [State.step] at h
    split at h
    · cases h
      exact .finish c _ repo publisher ‹_›
    · cases h
  | cancel c =>
    cases h
    exact .cancel c

/-- How the callers and the shared state hang together. -/
structure Inv (s : State C E P R) : Prop where
  holder : ∀ c, s.mu = some c ↔ (s.place c).holds = true
  flying : ∀ c ch, (s.place c).attempt = some ch → s.initializing = some ch ∧ s.handler = none
  single : ∀ c d ch ch', (s.place c).attempt = some ch → (s.place d).attempt = some ch' → c = d
  flown : ∀ ch, s.initializing = some ch → ∃ c, (s.place c).attempt = some ch
  waiting : ∀ c ch, s.place c = .waiting ch → s.closed ch = true ∨ s.initializing = some ch
  answers : ∀ c h, (s.place c).answer = some h → s.handler = some h

omit [DecidableEq C] in
theorem inv_start : Inv (State.start : State C E P R) := by
  constructor <;> simp [State.start, Place.holds, Place.attempt, Place.answer]

section Mutex

variable {s : State C E P R} {c : C} {place : Place E P R}

theorem holder_lock (h : Inv s) (hfree : s.mu = none) (hplace : place.holds = true) (d : C) :
    some c = some d ↔ (Function.update s.place c place d).holds = true := by
  by_cases hd : d = c
  · simp [hd, hplace]
  · have hout : ¬(s.place d).holds = true := fun hin => by
      have := (h.holder d).mpr hin
      simp [hfree] at this
    simp [Function.update_of_ne hd, hout, Ne.symm hd]

theorem holder_unlock (h : Inv s) (hin : (s.place c).holds = true) (hplace : place.holds = false)
    (d : C) : none = some d ↔ (Function.update s.place c place d).holds = true := by
  by_cases hd : d = c
  · simp [hd, hplace]
  · have hout : ¬(s.place d).holds = true := fun hdin => by
      have hc := (h.holder c).mpr hin
      rw [(h.holder d).mpr hdin] at hc
      exact hd (Option.some.inj hc)
    simp [Function.update_of_ne hd, hout]

theorem holder_keep (h : Inv s) (hplace : place.holds = (s.place c).holds) (d : C) :
    s.mu = some d ↔ (Function.update s.place c place d).holds = true := by
  by_cases hd : d = c
  · rw [hd, Function.update_self, hplace]
    exact h.holder c
  · rw [Function.update_of_ne hd]
    exact h.holder d

end Mutex

theorem Inv.moved {s t : State C E P R} {c : C} {place : Place E P R} (h : Inv s)
    (hplaces : t.place = Function.update s.place c place)
    (hinit : t.initializing = s.initializing) (hhandler : t.handler = s.handler)
    (hclosed : t.closed = s.closed)
    (hmu : ∀ d, t.mu = some d ↔ (Function.update s.place c place d).holds = true)
    (hattempt : place.attempt = (s.place c).attempt)
    (hwaiting : ∀ ch, place = .waiting ch → s.initializing = some ch)
    (hanswer : ∀ handler, place.answer = some handler → s.handler = some handler) : Inv t := by
  have hsame : ∀ d, (t.place d).attempt = (s.place d).attempt := by
    intro d
    rw [hplaces]
    by_cases hd : d = c
    · rw [hd, Function.update_self, hattempt]
    · rw [Function.update_of_ne hd]
  refine ⟨fun d => by rw [hplaces]; exact hmu d, ?_, ?_, ?_, ?_, ?_⟩
  · intro d ch hd
    rw [hinit, hhandler]
    exact h.flying d ch (by rw [← hsame, hd])
  · intro d e ch ch' hd he
    exact h.single d e ch ch' (by rw [← hsame, hd]) (by rw [← hsame, he])
  · intro ch hch
    obtain ⟨d, hd⟩ := h.flown ch (by rw [← hinit, hch])
    exact ⟨d, by rw [hsame, hd]⟩
  · intro d ch hd
    rw [hinit, hclosed]
    rw [hplaces] at hd
    by_cases hdc : d = c
    · rw [hdc, Function.update_self] at hd
      exact .inr (hwaiting ch hd)
    · rw [Function.update_of_ne hdc] at hd
      exact h.waiting d ch hd
  · intro d handler hd
    rw [hhandler]
    rw [hplaces] at hd
    by_cases hdc : d = c
    · rw [hdc, Function.update_self] at hd
      exact hanswer handler hd
    · rw [Function.update_of_ne hdc] at hd
      exact h.answers d handler hd

omit [DecidableEq C] in
theorem Inv.unflown {s : State C E P R} (h : Inv s) (hinit : s.initializing = none) (c : C) :
    (s.place c).attempt = none := by
  cases hc : (s.place c).attempt with
  | none => rfl
  | some ch =>
    have := (h.flying c ch hc).1
    simp [hinit] at this

theorem Inv.begin {s : State C E P R} {c : C} (h : Inv s) (here : s.place c = .looking)
    (hhandler : s.handler = none) (hinit : s.initializing = none) :
    Inv ({ s with
      mu := none
      initializing := some s.attempts
      attempts := s.attempts + 1 }.goto c (.running s.attempts)) := by
  have hplace : ∀ d ch, (Function.update s.place c (.running s.attempts) d).attempt = some ch →
      d = c ∧ ch = s.attempts := by
    intro d ch hd
    by_cases hdc : d = c
    · rw [hdc, Function.update_self] at hd
      exact ⟨hdc, (Option.some.inj hd).symm⟩
    · rw [Function.update_of_ne hdc, h.unflown hinit] at hd
      cases hd
  refine ⟨holder_unlock (s := s) h (by rw [here]; rfl) rfl, ?_, ?_, ?_, ?_, ?_⟩
  · intro d ch hd
    obtain ⟨-, rfl⟩ := hplace d ch hd
    exact ⟨rfl, hhandler⟩
  · intro d e ch ch' hd he
    rw [(hplace d ch hd).1, (hplace e ch' he).1]
  · intro ch hch
    cases hch
    exact ⟨c, by simp [State.goto, Place.attempt]⟩
  · intro d ch hd
    by_cases hdc : d = c
    · simp [State.goto, hdc] at hd
    · simp only [State.goto, Function.update_of_ne hdc] at hd
      -- who waits was left by an attempt that has closed its channel
      have := h.waiting d ch hd
      simp only [hinit, reduceCtorEq, or_false] at this
      exact .inl this
  · intro d handler hd
    by_cases hdc : d = c
    · simp [State.goto, hdc, Place.answer] at hd
    · simp only [State.goto, Function.update_of_ne hdc] at hd
      exact h.answers d handler hd

theorem store_place (s : State C E P R) (c : C) (ch : ℕ) (result : Except E (MarketHandler P R)) :
    (s.store c ch result).place = Function.update s.place c (.leaving result) := by
  cases result <;> rfl

theorem store_mu (s : State C E P R) (c : C) (ch : ℕ) (result : Except E (MarketHandler P R)) :
    (s.store c ch result).mu = s.mu := by
  cases result <;> rfl

theorem store_initializing (s : State C E P R) (c : C) (ch : ℕ)
    (result : Except E (MarketHandler P R)) : (s.store c ch result).initializing = none := by
  cases result <;> rfl

theorem store_closed (s : State C E P R) (c : C) (ch : ℕ)
    (result : Except E (MarketHandler P R)) :
    (s.store c ch result).closed = Function.update s.closed ch true := by
  cases result <;> rfl

theorem Inv.close {s : State C E P R} {c : C} {ch : ℕ} {result : Except E (MarketHandler P R)}
    (h : Inv s) (here : s.place c = .storing ch result) : Inv (s.store c ch result) := by
  have hmine : (s.place c).attempt = some ch := by rw [here]; rfl
  have hplace : ∀ d, (Function.update s.place c (.leaving result) d).attempt = none := by
    intro d
    by_cases hdc : d = c
    · rw [hdc, Function.update_self]
      rfl
    · rw [Function.update_of_ne hdc]
      cases hd : (s.place d).attempt with
      | none => rfl
      | some ch' => exact absurd (h.single d c ch' ch hd hmine) hdc
  have hanswer : ∀ d handler, (s.place d).answer ≠ some handler := by
    intro d handler hd
    have := h.answers d handler hd
    rw [(h.flying c ch hmine).2] at this
    cases this
  refine ⟨?_, ?_, ?_, ?_, ?_, ?_⟩
  · rw [store_place, store_mu]
    exact holder_keep h (by rw [here]; rfl)
  · intro d ch' hd
    rw [store_place, hplace] at hd
    cases hd
  · intro d e ch' ch'' hd
    rw [store_place, hplace] at hd
    cases hd
  · intro ch' hch'
    rw [store_initializing] at hch'
    cases hch'
  · intro d ch' hd
    rw [store_place] at hd
    rw [store_closed]
    by_cases hch : ch' = ch
    · exact .inl (by rw [hch, Function.update_self])
    · by_cases hdc : d = c
      · rw [hdc, Function.update_self] at hd
        cases hd
      · rw [Function.update_of_ne hdc] at hd
        rw [Function.update_of_ne hch]
        rcases h.waiting d ch' hd with hclosed | hinit
        · exact .inl hclosed
        · rw [(h.flying c ch hmine).1] at hinit
          exact absurd (Option.some.inj hinit).symm hch
  · intro d handler hd
    rw [store_place] at hd
    by_cases hdc : d = c
    · rw [hdc, Function.update_self] at hd
      cases result with
      | error err => cases hd
      | ok made => exact hd
    · rw [Function.update_of_ne hdc] at hd
      exact absurd hd (hanswer d handler)

theorem Moves.inv {s s' : State C E P R} (hmove : Moves s e s') (h : Inv s) :
    Inv s' := by
  cases hmove with
  | enter c free here =>
    exact h.moved rfl rfl rfl rfl (holder_lock h free rfl) (by rw [here]; rfl) nofun nofun
  | back c ch result free here =>
    exact h.moved rfl rfl rfl rfl (holder_lock h free rfl) (by rw [here]; rfl) nofun nofun
  | found c handler here hhandler =>
    refine h.moved rfl rfl rfl rfl (holder_unlock h (by rw [here]; rfl) rfl) (by rw [here]; rfl)
      nofun ?_
    intro handler' hanswer
    rw [hhandler, ← hanswer]
    rfl
  | join c ch here _ hinit =>
    refine h.moved rfl rfl rfl rfl (holder_unlock h (by rw [here]; rfl) rfl) (by rw [here]; rfl)
      ?_ nofun
    intro ch' hch'
    cases hch'
    exact hinit
  | begin c here hhandler hinit => exact h.begin here hhandler hinit
  | leave c result here =>
    refine h.moved rfl rfl rfl rfl (holder_unlock h (by rw [here]; rfl) rfl) (by rw [here]; rfl)
      nofun ?_
    intro handler hanswer
    apply h.answers c handler
    rw [here]
    cases result with
    | error err => cases hanswer
    | ok made => exact hanswer
  | close c ch result here => exact h.close here
  | wake c ch here _ =>
    exact h.moved rfl rfl rfl rfl (holder_keep h (by rw [here]; rfl)) (by rw [here]; rfl)
      nofun nofun
  | giveUp c ch here _ =>
    exact h.moved rfl rfl rfl rfl (holder_keep h (by rw [here]; rfl)) (by rw [here]; rfl)
      nofun nofun
  | finish c ch repo publisher here =>
    exact h.moved rfl rfl rfl rfl (holder_keep h (by rw [here]; rfl)) (by rw [here]; rfl)
      nofun nofun
  | cancel c => exact ⟨h.holder, h.flying, h.single, h.flown, h.waiting, h.answers⟩

theorem run_append (s : State C E P R) (before after : List (Event C E P R)) :
    s.run (before ++ after) = (s.run before).bind fun t => t.run after := by
  induction before generalizing s with
  | nil => rfl
  | cons e before ih =>
    simp only [List.cons_append, State.run, Option.bind_assoc]
    congr 1
    funext t
    exact ih t

/-- What holds at the start, and after a step whenever it holds before, holds after a run. -/
theorem run_induction {motive : List (Event C E P R) → State C E P R → Prop}
    (hstart : motive [] State.start)
    (hstep : ∀ before s e s', Inv s → motive before s → Moves s e s' → motive (before ++ [e]) s')
    {events : List (Event C E P R)} {s : State C E P R} (h : State.start.run events = some s) :
    Inv s ∧ motive events s := by
  induction events using List.reverseRecOn generalizing s with
  | nil =>
    cases h
    exact ⟨inv_start, hstart⟩
  | append_singleton before e ih =>
    rw [run_append] at h
    obtain ⟨t, ht, hlast⟩ := Option.bind_eq_some_iff.mp h
    have hmove : Moves t e s := by
      obtain ⟨u, hu, hend⟩ := Option.bind_eq_some_iff.mp hlast
      cases hend
      exact moves_of_step hu
    obtain ⟨hinv, hmotive⟩ := ih ht
    exact ⟨hmove.inv hinv, hstep before t e s hinv hmotive hmove⟩

/-- An attempt has come back with a handler, and the handler is stored or about to be. -/
def Succeeded (s : State C E P R) : Prop :=
  s.handler.isSome ∨ ∃ c h, (s.place c).coming = some h

theorem Succeeded.moved {s t : State C E P R} {c : C} {place : Place E P R} (hdone : Succeeded s)
    (hplaces : t.place = Function.update s.place c place) (hhandler : t.handler = s.handler)
    (hcoming : ∀ h, (s.place c).coming = some h → place.coming = some h) : Succeeded t := by
  rcases hdone with hstored | ⟨d, h, hd⟩
  · exact .inl (by rwa [hhandler])
  · refine .inr ⟨d, h, ?_⟩
    rw [hplaces]
    by_cases hdc : d = c
    · rw [hdc, Function.update_self]
      exact hcoming h (by rw [← hdc, hd])
    · rwa [Function.update_of_ne hdc]

theorem attempt_of_coming {place : Place E P R} {h : MarketHandler P R}
    (hcoming : place.coming = some h) : place.attempt.isSome := by
  unfold Place.coming at hcoming
  split at hcoming <;> first | rfl | cases hcoming

theorem Succeeded.close {s : State C E P R} {c : C} {ch : ℕ}
    {result : Except E (MarketHandler P R)} (hdone : Succeeded s)
    (here : s.place c = .storing ch result) : Succeeded (s.store c ch result) := by
  cases result with
  | ok made => exact .inl rfl
  | error err =>
    refine hdone.moved (store_place s c ch (.error err)) rfl ?_
    rw [here]
    nofun

theorem Moves.succeeded {s s' : State C E P R} (hmove : Moves s e s')
    (h : Inv s) (hdone : Succeeded s) : Succeeded s' ∧ s'.attempts = s.attempts := by
  cases hmove with
  | enter c free here => exact ⟨hdone.moved rfl rfl (by rw [here]; nofun), rfl⟩
  | back c ch result free here =>
    refine ⟨hdone.moved rfl rfl ?_, rfl⟩
    rw [here]
    cases result with
    | ok made => exact fun _ hcoming => hcoming
    | error err => nofun
  | found c handler here _ => exact ⟨hdone.moved rfl rfl (by rw [here]; nofun), rfl⟩
  | join c ch here _ _ => exact ⟨hdone.moved rfl rfl (by rw [here]; nofun), rfl⟩
  | begin c here hhandler hinit =>
    rcases hdone with hstored | ⟨d, made, hd⟩
    · simp [hhandler] at hstored
    · have hflying := attempt_of_coming hd
      simp [h.unflown hinit] at hflying
  | leave c result here => exact ⟨hdone.moved rfl rfl (by rw [here]; nofun), rfl⟩
  | close c ch result here => exact ⟨hdone.close here, by cases result <;> rfl⟩
  | wake c ch here _ => exact ⟨hdone.moved rfl rfl (by rw [here]; nofun), rfl⟩
  | giveUp c ch here _ => exact ⟨hdone.moved rfl rfl (by rw [here]; nofun), rfl⟩
  | finish c ch repo publisher here => exact ⟨hdone.moved rfl rfl (by rw [here]; nofun), rfl⟩
  | cancel c => exact ⟨hdone, rfl⟩

theorem run_succeeded {s s' : State C E P R} {events : List (Event C E P R)} (h : Inv s)
    (hdone : Succeeded s) (hrun : s.run events = some s') : s'.attempts = s.attempts := by
  induction events generalizing s with
  | nil =>
    cases hrun
    rfl
  | cons e events ih =>
    obtain ⟨t, ht, hrest⟩ := Option.bind_eq_some_iff.mp hrun
    have hmove := moves_of_step ht
    obtain ⟨hdone', hsame⟩ := hmove.succeeded h hdone
    rw [ih (hmove.inv h) hdone' hrest, hsame]

/-- Why a caller has an error: its own attempt failed, or its own context was cancelled. -/
structure Caused (events : List (Event C E P R)) (s : State C E P R) : Prop where
  attempted : ∀ c err, (s.place c).attempted = some (.error err) →
    ∃ repo publisher, .finish c repo publisher ∈ events ∧
      ∃ attempt, (initializeDefaultMarketHandler attempt repo publisher).1 = .error err
  cancelled : ∀ c, s.cancelled c = true → .cancel c ∈ events
  gaveUp : ∀ c, s.place c = .returned (.error .cancelled) → .cancel c ∈ events

theorem Caused.moved {before : List (Event C E P R)} {s t : State C E P R}
    {c : C} {place : Place E P R} (h : Caused before s)
    (hplaces : t.place = Function.update s.place c place) (hcancelled : t.cancelled = s.cancelled)
    (hattempted : ∀ err, place.attempted = some (.error err) →
      (s.place c).attempted = some (.error err) ∨
        ∃ repo publisher, e = .finish c repo publisher ∧
          ∃ attempt, (initializeDefaultMarketHandler attempt repo publisher).1 = .error err)
    (hgaveUp : place = .returned (.error .cancelled) → s.cancelled c = true) :
    Caused (before ++ [e]) t := by
  refine ⟨?_, ?_, ?_⟩
  · intro d err hd
    rw [hplaces] at hd
    by_cases hdc : d = c
    · rw [hdc, Function.update_self] at hd
      rw [hdc]
      rcases hattempted err hd with hold | ⟨repo, publisher, rfl, hfailed⟩
      · obtain ⟨repo, publisher, hmem, hfailed⟩ := h.attempted c err hold
        exact ⟨repo, publisher, List.mem_append_left _ hmem, hfailed⟩
      · exact ⟨repo, publisher, by simp, hfailed⟩
    · rw [Function.update_of_ne hdc] at hd
      obtain ⟨repo, publisher, hmem, hfailed⟩ := h.attempted d err hd
      exact ⟨repo, publisher, List.mem_append_left _ hmem, hfailed⟩
  · intro d hd
    rw [hcancelled] at hd
    exact List.mem_append_left _ (h.cancelled d hd)
  · intro d hd
    rw [hplaces] at hd
    by_cases hdc : d = c
    · rw [hdc, Function.update_self] at hd
      rw [hdc]
      exact List.mem_append_left _ (h.cancelled c (hgaveUp hd))
    · rw [Function.update_of_ne hdc] at hd
      exact List.mem_append_left _ (h.gaveUp d hd)

theorem Moves.caused {before : List (Event C E P R)} {s s' : State C E P R}
    (hmove : Moves s e s') (h : Caused before s) : Caused (before ++ [e]) s' := by
  cases hmove with
  | enter c free here => exact h.moved rfl rfl nofun nofun
  | back c ch result free here =>
    refine h.moved rfl rfl ?_ nofun
    rw [here]
    exact fun _ hattempted => .inl hattempted
  | found c handler here _ => exact h.moved rfl rfl nofun nofun
  | join c ch here _ _ => exact h.moved rfl rfl nofun nofun
  | begin c here _ _ => exact h.moved rfl rfl nofun nofun
  | leave c result here =>
    refine h.moved rfl rfl ?_ (by cases result <;> nofun)
    rw [here]
    intro err hattempted
    cases result with
    | ok made => cases hattempted
    | error own => exact .inl hattempted
  | close c ch result here =>
    refine h.moved (store_place s c ch result) (by cases result <;> rfl) ?_ nofun
    rw [here]
    exact fun _ hattempted => .inl hattempted
  | wake c ch here _ => exact h.moved rfl rfl nofun nofun
  | giveUp c ch here hcancelled => exact h.moved rfl rfl nofun fun _ => hcancelled
  | finish c ch repo publisher here =>
    refine h.moved rfl rfl ?_ nofun
    intro err hattempted
    exact .inr ⟨repo, publisher, rfl, ch, Option.some.inj hattempted⟩
  | cancel c =>
    refine ⟨?_, ?_, fun d hd => List.mem_append_left _ (h.gaveUp d hd)⟩
    · intro d err hd
      obtain ⟨repo, publisher, hmem, hfailed⟩ := h.attempted d err hd
      exact ⟨repo, publisher, List.mem_append_left _ hmem, hfailed⟩
    · intro d hd
      by_cases hdc : d = c
      · simp [hdc]
      · simp only [Function.update_of_ne hdc] at hd
        exact List.mem_append_left _ (h.cancelled d hd)

section Progress

variable {s : State C E P R}
variable {ch : ℕ}

theorem unlocks {d : C} (hholds : (s.place d).holds = true) (hclear : (s.place d).attempt = none) :
    ∃ t, s.step (.unlock d) = some t ∧ t.mu = none ∧ ∀ c ≠ d, t.place c = s.place c := by
  cases hplace : s.place d with
  | looking =>
    refine ⟨s.look d, by simp only [State.step, hplace], ?_⟩
    unfold State.look
    split
    · exact ⟨rfl, fun c hc => Function.update_of_ne hc _ _⟩
    · split <;> exact ⟨rfl, fun c hc => Function.update_of_ne hc _ _⟩
  | leaving result =>
    exact ⟨_, by simp only [State.step, hplace]; rfl, rfl, fun c hc => Function.update_of_ne hc _ _⟩
  | _ => simp [hplace, Place.holds, Place.attempt] at hholds hclear

theorem closes_storing {i : C} {result : Except E (MarketHandler P R)}
    (here : s.place i = .storing ch result) :
    ∃ t, s.step (.close i) = some t ∧ t.closed ch = true ∧ ∀ c ≠ i, t.place c = s.place c := by
  refine ⟨s.store i ch result, by simp only [State.step, here], ?_, ?_⟩
  · rw [store_closed, Function.update_self]
  · intro c hc
    rw [store_place, Function.update_of_ne hc]

theorem closes_ending {i : C} {result : Except E (MarketHandler P R)}
    (hfree : s.mu = none) (here : s.place i = .ending ch result) :
    ∃ t, s.run [.lock i, .close i] = some t ∧ t.closed ch = true ∧
      ∀ c ≠ i, t.place c = s.place c := by
  have hlock : s.step (.lock i) = some ({ s with mu := some i }.goto i (.storing ch result)) := by
    simp [State.step, hfree, here]
  obtain ⟨t, hclose, hclosed, hplaces⟩ := closes_storing
    (s := { s with mu := some i }.goto i (.storing ch result)) (Function.update_self i _ _)
  refine ⟨t, by simp [State.run, hlock, hclose], hclosed, ?_⟩
  intro c hc
  rw [hplaces c hc]
  exact Function.update_of_ne hc _ _

theorem closes {i : C} (h : Inv s) (hattempt : (s.place i).attempt = some ch)
    (hended : s.place i ≠ .running ch) :
    ∃ own t, own.length ≤ 3 ∧ (∀ e ∈ own, Event.own e = true) ∧ s.run own = some t ∧
      t.closed ch = true ∧ ∀ c ch', s.place c = .waiting ch' → t.place c = .waiting ch' := by
  cases hplace : s.place i with
  | running ch' =>
    rw [hplace] at hattempt hended
    cases hattempt
    exact absurd rfl hended
  | storing ch' result =>
    rw [hplace] at hattempt
    cases hattempt
    obtain ⟨t, hclose, hclosed, hplaces⟩ := closes_storing hplace
    refine ⟨[.close i], t, by simp, by simp [Event.own], by simp [State.run, hclose], hclosed, ?_⟩
    intro c ch' hc
    rw [hplaces c (fun heq => by rw [heq, hplace] at hc; cases hc), hc]
  | ending ch' result =>
    have hmine := hattempt
    rw [hplace] at hattempt
    cases hattempt
    cases hmu : s.mu with
    | none =>
      obtain ⟨t, hrun, hclosed, hplaces⟩ := closes_ending hmu hplace
      refine ⟨_, t, by simp, by simp [Event.own], hrun, hclosed, ?_⟩
      intro c ch' hc
      rw [hplaces c (fun heq => by rw [heq, hplace] at hc; cases hc), hc]
    | some d =>
      have hholds := (h.holder d).mp hmu
      have hne : i ≠ d := by
        rintro rfl
        simp [hplace, Place.holds] at hholds
      have hclear : (s.place d).attempt = none := by
        cases hd : (s.place d).attempt with
        | none => rfl
        | some ch' => exact absurd (h.single i d _ ch' hmine hd) hne
      obtain ⟨u, hunlock, hfree, hu⟩ := unlocks hholds hclear
      obtain ⟨t, hrun, hclosed, hplaces⟩ := closes_ending hfree ((hu i hne).trans hplace)
      refine ⟨.unlock d :: [.lock i, .close i], t, by simp, by simp [Event.own], ?_, hclosed, ?_⟩
      · simp only [State.run, hunlock, Option.bind_some]
        exact hrun
      · intro c ch' hc
        rw [hplaces c (fun heq => by rw [heq, hplace] at hc; cases hc),
          hu c (fun heq => by rw [← heq, hc] at hholds; cases hholds), hc]
  | _ => simp [hplace, Place.attempt] at hattempt

theorem woken {c : C} (h : Inv s) (here : s.place c = .waiting ch)
    (hended : ∀ d, s.place d ≠ .running ch) :
    ∃ own t, own.length ≤ 3 ∧ (∀ e ∈ own, Event.own e = true) ∧ s.run own = some t ∧
      (t.step (.wake c)).isSome := by
  rcases h.waiting c ch here with hclosed | hinit
  · exact ⟨[], s, by simp, by simp, rfl, by simp [State.step, here, hclosed]⟩
  · obtain ⟨i, hi⟩ := h.flown ch hinit
    obtain ⟨own, t, hlen, hown, hrun, hclosed, hwaits⟩ := closes h hi (hended i)
    exact ⟨own, t, hlen, hown, hrun, by simp [State.step, hwaits c ch here, hclosed]⟩

end Progress

/-- Calls of `defaultMarketHandler` in any interleaving, with attempts that succeed or fail and
contexts that are cancelled at any time. One attempt runs at a time, and none after one that has
succeeded. Calls without error return one handler; a call with an error has its own attempt or its
own context to blame; and who waits for an attempt that has come back is woken. -/
theorem single_flight {events : List (Event C E P R)} {s : State C E P R}
    (hrun : State.start.run events = some s) :
    (∀ c d ch ch', s.place c = .running ch → s.place d = .running ch' → c = d) ∧
    (∀ before c repo publisher after mid,
      events = before ++ .finish c (.ok repo) (.ok publisher) :: after →
      State.start.run (before ++ [.finish c (.ok repo) (.ok publisher)]) = some mid →
      s.attempts = mid.attempts) ∧
    (∀ c d handler handler', s.place c = .returned (.ok handler) →
      s.place d = .returned (.ok handler') → handler = handler') ∧
    (∀ c error, s.place c = .returned (.error error) →
      (∃ err repo publisher attempt, error = .attempt err ∧ .finish c repo publisher ∈ events ∧
        (initializeDefaultMarketHandler attempt repo publisher).1 = .error err) ∨
      error = .cancelled ∧ .cancel c ∈ events) ∧
    (∀ c ch, s.place c = .waiting ch → (∀ d, s.place d ≠ .running ch) →
      ∃ own t, own.length ≤ 3 ∧ (∀ e ∈ own, Event.own e = true) ∧ s.run own = some t ∧
        (t.step (.wake c)).isSome) := by
  obtain ⟨hinv, hcaused⟩ := run_induction (motive := Caused)
    ⟨nofun, nofun, nofun⟩ (fun _ _ _ _ _ h hmove => hmove.caused h) hrun
  refine ⟨?_, ?_, ?_, ?_, fun c ch => woken hinv⟩
  · intro c d ch ch' hc hd
    exact hinv.single c d ch ch' (by rw [hc]; rfl) (by rw [hd]; rfl)
  · intro before c repo publisher after mid hevents hmid
    have hsplit : events = (before ++ [.finish c (.ok repo) (.ok publisher)]) ++ after := by
      simp [hevents]
    rw [hsplit, run_append, hmid] at hrun
    rw [run_append] at hmid
    obtain ⟨t, ht, hlast⟩ := Option.bind_eq_some_iff.mp hmid
    have htinv : Inv t := (run_induction (motive := fun _ _ => True) trivial
      (fun _ _ _ _ _ _ _ => trivial) ht).1
    obtain ⟨u, hu, hend⟩ := Option.bind_eq_some_iff.mp hlast
    cases hend
    have hmove := moves_of_step hu
    refine run_succeeded (hmove.inv htinv) (.inr ⟨c, ?_⟩) hrun
    cases hmove with
    | finish _ ch _ _ here => exact ⟨_, by simp [State.goto, initializeDefaultMarketHandler]; rfl⟩
  · intro c d handler handler' hc hd
    have hfirst := hinv.answers c handler (by rw [hc]; rfl)
    have hsecond := hinv.answers d handler' (by rw [hd]; rfl)
    rw [hfirst] at hsecond
    exact Option.some.inj hsecond
  · intro c error hc
    cases error with
    | attempt err =>
      obtain ⟨repo, publisher, hmem, attempt, hfailed⟩ :=
        hcaused.attempted c err (by rw [hc]; rfl)
      exact .inl ⟨err, repo, publisher, attempt, rfl, hmem, hfailed⟩
    | cancelled => exact .inr ⟨rfl, hcaused.gaveUp c hc⟩

/-- The second caller waits for the attempt of the first, which fails, and makes its own. -/
def secondAttempt : List (Event (Fin 2) Unit Unit Unit) :=
  [.lock 0, .unlock 0, .lock 1, .unlock 1, .finish 0 (.ok ()) (.error ()), .lock 0, .close 0,
    .wake 1, .unlock 0, .lock 1, .unlock 1, .finish 1 (.ok ()) (.ok ()), .lock 1, .close 1,
    .unlock 1]

theorem single_flight_secondAttempt :
    ∃ s, State.start.run secondAttempt = some s ∧
      s.place 0 = .returned (.error (.attempt ())) ∧ s.place 1 = .returned (.ok ⟨1, (), ()⟩) ∧
      ∀ c d handler handler', s.place c = .returned (.ok handler) →
        s.place d = .returned (.ok handler') → handler = handler' :=
  ⟨_, rfl, rfl, rfl, (single_flight (show State.start.run secondAttempt = some _ from rfl)).2.2.1⟩

end Steps

end EveTrade.MarketInitialization
