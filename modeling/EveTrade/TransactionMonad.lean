import Mathlib.Tactic

set_option autoImplicit false

/-!
# Transactions as a state monad

A session holds the rows as the transaction sees them, the constraint checks it has deferred to its
commit, and the failures its environment will inject, one entry for each statement. An error
discards the session: what an uncommitted transaction did leaves no trace.
-/
namespace EveTrade.TransactionMonad

section Checks

variable {ε α β : Type}

def check (c : Prop) [Decidable c] (e : ε) : Except ε Unit := if c then .ok () else .error e

@[simp] theorem check_eq_ok {c : Prop} [Decidable c] {e : ε} {u : Unit} :
    check c e = .ok u ↔ c := by
  unfold check
  split_ifs with h <;> simp [h]

theorem except_bind_eq_ok {x : Except ε α} {f : α → Except ε β} {r : β} :
    (x >>= f) = .ok r ↔ ∃ a, x = .ok a ∧ f a = .ok r := by
  cases x with
  | error e => simp [bind, Except.bind]
  | ok a => simp [bind, Except.bind]

end Checks

structure Session (σ δ φ : Type) where
  data : σ
  deferred : List δ
  faults : List (Option φ)

namespace Session

variable {σ δ φ : Type}

def nextFault (s : Session σ δ φ) : Option φ := s.faults.head?.join

def wrote (s : Session σ δ φ) (data : σ) (checks : List δ) : Session σ δ φ :=
  ⟨data, s.deferred ++ checks, s.faults.tail⟩

@[simp] theorem wrote_data (s : Session σ δ φ) (data : σ) (checks : List δ) :
    (s.wrote data checks).data = data := rfl

@[simp] theorem wrote_deferred (s : Session σ δ φ) (data : σ) (checks : List δ) :
    (s.wrote data checks).deferred = s.deferred ++ checks := rfl

/-- A session whose environment will fail no statement. -/
def Clean (s : Session σ δ φ) : Prop := ∀ f ∈ s.faults, f = none

theorem Clean.nextFault {s : Session σ δ φ} (h : s.Clean) : s.nextFault = none := by
  unfold Session.nextFault
  cases hf : s.faults with
  | nil => rfl
  | cons f fs =>
    have : f = none := h f (by simp [hf])
    simp [this]

theorem Clean.wrote {s : Session σ δ φ} (h : s.Clean) (data : σ) (checks : List δ) :
    (s.wrote data checks).Clean :=
  fun f hf => h f (List.mem_of_mem_tail hf)

end Session

def Tx (σ δ φ ε α : Type) : Type := Session σ δ φ → Except ε (α × Session σ δ φ)

namespace Tx

variable {σ τ δ φ ε ε' α β : Type}

protected def pure (a : α) : Tx σ δ φ ε α := fun s => .ok (a, s)

protected def bind (x : Tx σ δ φ ε α) (f : α → Tx σ δ φ ε β) : Tx σ δ φ ε β := fun s =>
  match x s with
  | .error e => .error e
  | .ok (a, s') => f a s'

instance : Monad (Tx σ δ φ ε) where
  pure := Tx.pure
  bind := Tx.bind

def fail (e : ε) : Tx σ δ φ ε α := fun _ => .error e

def ensure (c : Prop) [Decidable c] (e : ε) : Tx σ δ φ ε Unit := if c then pure () else fail e

def when (c : Prop) [Decidable c] (x : Tx σ δ φ ε Unit) : Tx σ δ φ ε Unit :=
  if c then x else pure ()

def fromOption (o : Option α) (e : ε) : Tx σ δ φ ε α :=
  match o with
  | none => fail e
  | some a => pure a

/-- One statement: the environment may fail it, and it may break a constraint. -/
def statement (toError : φ → ε) (run : σ → Except φ (α × σ × List δ)) : Tx σ δ φ ε α := fun s =>
  match s.nextFault with
  | some e => .error (toError e)
  | none =>
    match run s.data with
    | .error e => .error (toError e)
    | .ok (a, data, checks) => .ok (a, s.wrote data checks)

def query (toError : φ → ε) (read : σ → α) : Tx σ δ φ ε α :=
  statement toError fun d => .ok (read d, d, [])

def zoom (get : τ → σ) (put : σ → τ → τ) (x : Tx σ δ φ ε α) : Tx τ δ φ ε α := fun s =>
  match x ⟨get s.data, s.deferred, s.faults⟩ with
  | .error e => .error e
  | .ok (a, s') => .ok (a, ⟨put s'.data s.data, s'.deferred, s'.faults⟩)

def mapError (f : ε → ε') (x : Tx σ δ φ ε α) : Tx σ δ φ ε' α := fun s =>
  match x s with
  | .error e => .error (f e)
  | .ok r => .ok r

def runChecks (check : δ → σ → Except φ Unit) (data : σ) : List δ → Except φ Unit
  | [] => .ok ()
  | d :: ds =>
    match check d data with
    | .error e => .error e
    | .ok () => runChecks check data ds

/-- The deferred checks run on the rows as they are at commit. -/
def commit (toError : φ → ε) (check : δ → σ → Except φ Unit) : Tx σ δ φ ε Unit := fun s =>
  match s.nextFault with
  | some e => .error (toError e)
  | none =>
    match runChecks check s.data s.deferred with
    | .error e => .error (toError e)
    | .ok () => .ok ((), ⟨s.data, [], s.faults.tail⟩)

section Success

variable {s : Session σ δ φ} {r : β × Session σ δ φ}
variable {x : Tx σ δ φ ε α} {f : α → Tx σ δ φ ε β} {e : ε} {c : Prop} {toError : φ → ε}

@[simp] theorem pure_eq_ok {a : α} {r : α × Session σ δ φ} :
    (pure a : Tx σ δ φ ε α) s = .ok r ↔ r = (a, s) := by
  change Except.ok (a, s) = Except.ok r ↔ r = (a, s)
  rw [Except.ok.injEq, eq_comm]

@[simp] theorem bind_eq_ok :
    (x >>= f) s = .ok r ↔ ∃ a s', x s = .ok (a, s') ∧ f a s' = .ok r := by
  change Tx.bind x f s = _ ↔ _
  unfold Tx.bind
  cases h : x s with
  | error e => simp
  | ok p =>
    obtain ⟨a, s'⟩ := p
    simp

@[simp] theorem fail_eq_ok {r : α × Session σ δ φ} :
    (fail e : Tx σ δ φ ε α) s = .ok r ↔ False := by
  simp [fail]

@[simp] theorem ensure_eq_ok [Decidable c] {r : Unit × Session σ δ φ} :
    (ensure c e : Tx σ δ φ ε Unit) s = .ok r ↔ c ∧ r = ((), s) := by
  unfold ensure
  by_cases h : c
  · rw [if_pos h, pure_eq_ok, and_iff_right h]
  · simp [h]

@[simp] theorem fromOption_eq_ok {o : Option α} {r : α × Session σ δ φ} :
    (fromOption o e : Tx σ δ φ ε α) s = .ok r ↔ o = some r.1 ∧ r.2 = s := by
  unfold fromOption
  cases o with
  | none => simp
  | some a => rw [pure_eq_ok, Prod.ext_iff, Option.some.injEq, eq_comm]

theorem statement_eq_ok {run : σ → Except φ (α × σ × List δ)} {r : α × Session σ δ φ} :
    statement toError run s = .ok r ↔
      s.nextFault = none ∧ ∃ data checks, run s.data = .ok (r.1, data, checks) ∧
        r.2 = s.wrote data checks := by
  unfold statement
  cases s.nextFault with
  | some e => simp
  | none =>
    cases h : run s.data with
    | error e => simp
    | ok p =>
      obtain ⟨a, data, checks⟩ := p
      simp only [Except.ok.injEq, Prod.ext_iff, true_and]
      constructor
      · rintro ⟨ha, hs⟩
        exact ⟨data, checks, ⟨ha, rfl, rfl⟩, hs.symm⟩
      · rintro ⟨_, _, ⟨ha, rfl, rfl⟩, hs⟩
        exact ⟨ha, hs.symm⟩

theorem query_eq_ok {read : σ → α} {r : α × Session σ δ φ} :
    query toError read s = .ok r ↔
      s.nextFault = none ∧ r.1 = read s.data ∧ r.2 = s.wrote s.data [] := by
  unfold query
  rw [statement_eq_ok]
  simp only [Except.ok.injEq, Prod.mk.injEq]
  constructor
  · rintro ⟨hf, _, _, ⟨hr, rfl, rfl⟩, hs⟩
    exact ⟨hf, hr.symm, hs⟩
  · rintro ⟨hf, hr, hs⟩
    exact ⟨hf, s.data, [], ⟨hr.symm, rfl, rfl⟩, hs⟩

theorem zoom_eq_ok {get : τ → σ} {put : σ → τ → τ} {t : Session τ δ φ}
    {r : α × Session τ δ φ} :
    zoom get put x t = .ok r ↔
      ∃ s', x ⟨get t.data, t.deferred, t.faults⟩ = .ok (r.1, s') ∧
        r.2 = ⟨put s'.data t.data, s'.deferred, s'.faults⟩ := by
  unfold zoom
  cases x ⟨get t.data, t.deferred, t.faults⟩ with
  | error e => simp
  | ok p =>
    obtain ⟨a, s'⟩ := p
    simp only [Except.ok.injEq, Prod.ext_iff]
    constructor
    · rintro ⟨ha, hs⟩
      exact ⟨s', ⟨ha, rfl⟩, hs.symm⟩
    · rintro ⟨_, ⟨ha, rfl⟩, hs⟩
      exact ⟨ha, hs.symm⟩

/-! Success of one action followed by the rest, in the form in which a long body is taken apart. -/

@[simp] theorem ensure_bind_eq_ok [Decidable c] {f : Unit → Tx σ δ φ ε β} :
    (ensure c e >>= f) s = .ok r ↔ c ∧ f () s = .ok r := by
  rw [bind_eq_ok]
  constructor
  · rintro ⟨a, s', h, hf⟩
    obtain ⟨hc, rfl, rfl⟩ := by simpa using h
    exact ⟨hc, hf⟩
  · rintro ⟨hc, hf⟩
    exact ⟨(), s, by simpa using hc, hf⟩

@[simp] theorem fromOption_bind_eq_ok {o : Option α} :
    (fromOption o e >>= f) s = .ok r ↔ ∃ a, o = some a ∧ f a s = .ok r := by
  rw [bind_eq_ok]
  constructor
  · rintro ⟨a, s', h, hf⟩
    obtain ⟨ho, rfl⟩ := by simpa using h
    exact ⟨a, ho, hf⟩
  · rintro ⟨a, ho, hf⟩
    exact ⟨a, s, by simpa using ho, hf⟩

theorem unit_bind_eq_ok {x : Tx σ δ φ ε Unit} {f : Unit → Tx σ δ φ ε β} :
    (x >>= f) s = .ok r ↔ ∃ s', x s = .ok ((), s') ∧ f () s' = .ok r := by
  rw [bind_eq_ok]
  exact ⟨fun ⟨(), h⟩ => h, fun h => ⟨(), h⟩⟩

theorem when_eq_ok [Decidable c] {x : Tx σ δ φ ε Unit} {r : Unit × Session σ δ φ} :
    when c x s = .ok r ↔ (c ∧ x s = .ok r) ∨ (¬ c ∧ r = ((), s)) := by
  unfold when
  by_cases h : c
  · simp [h]
  · simp [h]

@[simp] theorem when_bind_eq_ok [Decidable c] {x : Tx σ δ φ ε Unit}
    {f : Unit → Tx σ δ φ ε β} :
    (when c x >>= f) s = .ok r ↔
      (c ∧ ∃ s', x s = .ok ((), s') ∧ f () s' = .ok r) ∨ (¬ c ∧ f () s = .ok r) := by
  rw [unit_bind_eq_ok]
  unfold when
  by_cases h : c
  · simp [h]
  · simp [h]

theorem query_bind_eq_ok {read : σ → α} :
    (query toError read >>= f) s = .ok r ↔
      s.nextFault = none ∧ f (read s.data) (s.wrote s.data []) = .ok r := by
  rw [bind_eq_ok]
  constructor
  · rintro ⟨a, s', h, hf⟩
    obtain ⟨hn, rfl, rfl⟩ := query_eq_ok.1 h
    exact ⟨hn, hf⟩
  · rintro ⟨hn, hf⟩
    exact ⟨_, _, query_eq_ok.2 ⟨hn, rfl, rfl⟩, hf⟩

@[simp] theorem mapError_eq_ok {f : ε → ε'} {r : α × Session σ δ φ} :
    mapError f x s = .ok r ↔ x s = .ok r := by
  unfold mapError
  cases x s with
  | error e => simp
  | ok p => simp

theorem bind_eq_error :
    (x >>= f) s = .error e ↔ x s = .error e ∨ ∃ a s', x s = .ok (a, s') ∧ f a s' = .error e := by
  change Tx.bind x f s = _ ↔ _
  unfold Tx.bind
  cases h : x s with
  | error e' => simp
  | ok p =>
    obtain ⟨a, s'⟩ := p
    simp

theorem mapError_eq_error {f : ε → ε'} (h : x s = .error e) :
    mapError f x s = .error (f e) := by
  unfold mapError
  rw [h]

theorem runChecks_eq_ok {check : δ → σ → Except φ Unit} {data : σ} {ds : List δ} :
    runChecks check data ds = .ok () ↔ ∀ d ∈ ds, check d data = .ok () := by
  induction ds with
  | nil => simp [runChecks]
  | cons d ds ih =>
    rw [runChecks, List.forall_mem_cons]
    cases h : check d data with
    | error e => simp
    | ok u => simp [ih]

theorem commit_eq_ok {check : δ → σ → Except φ Unit} {r : Unit × Session σ δ φ} :
    commit toError check s = .ok r ↔
      s.nextFault = none ∧ (∀ d ∈ s.deferred, check d s.data = .ok ()) ∧
        r.2 = ⟨s.data, [], s.faults.tail⟩ := by
  unfold commit
  rw [← runChecks_eq_ok]
  cases s.nextFault with
  | some e => simp
  | none =>
    cases runChecks check s.data s.deferred with
    | error e => simp
    | ok u => simp [Prod.ext_iff, eq_comm]

end Success

/-- An action that succeeds leaves the rows and the deferred checks as they are. -/
def ReadOnly (x : Tx σ δ φ ε α) : Prop :=
  ∀ s a s', x s = .ok (a, s') → s'.data = s.data ∧ s'.deferred = s.deferred

namespace ReadOnly

theorem pure (a : α) : (Pure.pure a : Tx σ δ φ ε α).ReadOnly := by
  intro s b s' h
  obtain ⟨rfl, rfl⟩ := by simpa using h
  exact ⟨rfl, rfl⟩

theorem bind {x : Tx σ δ φ ε α} {f : α → Tx σ δ φ ε β} (hx : x.ReadOnly)
    (hf : ∀ a, (f a).ReadOnly) : (x >>= f).ReadOnly := by
  intro s b s' h
  obtain ⟨a, s₁, h₁, h₂⟩ := bind_eq_ok.1 h
  have hd₁ := hx s a s₁ h₁
  have hd₂ := hf a s₁ b s' h₂
  exact ⟨hd₂.1.trans hd₁.1, hd₂.2.trans hd₁.2⟩

theorem fail (e : ε) : (Tx.fail e : Tx σ δ φ ε α).ReadOnly := by
  intro s a s' h
  simp at h

theorem ensure (c : Prop) [Decidable c] (e : ε) : (Tx.ensure c e : Tx σ δ φ ε Unit).ReadOnly := by
  intro s a s' h
  obtain ⟨_, rfl⟩ := by simpa using h
  exact ⟨rfl, rfl⟩

theorem fromOption (o : Option α) (e : ε) : (Tx.fromOption o e : Tx σ δ φ ε α).ReadOnly := by
  intro s a s' h
  obtain ⟨_, rfl⟩ := by simpa using h
  exact ⟨rfl, rfl⟩

theorem query (toError : φ → ε) (read : σ → α) :
    (Tx.query toError read : Tx σ δ φ ε α).ReadOnly := by
  intro s a s' h
  obtain ⟨_, _, rfl⟩ := query_eq_ok.1 h
  exact ⟨rfl, List.append_nil _⟩

theorem when (c : Prop) [Decidable c] {x : Tx σ δ φ ε Unit} (hx : x.ReadOnly) :
    (Tx.when c x).ReadOnly := by
  unfold Tx.when
  split_ifs
  · exact hx
  · exact pure ()

theorem zoom {get : τ → σ} {put : σ → τ → τ} (hput : ∀ t, put (get t) t = t)
    {x : Tx σ δ φ ε α} (hx : x.ReadOnly) : (Tx.zoom get put x).ReadOnly := by
  intro s a s' h
  obtain ⟨s₁, h₁, rfl⟩ := zoom_eq_ok.1 h
  obtain ⟨hd, hc⟩ := hx _ _ _ h₁
  exact ⟨by rw [hd]; exact hput _, hc⟩

end ReadOnly

/-- An action can succeed with this answer on these rows. -/
def Answers (x : Tx σ δ φ ε α) (data : σ) (a : α) : Prop :=
  ∃ s s' : Session σ δ φ, s.data = data ∧ x s = .ok (a, s')

namespace Answers

variable {data : σ}

theorem bind {x : Tx σ δ φ ε α} {f : α → Tx σ δ φ ε β} {b : β} (hx : x.ReadOnly)
    (h : (x >>= f).Answers data b) : ∃ a, x.Answers data a ∧ (f a).Answers data b := by
  obtain ⟨s, s', hs, h⟩ := h
  obtain ⟨a, s₁, h₁, h₂⟩ := bind_eq_ok.1 h
  exact ⟨a, ⟨s, s₁, hs, h₁⟩, s₁, s', (hx s a s₁ h₁).1.trans hs, h₂⟩

theorem pure {a b : α} (h : (Pure.pure a : Tx σ δ φ ε α).Answers data b) : b = a := by
  obtain ⟨s, s', _, h⟩ := h
  exact (Prod.ext_iff.1 (pure_eq_ok.1 h)).1

theorem ensure {c : Prop} [Decidable c] {e : ε} {u : Unit}
    (h : (Tx.ensure c e : Tx σ δ φ ε Unit).Answers data u) : c := by
  obtain ⟨s, s', _, h⟩ := h
  exact (ensure_eq_ok.1 h).1

theorem ensure_bind {c : Prop} [Decidable c] {e : ε} {f : Unit → Tx σ δ φ ε β} {b : β}
    (h : (Tx.ensure c e >>= f).Answers data b) : c ∧ (f ()).Answers data b := by
  obtain ⟨u, hc, hf⟩ := bind (ReadOnly.ensure c e) h
  exact ⟨ensure hc, hf⟩

theorem fromOption {o : Option α} {e : ε} {a : α}
    (h : (Tx.fromOption o e : Tx σ δ φ ε α).Answers data a) : o = some a := by
  obtain ⟨s, s', _, h⟩ := h
  exact (fromOption_eq_ok.1 h).1

theorem query {toError : φ → ε} {read : σ → α} {a : α}
    (h : (Tx.query toError read : Tx σ δ φ ε α).Answers data a) : a = read data := by
  obtain ⟨s, s', rfl, h⟩ := h
  exact (query_eq_ok.1 h).2.1

theorem when {c : Prop} [Decidable c] {x : Tx σ δ φ ε Unit} {u : Unit}
    (h : (Tx.when c x).Answers data u) (hc : c) : x.Answers data u := by
  rwa [Tx.when, if_pos hc] at h

end Answers

/-- An action that succeeds unless the environment fails it, and defers no check. -/
def Succeeds (x : Tx σ δ φ ε α) : Prop :=
  ∀ s, s.Clean → ∃ a s', x s = .ok (a, s') ∧ s'.Clean ∧ s'.deferred = s.deferred

namespace Succeeds

theorem pure (a : α) : (Pure.pure a : Tx σ δ φ ε α).Succeeds :=
  fun s hs => ⟨a, s, rfl, hs, rfl⟩

theorem bind {x : Tx σ δ φ ε α} {f : α → Tx σ δ φ ε β} (hx : x.Succeeds)
    (hf : ∀ a, (f a).Succeeds) : (x >>= f).Succeeds := by
  intro s hs
  obtain ⟨a, s₁, h₁, hc₁, hd₁⟩ := hx s hs
  obtain ⟨b, s₂, h₂, hc₂, hd₂⟩ := hf a s₁ hc₁
  exact ⟨b, s₂, bind_eq_ok.2 ⟨a, s₁, h₁, h₂⟩, hc₂, hd₂.trans hd₁⟩

theorem statement {toError : φ → ε} {run : σ → Except φ (α × σ × List δ)}
    (h : ∀ d, ∃ a d', run d = .ok (a, d', [])) : (Tx.statement toError run).Succeeds := by
  intro s hs
  obtain ⟨a, d', hrun⟩ := h s.data
  exact ⟨a, _, statement_eq_ok.2 ⟨hs.nextFault, d', [], hrun, rfl⟩, hs.wrote d' [],
    List.append_nil _⟩

theorem query (toError : φ → ε) (read : σ → α) :
    (Tx.query toError read : Tx σ δ φ ε α).Succeeds :=
  statement fun d => ⟨read d, d, rfl⟩

theorem when (c : Prop) [Decidable c] {x : Tx σ δ φ ε Unit} (hx : x.Succeeds) :
    (Tx.when c x).Succeeds := by
  unfold Tx.when
  split_ifs
  · exact hx
  · exact pure ()

end Succeeds

theorem commit_of_clean {toError : φ → ε} {check : δ → σ → Except φ Unit} {s : Session σ δ φ}
    (hs : s.Clean) (hd : s.deferred = []) :
    commit toError check s = .ok ((), ⟨s.data, [], s.faults.tail⟩) := by
  refine commit_eq_ok.2 ⟨hs.nextFault, ?_, rfl⟩
  rw [hd]
  intro d h
  cases h

end Tx

end EveTrade.TransactionMonad
