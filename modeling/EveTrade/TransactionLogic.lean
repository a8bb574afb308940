import EveTrade.TransactionMonad

set_option autoImplicit false

/-!
# Pre- and postconditions of transactions

A triple speaks of the rows a transaction sees and of the errors it ends with. The failures its
environment injects are among those of a given class.
-/
namespace EveTrade.TransactionLogic

open TransactionMonad

variable {σ τ δ φ ε ε' α β : Type}

/-- The environment injects only failures of the class `F`. -/
def Injects (F : φ → Prop) (s : Session σ δ φ) : Prop := ∀ e, some e ∈ s.faults → F e

theorem Injects.tail {F : φ → Prop} {s s' : Session σ δ φ} (h : Injects F s)
    (hs : s'.faults = s.faults.tail) : Injects F s' :=
  fun e he => h e (List.mem_of_mem_tail (hs ▸ he))

theorem Injects.nextFault {F : φ → Prop} {s : Session σ δ φ} (h : Injects F s) {e : φ}
    (he : s.nextFault = some e) : F e := by
  unfold Session.nextFault at he
  cases hf : s.faults with
  | nil => simp [hf] at he
  | cons f fs =>
    have hfe : f = some e := by simpa [hf] using he
    exact h e (by simp [hf, hfe])

/-- Run on rows that satisfy `P`, the transaction leaves rows that satisfy `Q` for its answer, or
ends with an error of the class `E`. -/
def Triple (F : φ → Prop) (E : ε → Prop) (P : σ → Prop) (x : Tx σ δ φ ε α) (Q : α → σ → Prop) :
    Prop :=
  ∀ s : Session σ δ φ, Injects F s → P s.data →
    match x s with
    | .error e => E e
    | .ok (a, s') => Injects F s' ∧ Q a s'.data

namespace Triple

variable {F : φ → Prop} {E : ε → Prop} {P P' : σ → Prop}

section Use

variable {x : Tx σ δ φ ε α} {Q Q' : α → σ → Prop} {s : Session σ δ φ}

theorem error (h : Triple F E P x Q) (hs : Injects F s) (hp : P s.data) {e : ε}
    (hx : x s = .error e) : E e := by
  have := h s hs hp
  rwa [hx] at this

theorem ok (h : Triple F E P x Q) (hs : Injects F s) (hp : P s.data) {a : α}
    {s' : Session σ δ φ} (hx : x s = .ok (a, s')) : Injects F s' ∧ Q a s'.data := by
  have := h s hs hp
  rwa [hx] at this

theorem of_cases (herror : ∀ s : Session σ δ φ, Injects F s → P s.data → ∀ e, x s = .error e → E e)
    (hok : ∀ s : Session σ δ φ, Injects F s → P s.data → ∀ a s', x s = .ok (a, s') →
      Injects F s' ∧ Q a s'.data) : Triple F E P x Q := by
  intro s hs hp
  cases hx : x s with
  | error e => exact herror s hs hp e hx
  | ok r =>
    obtain ⟨a, s'⟩ := r
    exact hok s hs hp a s' hx

theorem consequence (h : Triple F E P x Q) (hpre : ∀ d, P' d → P d)
    (hpost : ∀ a d, Q a d → Q' a d) : Triple F E P' x Q' := by
  refine of_cases (fun s hs hp e hx => h.error hs (hpre _ hp) hx) fun s hs hp a s' hx => ?_
  obtain ⟨hs', hq⟩ := h.ok hs (hpre _ hp) hx
  exact ⟨hs', hpost _ _ hq⟩

theorem strengthen (h : Triple F E P x Q) (hpre : ∀ d, P' d → P d) : Triple F E P' x Q :=
  h.consequence hpre fun _ _ hq => hq

end Use

section Rules

variable {Q : β → σ → Prop}

theorem pure {Q : α → σ → Prop} (a : α) (h : ∀ d, P d → Q a d) :
    Triple F E P (Pure.pure a : Tx σ δ φ ε α) Q :=
  fun s hs hp => ⟨hs, h s.data hp⟩

theorem bind {x : Tx σ δ φ ε α} {f : α → Tx σ δ φ ε β} {R : α → σ → Prop} (hx : Triple F E P x R)
    (hf : ∀ a, Triple F E (R a) (f a) Q) : Triple F E P (x >>= f) Q := by
  refine of_cases (fun s hs hp e h => ?_) fun s hs hp b s' h => ?_
  · rcases Tx.bind_eq_error.1 h with h | ⟨a, s₁, h₁, h₂⟩
    · exact hx.error hs hp h
    · obtain ⟨hs₁, hr⟩ := hx.ok hs hp h₁
      exact (hf a).error hs₁ hr h₂
  · obtain ⟨a, s₁, h₁, h₂⟩ := Tx.bind_eq_ok.1 h
    obtain ⟨hs₁, hr⟩ := hx.ok hs hp h₁
    exact (hf a).ok hs₁ hr h₂

theorem fail {Q : α → σ → Prop} {e : ε} (he : E e) :
    Triple F E P (Tx.fail e : Tx σ δ φ ε α) Q :=
  fun _ _ _ => he

theorem ensure {c : Prop} [Decidable c] {e : ε} (he : E e) :
    Triple F E P (Tx.ensure c e : Tx σ δ φ ε Unit) fun _ d => P d := by
  unfold Tx.ensure
  split_ifs
  · exact pure () fun _ hp => hp
  · exact fail he

theorem when {c : Prop} [Decidable c] {x : Tx σ δ φ ε Unit}
    (hx : Triple F E P x fun _ d => P d) : Triple F E P (Tx.when c x) fun _ d => P d := by
  unfold Tx.when
  split_ifs
  · exact hx
  · exact pure () fun _ hp => hp

theorem fromOption {o : Option α} {e : ε} (he : E e) :
    Triple F E P (Tx.fromOption o e : Tx σ δ φ ε α) fun a d => P d ∧ o = some a := by
  unfold Tx.fromOption
  cases o with
  | none => exact fail he
  | some a => exact pure a fun _ hp => ⟨hp, rfl⟩

theorem statement {Q : α → σ → Prop} {toError : φ → ε} {run : σ → Except φ (α × σ × List δ)}
    (hinjected : ∀ e, F e → E (toError e))
    (herror : ∀ d, P d → ∀ e, run d = .error e → E (toError e))
    (hok : ∀ d, P d → ∀ a d' checks, run d = .ok (a, d', checks) → Q a d') :
    Triple F E P (Tx.statement toError run) Q := by
  refine of_cases (fun s hs hp e h => ?_) fun s hs hp a s' h => ?_
  · unfold Tx.statement at h
    cases hf : s.nextFault with
    | some e' =>
      simp only [hf, Except.error.injEq] at h
      exact h ▸ hinjected e' (hs.nextFault hf)
    | none =>
      simp only [hf] at h
      cases hr : run s.data with
      | error e' =>
        simp only [hr, Except.error.injEq] at h
        exact h ▸ herror s.data hp e' hr
      | ok r => simp [hr] at h
  · obtain ⟨_, d', checks, hr, rfl⟩ := Tx.statement_eq_ok.1 h
    exact ⟨hs.tail rfl, hok s.data hp a d' checks hr⟩

theorem query {toError : φ → ε} {read : σ → α} (hinjected : ∀ e, F e → E (toError e)) :
    Triple F E P (Tx.query toError read : Tx σ δ φ ε α) fun a d => P d ∧ a = read d := by
  refine statement hinjected (fun d _ e h => nomatch h) fun d hp a d' checks h => ?_
  obtain ⟨rfl, rfl, rfl⟩ := by simpa using h
  exact ⟨hp, rfl⟩

theorem zoom {get : τ → σ} {put : σ → τ → τ} {x : Tx σ δ φ ε α} {P : τ → Prop} {P₀ : σ → Prop}
    {Q : α → τ → Prop} {Q₀ : α → σ → Prop} (hx : Triple F E P₀ x Q₀)
    (hpre : ∀ t, P t → P₀ (get t)) (hpost : ∀ t a d, P t → Q₀ a d → Q a (put d t)) :
    Triple F E P (Tx.zoom get put x) Q := by
  refine of_cases (fun t ht hp e h => ?_) fun t ht hp a t' h => ?_
  · unfold Tx.zoom at h
    cases hr : x ⟨get t.data, t.deferred, t.faults⟩ with
    | error e' =>
      simp only [hr, Except.error.injEq] at h
      exact h ▸ hx.error ht (hpre _ hp) hr
    | ok r => simp [hr] at h
  · obtain ⟨s', hr, rfl⟩ := Tx.zoom_eq_ok.1 h
    obtain ⟨hs', hq⟩ := hx.ok ht (hpre _ hp) hr
    exact ⟨hs', hpost _ _ _ hp hq⟩

theorem mapError {f : ε → ε'} {E' : ε' → Prop} {x : Tx σ δ φ ε α} {Q : α → σ → Prop}
    (hx : Triple F E P x Q) (hf : ∀ e, E e → E' (f e)) : Triple F E' P (Tx.mapError f x) Q := by
  refine of_cases (fun s hs hp e h => ?_) fun s hs hp a s' h => ?_
  · cases hr : x s with
    | error e' =>
      rw [Tx.mapError_eq_error hr, Except.error.injEq] at h
      exact h ▸ hf e' (hx.error hs hp hr)
    | ok r => simp [Tx.mapError, hr] at h
  · exact hx.ok hs hp (Tx.mapError_eq_ok.1 h)

theorem runChecks {check : δ → σ → Except φ Unit} {G : φ → Prop} {d : σ} {ds : List δ} {e : φ}
    (hcheck : ∀ c e, check c d = .error e → G e) (h : Tx.runChecks check d ds = .error e) :
    G e := by
  induction ds with
  | nil => cases h
  | cons c ds ih =>
    rw [Tx.runChecks] at h
    cases hc : check c d with
    | error e' =>
      simp only [hc, Except.error.injEq] at h
      exact h ▸ hcheck c e' hc
    | ok u =>
      simp only [hc] at h
      exact ih h

theorem commit {toError : φ → ε} {check : δ → σ → Except φ Unit}
    (hinjected : ∀ e, F e → E (toError e))
    (hcheck : ∀ d, P d → ∀ c e, check c d = .error e → E (toError e)) :
    Triple F E P (Tx.commit toError check) fun _ d => P d := by
  refine of_cases (fun s hs hp e h => ?_) fun s hs hp a s' h => ?_
  · unfold Tx.commit at h
    cases hf : s.nextFault with
    | some e' =>
      simp only [hf, Except.error.injEq] at h
      exact h ▸ hinjected e' (hs.nextFault hf)
    | none =>
      simp only [hf] at h
      cases hr : Tx.runChecks check s.data s.deferred with
      | error e' =>
        simp only [hr, Except.error.injEq] at h
        exact h ▸ runChecks (G := fun e => E (toError e)) (hcheck s.data hp) hr
      | ok u => simp [hr] at h
  · obtain ⟨_, _, hs'⟩ := Tx.commit_eq_ok.1 h
    change s' = _ at hs'
    subst hs'
    exact ⟨hs.tail rfl, hp⟩

end Rules

end Triple

/-- What the environment still holds for the rest of a session was there at its start. -/
def Consumes (x : Tx σ δ φ ε α) : Prop :=
  ∀ s a s', x s = .ok (a, s') → ∀ f ∈ s'.faults, f ∈ s.faults

namespace Consumes

theorem clean {x : Tx σ δ φ ε α} (h : Consumes x) {s s' : Session σ δ φ} {a : α} (hs : s.Clean)
    (hx : x s = .ok (a, s')) : s'.Clean :=
  fun f hf => hs f (h s a s' hx f hf)

theorem pure (a : α) : Consumes (Pure.pure a : Tx σ δ φ ε α) := by
  intro s b s' h
  obtain ⟨rfl, rfl⟩ := by simpa using h
  exact fun f hf => hf

theorem bind {x : Tx σ δ φ ε α} {f : α → Tx σ δ φ ε β} (hx : Consumes x)
    (hf : ∀ a, Consumes (f a)) : Consumes (x >>= f) := by
  intro s b s' h e he
  obtain ⟨a, s₁, h₁, h₂⟩ := Tx.bind_eq_ok.1 h
  exact hx s a s₁ h₁ e (hf a s₁ b s' h₂ e he)

theorem fail (e : ε) : Consumes (Tx.fail e : Tx σ δ φ ε α) := by
  intro s a s' h
  simp at h

theorem ensure (c : Prop) [Decidable c] (e : ε) :
    Consumes (Tx.ensure c e : Tx σ δ φ ε Unit) := by
  unfold Tx.ensure
  split_ifs
  · exact pure ()
  · exact fail e

theorem when (c : Prop) [Decidable c] {x : Tx σ δ φ ε Unit} (hx : Consumes x) :
    Consumes (Tx.when c x) := by
  unfold Tx.when
  split_ifs
  · exact hx
  · exact pure ()

theorem fromOption (o : Option α) (e : ε) : Consumes (Tx.fromOption o e : Tx σ δ φ ε α) := by
  cases o with
  | none => exact fail e
  | some a => exact pure a

theorem statement (toError : φ → ε) (run : σ → Except φ (α × σ × List δ)) :
    Consumes (Tx.statement toError run) := by
  intro s a s' h f hf
  obtain ⟨_, d', checks, _, rfl⟩ := Tx.statement_eq_ok.1 h
  exact List.mem_of_mem_tail hf

theorem query (toError : φ → ε) (read : σ → α) :
    Consumes (Tx.query toError read : Tx σ δ φ ε α) :=
  statement _ _

theorem zoom {get : τ → σ} {put : σ → τ → τ} {x : Tx σ δ φ ε α} (hx : Consumes x) :
    Consumes (Tx.zoom get put x) := by
  intro s a s' h f hf
  obtain ⟨s₁, h₁, rfl⟩ := Tx.zoom_eq_ok.1 h
  exact hx _ _ _ h₁ f hf

end Consumes

end EveTrade.TransactionLogic
