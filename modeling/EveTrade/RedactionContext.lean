import EveTrade.RedactionRules

set_option autoImplicit false

/-!
# Redaction before a word

A text that ends with a space is redacted on its own, whatever word comes next, with one exception in
each of the first two substitutions: an assignment or a header that still waits for what it loses
takes that word.
-/
namespace EveTrade.Redaction

open RegexText

/-- The text is empty or ends with a space. -/
def EndsApart (s : List Char) : Prop := ∀ c ∈ s.getLast?, isSpace c = true

/-- The text is empty or begins with a space. -/
def StartsApart (s : List Char) : Prop := ∀ c ∈ s.head?, isSpace c = true

/-- The text begins with a character that is neither a space nor the sign of an assignment. -/
def BeginsWord (w : List Char) : Prop :=
  ∃ c cs, w = c :: cs ∧ isValue c = true ∧ isAssign c = false

section Texts

theorem EndsApart.suffix {s q : List Char} (h : EndsApart s) (hq : q <:+ s) : EndsApart q := by
  obtain ⟨p, rfl⟩ := hq
  intro c hc
  apply h
  have hne : q ≠ [] := by
    rintro rfl
    cases hc
  rw [List.getLast?_append_of_ne_nil _ hne]
  exact hc

theorem EndsApart.exists_space {s : List Char} (h : EndsApart s) (hne : s ≠ []) :
    ∃ t c, s = t ++ [c] ∧ isSpace c = true := by
  refine ⟨s.dropLast, s.getLast hne, (List.dropLast_append_getLast hne).symm, ?_⟩
  exact h _ (List.getLast?_eq_some_getLast hne)

theorem EndsApart.eq_nil {s : List Char} (h : EndsApart s) (hs : ∀ c ∈ s, isSpace c = false) :
    s = [] := by
  by_contra hne
  obtain ⟨t, c, rfl, hc⟩ := h.exists_space hne
  rw [hs c (by simp)] at hc
  cases hc

end Texts

/-- A label and the sign behind it, which is what assignments and headers begin with. -/
def Labelled (k : List Char) : Prop :=
  ∃ name gap d gap', k = name ++ (gap ++ d :: gap') ∧ name ≠ [] ∧ (∀ c ∈ name, isName c = true) ∧
    (∀ c ∈ gap, isSpace c = true) ∧ isAssign d = true ∧ ∀ c ∈ gap', isSpace c = true

section Labels

theorem Opening.labelled {k : List Char} (h : Opening k) : Labelled k := by
  obtain ⟨name, gap, d, gap', rfl, hnamed, hgap, hd, hgap'⟩ := h
  exact ⟨name, gap, d, gap', rfl, hnamed.ne_nil, hnamed.1, hgap, hd, hgap'⟩

theorem Header.labelled {k : List Char} (h : Header k) : Labelled k := by
  obtain ⟨a, gap, gap', rfl, ha, hgap, hgap'⟩ := h
  refine ⟨a, gap, ':', gap', rfl, ?_, ?_, hgap, by decide, hgap'⟩
  · rintro rfl
    cases ha
  · exact fun c hc => isName_of_isLetter (isLetter_of_alike (by decide) ha c hc)

theorem labelled_next {gap : List Char} {d : Char} (hgap : ∀ c ∈ gap, isSpace c = true)
    (hd : isAssign d = true) (rest : List Char) :
    ∀ c ∈ (gap ++ d :: rest).head?, isSpace c = true ∨ isAssign c = true := by
  intro c hc
  cases gap with
  | nil =>
    cases hc
    exact .inr hd
  | cons e es =>
    cases hc
    exact .inl (hgap _ List.mem_cons_self)

theorem labelled_within {k s x : List Char} {c : Char} (hk : Labelled k) (hs : EndsApart s)
    (hne : s ≠ []) (hspace : isSpace c = false) (hassign : isAssign c = false) :
    k ≠ s ++ c :: x := by
  intro hsame
  obtain ⟨name, gap, d, gap', rfl, -, hname, hgap, hd, hgap'⟩ := hk
  rcases List.append_eq_append_iff.mp hsame with ⟨a, rfl, hrest⟩ | ⟨a, rfl, -⟩
  · have hmem : c ∈ gap ++ d :: gap' := by
      rw [hrest]
      simp
    rcases List.mem_append.mp hmem with hc | hc
    · rw [hgap c hc] at hspace
      cases hspace
    · rcases List.mem_cons.mp hc with rfl | hc
      · rw [hd] at hassign
        cases hassign
      · rw [hgap' c hc] at hspace
        cases hspace
  · obtain ⟨t, e, rfl, he⟩ := hs.exists_space hne
    have hletter := hname e (by simp)
    rw [isName_of_isSpace he] at hletter
    cases hletter

end Labels

section Assignments

variable {unicode : Unicode}

theorem Run.append {p : Char → Bool} {v r : List Char} (h : Run p v r) (hr : r ≠ [])
    (w : List Char) : Run p v (r ++ w) := by
  refine ⟨h.nonempty, h.all, fun c hc => h.stops c ?_⟩
  cases r with
  | nil => exact absurd rfl hr
  | cons d ds => exact hc

theorem Run.of_append {p : Char → Bool} {v r w : List Char} (h : Run p v (r ++ w)) : Run p v r := by
  refine ⟨h.nonempty, h.all, fun c hc => h.stops c ?_⟩
  cases r with
  | nil => cases hc
  | cons d ds => exact hc

theorem Run.rest_ne_nil {p : Char → Bool} (hp : ∀ c, p c = true → isSpace c = false)
    {k v r : List Char} (h : Run p v r) (hapart : EndsApart (k ++ (v ++ r))) : r ≠ [] := by
  rintro rfl
  rw [List.append_nil] at hapart
  exact h.nonempty ((hapart.suffix (List.suffix_append _ _)).eq_nil fun c hc => hp c (h.all c hc))

theorem assignment_local (lawful : unicode.Lawful) {q : List Char} (hq : EndsApart q) (hne : q ≠ [])
    (before : Option Char) :
    (wordAt (isWord unicode) before = false ∧ Opening q) ∨
      Closed (assignment unicode) BeginsWord before q ∨
      ∀ w, BeginsWord w → (assignment unicode).find ⟨before, q ++ w⟩ = none := by
  by_cases hopen : wordAt (isWord unicode) before = false ∧ Opening q
  · exact .inl hopen
  by_cases hclosed : wordAt (isWord unicode) before = false ∧
      ∃ k v r, q = k ++ (v ++ r) ∧ Opening k ∧ Run isValue v r
  · obtain ⟨hbefore, k, v, r, rfl, hk, hv⟩ := hclosed
    have hr := hv.rest_ne_nil (fun c => isSpace_of_isValue) hq
    refine .inr (.inl ⟨k, v, r, rfl, hv.nonempty, hr, fun w _ => ?_⟩)
    rw [List.append_assoc, List.append_assoc]
    exact assignment_found lawful hbefore hk (hv.append hr w)
  refine .inr (.inr ?_)
  rintro w ⟨c, cs, rfl, hvalue, hassign⟩
  rcases assignment_cases lawful before (q ++ c :: cs) with hnone | ⟨hbefore, k, v, rest, hs, hk, hv⟩
  · exact hnone
  · rcases List.append_eq_append_iff.mp hs with ⟨a, hka, hw⟩ | ⟨a, rfl, hva⟩
    · cases a with
      | nil =>
        rw [List.append_nil] at hka
        exact absurd ⟨hbefore, hka ▸ hk⟩ hopen
      | cons d ds =>
        obtain ⟨rfl, -⟩ := List.cons.inj hw
        exact absurd hka (labelled_within hk.labelled hq hne (isSpace_of_isValue hvalue) hassign)
    · rcases List.append_eq_append_iff.mp hva with ⟨b, rfl, hrest⟩ | ⟨b, rfl, -⟩
      · exact absurd ⟨hbefore, k, v, b, rfl, hk, (hrest ▸ hv).of_append⟩ hclosed
      · have ha : a = [] := (hq.suffix (List.suffix_append _ _)).eq_nil fun e he =>
          isSpace_of_isValue (hv.all e (List.mem_append_left _ he))
        subst ha
        rw [List.append_nil] at hopen
        exact absurd ⟨hbefore, hk⟩ hopen

/-- Before a word, either an assignment takes the word or the text is redacted on its own. -/
theorem assignment_before (lawful : unicode.Lawful) {s : List Char} (hs : EndsApart s) :
    (∃ out, ∀ v rest, BeginsWord (v ++ rest) → Run isValue v rest →
      (assignment unicode).sub none 0 (s ++ (v ++ rest)) = out ++ (redactedPresent.toList ++
        (assignment unicode).sub (lastOf none (s ++ v)) 0 rest)) ∨
    ∃ out, EndsApart out ∧ ∀ w, BeginsWord w →
      (assignment unicode).sub none 0 (s ++ w) =
        out ++ (assignment unicode).sub (lastOf none s) 0 w := by
  rcases sub_prefixed (fun before q hne hsuffix =>
      assignment_local lawful (hs.suffix hsuffix) hne before) none with
    ⟨p, q, out, rfl, ⟨hbefore, hq⟩, hout⟩ | ⟨out, hlast, hout⟩
  · refine .inl ⟨out ++ q, fun v rest hw hv => ?_⟩
    rw [hout _ hw, sub_of_find hv.nonempty (assignment_found lawful hbefore hq hv)]
    rw [← lastOf_append, ← List.append_assoc p q v, List.append_assoc out q]
    rfl
  · refine .inr ⟨out, ?_, hout⟩
    rw [EndsApart, hlast]
    exact hs

end Assignments

/-- A header that waits for its credentials, perhaps with a scheme already. -/
def Pending (q : List Char) : Prop :=
  Header q ∨ ∃ k sch gap, q = k ++ (sch ++ gap) ∧ Header k ∧ Scheme sch ∧ gap ≠ [] ∧
    ∀ c ∈ gap, isSpace c = true

section Headers

theorem isSpace_of_nonSpace {c : Char} (h : nonSpace c = true) : isSpace c = false := by
  simpa [nonSpace] using h

theorem nonSpace_of_isSpace {c : Char} (h : isSpace c = true) : nonSpace c = false := by
  simp [nonSpace, h]

theorem Scheme.nonSpace {sch : List Char} (h : Scheme sch) :
    ∀ c ∈ sch, Redaction.nonSpace c = true := by
  intro c hc
  simp [Redaction.nonSpace, isSpace_of_isName (isName_of_isLetter (h.letters.2 c hc))]

theorem not_schemed {v rest v' rest' : List Char} (hv : Run nonSpace v rest) (hscheme : ¬ Scheme v)
    (h : v ++ rest = v' ++ rest') : ¬ Schemed v' rest' := by
  rintro ⟨sch, gap, run, rfl, hsch, hgapNe, hgap, -⟩
  rw [List.append_assoc] at h
  have hstops : ∀ c ∈ (gap ++ run ++ rest').head?, nonSpace c = false := by
    intro c hc
    cases gap with
    | nil => exact absurd rfl hgapNe
    | cons d ds =>
      cases hc
      exact nonSpace_of_isSpace (hgap _ List.mem_cons_self)
  obtain ⟨rfl, -⟩ := split_unique hv.all hsch.nonSpace hv.stops hstops h
  exact hscheme hsch

theorem schemed_of_word {v s : List Char} {c : Char} (cs : List Char) (hscheme : Scheme v)
    (hne : s ≠ []) (hstart : StartsApart s) (hc : nonSpace c = true) :
    ∃ v' rest', v ++ (s ++ c :: cs) = v' ++ rest' ∧ Schemed v' rest' := by
  obtain ⟨d, ds, rfl⟩ := List.exists_cons_of_ne_nil hne
  obtain ⟨gap, rest, hgap, hrun⟩ :=
    exists_run (s := d :: ds ++ c :: cs) rfl (hstart d rfl)
  cases rest with
  | nil =>
    rw [List.append_nil] at hgap
    have hspace := hrun.all c (by rw [← hgap]; simp)
    rw [isSpace_of_nonSpace hc] at hspace
    cases hspace
  | cons e es =>
    have he : nonSpace e = true := by simp [nonSpace, hrun.stops e rfl]
    obtain ⟨run, rest', hword, hmaximal⟩ := exists_run (s := e :: es) rfl he
    refine ⟨v ++ (gap ++ run), rest', by simp [hgap, hword], v, gap, run, rfl, hscheme,
      hrun.nonempty, hrun.all, hmaximal⟩

/-- The credentials end before the end of the text. -/
def Settled (v r : List Char) : Prop := Schemed v r ∨ Run nonSpace v r ∧ ¬ Scheme v

theorem Settled.exists_run {v r : List Char} (h : Settled v r) :
    ∃ u run, v = u ++ run ∧ Run Redaction.nonSpace run r := by
  rcases h with ⟨sch, gap, run, rfl, -, -, -, hrun⟩ | ⟨hrun, -⟩
  · exact ⟨sch ++ gap, run, by simp, hrun⟩
  · exact ⟨[], v, rfl, hrun⟩

theorem Settled.credentials {v r : List Char} (h : Settled v r) (hr : r ≠ []) (w : List Char) :
    Credentials v (r ++ w) := by
  rcases h with ⟨sch, gap, run, rfl, hsch, hgapNe, hgap, hrun⟩ | ⟨hrun, hscheme⟩
  · exact .inl ⟨sch, gap, run, rfl, hsch, hgapNe, hgap, hrun.append hr w⟩
  · have hword := hrun.append hr w
    exact .inr ⟨hword, fun v' rest' heq => not_schemed hword hscheme heq⟩

/-- Credentials that begin in a text which ends with a space are settled there, or they are those of
a scheme at its end. -/
theorem credentials_within {a v rest : List Char} {c : Char} {cs : List Char}
    (hv : Credentials v rest) (ha : EndsApart a) (hne : a ≠ []) (hc : isSpace c = false)
    (h : v ++ rest = a ++ c :: cs) :
    (∃ r, a = v ++ r ∧ Settled v r) ∨ ∃ sch gap, a = sch ++ gap ∧ Scheme sch ∧ gap ≠ [] ∧
      ∀ c ∈ gap, isSpace c = true := by
  rcases List.append_eq_append_iff.mp h with ⟨b, rfl, hrest⟩ | ⟨b, hvb, hw⟩
  · left
    refine ⟨b, rfl, ?_⟩
    rcases hv with ⟨sch, gap, run, rfl, hsch, hgapNe, hgap, hrun⟩ | ⟨hrun, hplain⟩
    · exact .inl ⟨sch, gap, run, rfl, hsch, hgapNe, hgap, (hrest ▸ hrun).of_append⟩
    · have hrunb : Run nonSpace v b := (hrest ▸ hrun).of_append
      refine .inr ⟨hrunb, fun hscheme => ?_⟩
      have hb : b ≠ [] := hrunb.rest_ne_nil (k := []) (fun c => isSpace_of_nonSpace) ha
      have hstart : StartsApart b := by
        intro d hd
        simpa [nonSpace] using hrunb.stops d hd
      have hword : nonSpace c = true := by simp [nonSpace, hc]
      obtain ⟨v', rest', heq, hschemed⟩ := schemed_of_word cs hscheme hb hstart hword
      exact hplain v' rest' (by rw [hrest, heq]) hschemed
  · right
    have hnone : ∀ x : List Char, x <:+ a → (∀ d ∈ x, nonSpace d = true) → x = [] :=
      fun x hx hall => (ha.suffix hx).eq_nil fun d hd => isSpace_of_nonSpace (hall d hd)
    rcases hv with ⟨sch, gap, run, rfl, hsch, hgapNe, hgap, hrun⟩ | ⟨hrun, -⟩
    · refine ⟨sch, gap, ?_, hsch, hgapNe, hgap⟩
      rw [← List.append_assoc] at hvb
      rcases List.append_eq_append_iff.mp hvb with ⟨x, hax, hx⟩ | ⟨x, hax, hx⟩
      · have hnil : x = [] := hnone x ⟨_, hax.symm⟩ fun d hd =>
          hrun.all d (by rw [hx]; exact List.mem_append_left _ hd)
        rw [hax, hnil, List.append_nil]
      · cases x with
        | nil => rw [hax, List.append_nil]
        | cons e es =>
          rw [hx] at hw
          obtain ⟨rfl, -⟩ := List.cons.inj hw
          rcases List.append_eq_append_iff.mp hax with ⟨y, -, hy⟩ | ⟨y, hy, -⟩
          · rw [hgap c (by rw [hy]; simp)] at hc
            cases hc
          · have hnil : a = [] := hnone a (List.suffix_refl a) fun d hd =>
              hsch.nonSpace d (by rw [hy]; exact List.mem_append_left _ hd)
            exact absurd hnil hne
    · have hnil : a = [] := hnone a (List.suffix_refl a) fun d hd =>
        hrun.all d (by rw [hvb]; exact List.mem_append_left _ hd)
      exact absurd hnil hne

theorem header_local {q : List Char} (hq : EndsApart q) (hne : q ≠ []) (before : Option Char) :
    Pending q ∨ Closed authHeader BeginsWord before q ∨
      ∀ w, BeginsWord w → authHeader.find ⟨before, q ++ w⟩ = none := by
  by_cases hopen : Pending q
  · exact .inl hopen
  by_cases hclosed : ∃ k v r, q = k ++ (v ++ r) ∧ Header k ∧ Settled v r
  · obtain ⟨k, v, r, rfl, hk, hv⟩ := hclosed
    obtain ⟨u, run, rfl, hrun⟩ := hv.exists_run
    have hr : r ≠ [] := by
      refine hrun.rest_ne_nil (k := k ++ u) (fun c => isSpace_of_nonSpace) ?_
      simpa using hq
    have hvne : u ++ run ≠ [] := by simp [hrun.nonempty]
    refine .inr (.inl ⟨k, u ++ run, r, rfl, hvne, hr, fun w _ => ?_⟩)
    rw [List.append_assoc, List.append_assoc]
    exact header_found hk (hv.credentials hr w)
  refine .inr (.inr ?_)
  rintro w ⟨c, cs, rfl, hvalue, hassign⟩
  have hspace := isSpace_of_isValue hvalue
  rcases header_cases before (q ++ c :: cs) with hnone | ⟨k, v, rest, hs, hk, hv⟩
  · exact hnone
  · rcases List.append_eq_append_iff.mp hs with ⟨a, hka, hw⟩ | ⟨a, rfl, hva⟩
    · cases a with
      | nil =>
        rw [List.append_nil] at hka
        exact absurd (.inl (hka ▸ hk)) hopen
      | cons d ds =>
        obtain ⟨rfl, -⟩ := List.cons.inj hw
        exact absurd hka (labelled_within hk.labelled hq hne hspace hassign)
    · by_cases ha : a = []
      · rw [ha, List.append_nil] at hopen
        exact absurd (.inl hk) hopen
      · rcases credentials_within hv (hq.suffix (List.suffix_append _ _)) ha hspace hva with
          ⟨r, rfl, hsettled⟩ | ⟨sch, gap, rfl, hsch, hgapNe, hgap⟩
        · exact absurd ⟨k, v, r, rfl, hk, hsettled⟩ hclosed
        · exact absurd (.inr ⟨k, sch, gap, rfl, hk, hsch, hgapNe, hgap⟩) hopen

/-- Before a word, either a header takes the word or the text is redacted on its own. -/
theorem header_before {s : List Char} (hs : EndsApart s) :
    (∃ p q out, s = p ++ q ∧ Pending q ∧ ∀ v rest, BeginsWord (v ++ rest) → Run nonSpace v rest →
      ¬ Scheme v → authHeader.sub none 0 (s ++ (v ++ rest)) = out ++ (redactedPresent.toList ++
        authHeader.sub (lastOf none (s ++ v)) 0 rest)) ∨
    ∃ out, EndsApart out ∧ ∀ w, BeginsWord w →
      authHeader.sub none 0 (s ++ w) = out ++ authHeader.sub (lastOf none s) 0 w := by
  have hlocal : ∀ before q, q ≠ [] → q <:+ s → Pending q ∨ Closed authHeader BeginsWord before q ∨
      ∀ w, BeginsWord w → authHeader.find ⟨before, q ++ w⟩ = none :=
    fun before q hne hsuffix => header_local (hs.suffix hsuffix) hne before
  rcases sub_prefixed hlocal none with ⟨p, q, out, rfl, hq, hout⟩ | ⟨out, hlast, hout⟩
  · left
    rcases hq with hq | ⟨k, sch, gap, rfl, hk, hsch, hgapNe, hgap⟩
    · refine ⟨p, q, out ++ q, rfl, .inl hq, fun v rest hw hv hscheme => ?_⟩
      have hcredentials : Credentials v rest :=
        .inr ⟨hv, fun v' rest' heq => not_schemed hv hscheme heq⟩
      rw [hout _ hw, sub_of_find hv.nonempty (header_found hq hcredentials)]
      rw [← lastOf_append, ← List.append_assoc p q v, List.append_assoc out q]
      rfl
    · refine ⟨p, k ++ (sch ++ gap), out ++ k, rfl, .inr ⟨k, sch, gap, rfl, hk, hsch, hgapNe, hgap⟩,
        fun v rest hw hv _ => ?_⟩
      have hcredentials : Credentials (sch ++ (gap ++ v)) rest :=
        .inl ⟨sch, gap, v, rfl, hsch, hgapNe, hgap, hv⟩
      have hne : sch ++ (gap ++ v) ≠ [] := by simp [hgapNe]
      have hfound : authHeader.sub (lastOf none p) 0 (k ++ (sch ++ (gap ++ v) ++ rest)) = _ :=
        sub_of_find hne (header_found hk hcredentials)
      have htext : k ++ (sch ++ gap) ++ (v ++ rest) = k ++ (sch ++ (gap ++ v) ++ rest) := by simp
      have hlast : lastOf none (p ++ (k ++ (sch ++ gap)) ++ v) =
          lastOf (lastOf none p) (k ++ (sch ++ (gap ++ v))) := by
        rw [← lastOf_append]
        simp
      rw [hout _ hw, htext, hfound, hlast, List.append_assoc out k]
      rfl
  · refine .inr ⟨out, ?_, hout⟩
    rw [EndsApart, hlast]
    exact hs

end Headers

section Urls

theorem isSpace_of_isScheme {c : Char} (h : isScheme c = true) : isSpace c = false := by
  by_contra hspace
  rw [Bool.not_eq_false] at hspace
  rw [isSpace_cases (P := fun c => isScheme c = false) hspace (by decide)] at h
  cases h

theorem isSpace_of_isCredential {c : Char} (h : isCredential c = true) : isSpace c = false := by
  simp only [isCredential, Bool.and_eq_true, Bool.not_eq_true'] at h
  exact h.2

theorem isScheme_of_isLetter {c : Char} (h : isLetter c = true) : isScheme c = true := by
  simp [isScheme, h]

theorem UrlStart.nonSpace {k : List Char} (h : UrlStart k) : ∀ c ∈ k, isSpace c = false := by
  obtain ⟨l, sch, rfl, hl, hsch⟩ := h
  have hseparator : ∀ c ∈ "://".toList, isSpace c = false := by decide
  intro c hc
  rcases List.mem_cons.mp hc with rfl | hc
  · exact isSpace_of_isScheme (isScheme_of_isLetter hl)
  · rcases List.mem_append.mp hc with hc | hc
    · exact isSpace_of_isScheme (hsch c hc)
    · exact hseparator c hc

theorem UserInfo.nonSpace {v : List Char} (h : UserInfo v) : ∀ c ∈ v, isSpace c = false := by
  obtain ⟨cred, rfl, -, hcred⟩ := h
  intro c hc
  rcases List.mem_append.mp hc with hc | hc
  · exact isSpace_of_isCredential (hcred c hc)
  · rw [List.mem_singleton.mp hc]
    decide

theorem UserInfo.ne_nil {v : List Char} (h : UserInfo v) : v ≠ [] := by
  obtain ⟨cred, rfl, -⟩ := h
  simp

theorem url_local {q : List Char} (hq : EndsApart q) (hne : q ≠ []) (before : Option Char) :
    Closed urlCredentials (fun _ => True) before q ∨
      ∀ w, True → urlCredentials.find ⟨before, q ++ w⟩ = none := by
  by_cases hclosed : ∃ k v r, q = k ++ (v ++ r) ∧ UrlStart k ∧ UserInfo v
  · obtain ⟨k, v, r, rfl, hk, hv⟩ := hclosed
    have hr : r ≠ [] := by
      rintro rfl
      rw [List.append_nil] at hq
      exact hv.ne_nil ((hq.suffix (List.suffix_append _ _)).eq_nil hv.nonSpace)
    refine .inl ⟨k, v, r, rfl, hv.ne_nil, hr, fun w _ => ?_⟩
    rw [List.append_assoc, List.append_assoc]
    exact url_found hk hv
  · right
    intro w _
    rcases url_cases before (q ++ w) with hnone | ⟨k, v, rest, hs, hk, hv⟩
    · exact hnone
    · rw [← List.append_assoc] at hs
      rcases List.append_eq_append_iff.mp hs with ⟨a, hkv, -⟩ | ⟨a, rfl, -⟩
      · have hnil : q = [] := hq.eq_nil fun c hc => by
          have hmem : c ∈ k ++ v := by
            rw [hkv]
            exact List.mem_append_left _ hc
          rcases List.mem_append.mp hmem with hc | hc
          · exact hk.nonSpace c hc
          · exact hv.nonSpace c hc
        exact absurd hnil hne
      · exact absurd ⟨k, v, a, by rw [List.append_assoc], hk, hv⟩ hclosed

/-- Before anything else, the text is redacted on its own. -/
theorem url_before {s : List Char} (hs : EndsApart s) : ∃ out, EndsApart out ∧ ∀ w,
    urlCredentials.sub none 0 (s ++ w) = out ++ urlCredentials.sub (lastOf none s) 0 w := by
  have hlocal : ∀ before q, q ≠ [] → q <:+ s → False ∨
      Closed urlCredentials (fun _ => True) before q ∨
        ∀ w, True → urlCredentials.find ⟨before, q ++ w⟩ = none :=
    fun before q hne hsuffix => .inr (url_local (hs.suffix hsuffix) hne before)
  rcases sub_prefixed hlocal none with ⟨p, q, out, hs, hfalse, hout⟩ | ⟨out, hlast, hout⟩
  · exact hfalse.elim
  · refine ⟨out, ?_, fun w => hout w trivial⟩
    rw [EndsApart, hlast]
    exact hs

end Urls

end EveTrade.Redaction
