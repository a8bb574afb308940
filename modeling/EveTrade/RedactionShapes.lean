import EveTrade.RedactionContext

set_option autoImplicit false

/-!
# Credentials in the redacted shapes

A credential in one of the shapes that `redact_text` is made for leaves no trace if the output is the
same for every credential in its place. That holds for assignments with an equals sign and for URLs.
With a colon it holds unless the text before takes the name for the value of an assignment of its
own, and behind the name of a scheme it never holds: the first substitution takes the name of the
scheme for the value of the header.
-/
namespace EveTrade.Redaction

open RegexText

/-- The shapes with a credential: `NAME=c`, `NAME: c`, `Authorization: c`, the same with the name of
a scheme before the credential, and `scheme://c@host`. -/
inductive Shape where
  | assigned (name : List Char)
  | labelled (name : List Char)
  | header
  | bearer
  | basic
  | url (scheme host : List Char)

def Shape.text : Shape → List Char → List Char
  | .assigned name, c => name ++ ("=".toList ++ c)
  | .labelled name, c => name ++ (": ".toList ++ c)
  | .header, c => "Authorization: ".toList ++ c
  | .bearer, c => "Authorization: Bearer ".toList ++ c
  | .basic, c => "Authorization: Basic ".toList ++ c
  | .url scheme host, c => scheme ++ ("://".toList ++ (c ++ '@' :: host))

def isIdentifier (c : Char) : Bool := c.isAlphanum || c == '_'

/-- An identifier with a sensitive word in it. -/
def SensitiveName (name : List Char) : Prop :=
  (∀ c ∈ name, isIdentifier c = true) ∧ (∀ c ∈ name.head?, c.isDigit = false) ∧
    ∃ part ∈ sensitiveKeyParts, part.toList <:+: name.map Char.toUpper

def UrlScheme (scheme : List Char) : Prop :=
  (∃ c ∈ scheme.head?, c.isAlpha = true) ∧
    ∀ c ∈ scheme, c.isAlphanum = true ∨ c = '+' ∨ c = '.' ∨ c = '-'

def Shape.Valid : Shape → Prop
  | .assigned name => SensitiveName name
  | .labelled name => SensitiveName name
  | .url scheme host => UrlScheme scheme ∧ ∀ c ∈ host, isSpace c = false
  | _ => True

def Credential (c : List Char) : Prop :=
  c ≠ [] ∧ ∀ d ∈ c, d.isAlphanum = true ∨ d = '.' ∨ d = '-' ∨ d = '_'

/-- A word behind the text is taken for the value of an assignment. -/
def TakesNext (unicode : Unicode) (s : List Char) : Prop :=
  ((assignment unicode).sub none 0 (s ++ ['x'])).getLast? ≠ some 'x'

/-- When the credential in a shape leaves no trace behind a text. -/
def Shape.Redacted (unicode : Unicode) (before : List Char) : Shape → Prop
  | .assigned _ => True
  | .labelled _ => ¬ TakesNext unicode before
  | .header => ¬ TakesNext unicode before
  | .bearer => False
  | .basic => False
  | .url _ _ => True

section Characters

variable {c : Char}

theorem ascii_induction {P : Char → Prop} (h : ∀ n < 128, P (Char.ofNat n))
    (hc : c.toNat < 128) : P c := by
  rw [← Char.ofNat_toNat c]
  exact h _ hc

theorem isAlphanum_ascii (h : c.isAlphanum = true) : c.toNat < 128 := by
  have hbound : ∀ d : Char, d.toNat < 128 → c.val ≤ d.val → c.toNat < 128 :=
    fun d hd hle => lt_of_le_of_lt (UInt32.le_iff_toNat_le.mp hle) hd
  simp only [Char.isAlphanum, Char.isAlpha, Char.isUpper, Char.isLower, Char.isDigit,
    Bool.or_eq_true, Bool.and_eq_true, decide_eq_true_eq] at h
  rcases h with (⟨-, h⟩ | ⟨-, h⟩) | ⟨-, h⟩
  · exact hbound 'Z' (by decide) h
  · exact hbound 'z' (by decide) h
  · exact hbound '9' (by decide) h

def isCredentialChar (c : Char) : Bool := c.isAlphanum || c == '.' || c == '-' || c == '_'

theorem isCredentialChar_ascii (h : isCredentialChar c = true) : c.toNat < 128 := by
  simp only [isCredentialChar, Bool.or_eq_true, beq_iff_eq] at h
  rcases h with ((h | rfl) | rfl) | rfl
  · exact isAlphanum_ascii h
  all_goals decide

theorem credentialChar_classes (h : isCredentialChar c = true) :
    isValue c = true ∧ isAssign c = false ∧ isCredential c = true := by
  have hall : ∀ n < 128, isCredentialChar (Char.ofNat n) = true →
      isValue (Char.ofNat n) = true ∧ isAssign (Char.ofNat n) = false ∧
        isCredential (Char.ofNat n) = true := by decide +kernel
  exact ascii_induction (P := fun c => isCredentialChar c = true → isValue c = true ∧
    isAssign c = false ∧ isCredential c = true) hall (isCredentialChar_ascii h) h

theorem Credential.chars {c : List Char} (h : Credential c) : ∀ d ∈ c, isCredentialChar d = true := by
  intro d hd
  rcases h.2 d hd with h | rfl | rfl | rfl
  · simp [isCredentialChar, h]
  all_goals decide

theorem identifier_classes (h : isIdentifier c = true) :
    isName c = true ∧ isValue c = true ∧ isAssign c = false ∧ alike c.toUpper c = true := by
  have hascii : c.toNat < 128 := by
    simp only [isIdentifier, Bool.or_eq_true, beq_iff_eq] at h
    rcases h with h | rfl
    · exact isAlphanum_ascii h
    · decide
  have hall : ∀ n < 128, isIdentifier (Char.ofNat n) = true →
      isName (Char.ofNat n) = true ∧ isValue (Char.ofNat n) = true ∧
        isAssign (Char.ofNat n) = false ∧ alike (Char.ofNat n).toUpper (Char.ofNat n) = true := by
    decide +kernel
  exact ascii_induction (P := fun c => isIdentifier c = true → isName c = true ∧ isValue c = true ∧
    isAssign c = false ∧ alike c.toUpper c = true) hall hascii h

theorem schemeChar_classes (h : c.isAlphanum = true ∨ c = '+' ∨ c = '.' ∨ c = '-') :
    isScheme c = true := by
  rcases h with h | rfl | rfl | rfl
  · have hall : ∀ n < 128, (Char.ofNat n).isAlphanum = true → isScheme (Char.ofNat n) = true := by
      decide +kernel
    exact ascii_induction (P := fun c => c.isAlphanum = true → isScheme c = true) hall
      (isAlphanum_ascii h) h
  all_goals decide

theorem isLetter_of_isAlpha (h : c.isAlpha = true) : isLetter c = true := by
  have hascii : c.toNat < 128 := isAlphanum_ascii (by simp [Char.isAlphanum, h])
  have hall : ∀ n < 128, (Char.ofNat n).isAlpha = true → isLetter (Char.ofNat n) = true := by
    decide +kernel
  exact ascii_induction (P := fun c => c.isAlpha = true → isLetter c = true) hall hascii h

theorem isScheme_classes (h : isScheme c = true) : isAssign c = false := by
  by_contra hassign
  rw [Bool.not_eq_false] at hassign
  rcases isAssign_iff.mp hassign with rfl | rfl <;> exact absurd h (by decide)

theorem SensitiveName.named {name : List Char} (h : SensitiveName name) : Named name := by
  obtain ⟨hname, -, part, hpart, x, y, hxy⟩ := h
  refine ⟨fun c hc => (identifier_classes (hname c hc)).1, part, hpart, ?_⟩
  obtain ⟨ab, b, rfl, hab, hb⟩ := List.map_eq_append_iff.mp hxy.symm
  obtain ⟨a, w, rfl, ha, hw⟩ := List.map_eq_append_iff.mp hab
  refine ⟨a, w, b, by simp, ?_⟩
  rw [← hw, List.forall₂_map_left_iff, List.forall₂_same]
  exact fun c hc => (identifier_classes (hname c (by simp [hc]))).2.2.2

end Characters

section Spaces

variable {unicode : Unicode}

def SkipsSpaces (rule : Rule Char) : Prop :=
  ∀ before c cs, isSpace c = true → rule.find ⟨before, c :: cs⟩ = none

theorem labelled_head {k s cs : List Char} {c : Char} (hk : Labelled k) (h : c :: cs = k ++ s) :
    isName c = true := by
  obtain ⟨name, gap, d, gap', rfl, hne, hname, -⟩ := hk
  cases name with
  | nil => exact absurd rfl hne
  | cons e es =>
    obtain ⟨rfl, -⟩ := List.cons.inj h
    exact hname _ List.mem_cons_self

theorem assignment_none_of_head (lawful : unicode.Lawful) {before : Option Char} {c : Char}
    {cs : List Char} (hc : isName c = false) :
    (assignment unicode).find ⟨before, c :: cs⟩ = none := by
  rcases assignment_cases lawful before (c :: cs) with hnone | ⟨-, k, v, rest, hs, hk, -⟩
  · exact hnone
  · rw [labelled_head hk.labelled hs] at hc
    cases hc

theorem header_none_of_head {before : Option Char} {c : Char} {cs : List Char}
    (hc : isName c = false) : authHeader.find ⟨before, c :: cs⟩ = none := by
  rcases header_cases before (c :: cs) with hnone | ⟨k, v, rest, hs, hk, -⟩
  · exact hnone
  · rw [labelled_head hk.labelled hs] at hc
    cases hc

theorem assignment_skipsSpaces (lawful : unicode.Lawful) : SkipsSpaces (assignment unicode) :=
  fun _ _ _ hc => assignment_none_of_head lawful (isName_of_isSpace hc)

theorem header_skipsSpaces : SkipsSpaces authHeader :=
  fun _ _ _ hc => header_none_of_head (isName_of_isSpace hc)

theorem url_skipsSpaces : SkipsSpaces urlCredentials := by
  intro before c cs hc
  rcases url_cases before (c :: cs) with hnone | ⟨k, v, rest, hs, hk, -⟩
  · exact hnone
  · have hmem : c ∈ k := by
      obtain ⟨l, sch, rfl, -⟩ := hk
      obtain ⟨rfl, -⟩ := List.cons.inj hs
      exact List.mem_cons_self
    rw [hk.nonSpace c hmem] at hc
    cases hc

/-- What begins with a space is redacted alike whatever comes before it. -/
theorem sub_apart {rule : Rule Char} (hrule : SkipsSpaces rule) {s : List Char}
    (hs : StartsApart s) (before : Option Char) :
    rule.sub before 0 s = rule.sub none 0 s ∧ StartsApart (rule.sub none 0 s) := by
  cases s with
  | nil => exact ⟨rfl, fun c hc => nomatch hc⟩
  | cons c cs =>
    have hc : isSpace c = true := hs c rfl
    rw [sub_of_none (hrule before c cs hc), sub_of_none (hrule none c cs hc)]
    refine ⟨rfl, ?_⟩
    intro d hd
    cases hd
    exact hc

end Spaces

section Leaks

def Marked (s : List Char) : Prop :=
  EndsApart s ∧ ∃ a z, s = a ++ '>' :: z ∧ ∀ c ∈ z, isSpace c = true ∨ isLetter c = true

def Survives (f : Char → List Char) : Prop :=
  ∃ a r, EndsApart a ∧ StartsApart r ∧ ∀ c, isLetter c = true → f c = a ++ c :: r

theorem Pending.sign {q : List Char} (h : Pending q) :
    ∃ x y, q = x ++ ':' :: y ∧ ∀ c ∈ y, isSpace c = true ∨ isLetter c = true := by
  rcases h with ⟨a, gap, gap', rfl, -, -, hgap'⟩ | ⟨k, sch, space, rfl, hk, hsch, -, hspace⟩
  · exact ⟨a ++ gap, gap', by simp, fun c hc => .inl (hgap' c hc)⟩
  · obtain ⟨a, gap, gap', rfl, -, -, hgap'⟩ := hk
    refine ⟨a ++ gap, gap' ++ (sch ++ space), by simp, ?_⟩
    intro c hc
    rcases List.mem_append.mp hc with hc | hc
    · exact .inl (hgap' c hc)
    · rcases List.mem_append.mp hc with hc | hc
      · exact .inr (hsch.letters.2 c hc)
      · exact .inl (hspace c hc)

theorem Marked.not_pending {p q : List Char} (h : Marked (p ++ q)) : ¬ Pending q := by
  intro hq
  obtain ⟨x, y, rfl, hy⟩ := hq.sign
  obtain ⟨-, a, z, heq, hz⟩ := h
  rw [← List.append_assoc] at heq
  have hsame : ':' = '>' := by
    refine last_unique (p := fun c => isSpace c || isLetter c) ?_ ?_ (by decide) (by decide) heq
    · exact fun c hc => (Bool.or_eq_true _ _).mpr (hy c hc)
    · exact fun c hc => (Bool.or_eq_true _ _).mpr (hz c hc)
  exact absurd hsame (by decide)

theorem beginsWord_letter {c : Char} (hc : isLetter c = true) (s : List Char) :
    BeginsWord (c :: s) := by
  have hne : ∀ d, isLetter d = false → c ≠ d := by
    rintro d hd rfl
    rw [hc] at hd
    cases hd
  refine ⟨c, s, rfl, ?_, ?_⟩
  · have hspace := isSpace_of_isName (isName_of_isLetter hc)
    simp [isValue, hspace, hne ',' (by decide), hne ';' (by decide)]
  · simp [isAssign, hne '=' (by decide), hne ':' (by decide)]

theorem header_none_of_single {before : Option Char} {c : Char} {r : List Char}
    (hr : StartsApart r) : authHeader.find ⟨before, c :: r⟩ = none := by
  rcases header_cases before (c :: r) with hnone | ⟨k, v, rest, hs, ⟨a, gap, gap', rfl, ha, -⟩, -⟩
  · exact hnone
  · have hletters := isLetter_of_alike (by decide) ha
    cases ha with
    | cons _ ha =>
    cases ha with
    | @cons _ d _ ds _ _ =>
    obtain ⟨-, rfl⟩ := List.cons.inj hs
    have hspace := hr d rfl
    rw [isSpace_of_isName (isName_of_isLetter (hletters d (by simp)))] at hspace
    cases hspace

theorem url_none_of_single {before : Option Char} {c : Char} {r : List Char}
    (hr : StartsApart r) : urlCredentials.find ⟨before, c :: r⟩ = none := by
  rcases url_cases before (c :: r) with hnone | ⟨k, v, rest, hs, hk, -⟩
  · exact hnone
  · have hnonSpace := hk.nonSpace
    obtain ⟨l, sch, rfl, -⟩ := hk
    obtain ⟨-, rfl⟩ := List.cons.inj hs
    cases hsch : sch ++ "://".toList with
    | nil => simp at hsch
    | cons e es =>
      rw [hsch] at hr hnonSpace
      have hspace := hr e rfl
      rw [hnonSpace e (by simp)] at hspace
      cases hspace

theorem header_survives {s r : List Char} (hs : Marked s) (hr : StartsApart r) :
    Survives fun c => authHeader.sub none 0 (s ++ c :: r) := by
  rcases header_before hs.1 with ⟨p, q, out, rfl, hq, -⟩ | ⟨out, hout, hsub⟩
  · exact absurd hq hs.not_pending
  · obtain ⟨-, hapart⟩ := sub_apart header_skipsSpaces hr none
    refine ⟨out, authHeader.sub none 0 r, hout, hapart, fun c hc => ?_⟩
    have hnext := (sub_apart header_skipsSpaces hr (some c)).1
    simp only [hsub _ (beginsWord_letter hc r), sub_of_none (header_none_of_single hr), hnext]

theorem url_survives {f : Char → List Char} (h : Survives f) :
    Survives fun c => urlCredentials.sub none 0 (f c) := by
  obtain ⟨a, r, ha, hr, hf⟩ := h
  obtain ⟨out, hout, hsub⟩ := url_before ha
  obtain ⟨-, hapart⟩ := sub_apart url_skipsSpaces hr none
  refine ⟨out, urlCredentials.sub none 0 r, hout, hapart, fun c hc => ?_⟩
  have hnext := (sub_apart url_skipsSpaces hr (some c)).1
  simp only [hf c hc, hsub, sub_of_none (url_none_of_single hr), hnext]

end Leaks

section Assignments

variable {unicode : Unicode}

theorem wordAt_apart (lawful : unicode.Lawful) {s : List Char} (hs : EndsApart s) :
    wordAt (isWord unicode) (lastOf none s) = false := by
  by_cases hne : s = []
  · subst hne
    rfl
  · obtain ⟨t, c, rfl, hc⟩ := hs.exists_space hne
    rw [lastOf_concat]
    exact isWord_of_isSpace lawful hc

theorem not_named {name : List Char} (h : ∀ part ∈ sensitiveKeyParts,
    ¬ part.toList.map caseless <:+: name.map caseless) : ¬ Named name := by
  rintro ⟨-, part, hpart, a, w, b, rfl, hw⟩
  have hsame : part.toList.map caseless = w.map caseless := by
    rw [← List.forall₂_eq_eq_eq, List.forall₂_map_left_iff, List.forall₂_map_right_iff]
    exact hw.imp fun c d hcd => by simpa [alike] using hcd
  refine h part hpart ⟨a.map caseless, b.map caseless, ?_⟩
  rw [hsame]
  simp

theorem sensitive_length : ∀ part ∈ sensitiveKeyParts, 1 < part.toList.length := by decide

theorem not_named_single (c : Char) : ¬ Named [c] := by
  refine not_named fun part hpart hinfix => ?_
  have hlength := hinfix.length_le
  have hlong := sensitive_length part hpart
  simp only [List.length_map, List.length_singleton] at hlength
  omega

theorem run_apart {p : Char → Bool} (hp : ∀ c, isSpace c = true → p c = false) {v s : List Char}
    (hne : v ≠ []) (hv : ∀ c ∈ v, p c = true) (hs : StartsApart s) : Run p v s :=
  ⟨hne, hv, fun c hc => hp c (hs c hc)⟩

theorem isValue_of_isSpace (c : Char) (h : isSpace c = true) : isValue c = false := by
  simp [isValue, h]

theorem sub_word (lawful : unicode.Lawful) {t s : List Char} (ht : ∀ c ∈ t, isName c = true)
    (hnamed : ¬ Named t) (hs : StartsApart s) (before : Option Char) :
    (assignment unicode).sub before 0 (t ++ s) =
      t ++ (assignment unicode).sub (lastOf before t) 0 s := by
  refine sub_of_no_match fun p c q hq => ?_
  rcases assignment_cases lawful (lastOf before p) (c :: (q ++ s)) with
    hnone | ⟨hbefore, k, v, rest, htext, hk, -⟩
  · exact hnone
  · exfalso
    by_cases hp : p = []
    · subst hp
      obtain ⟨name, gap, d, gap', rfl, hname, hgap, hd, -⟩ := hk
      have htext : t ++ s = name ++ (gap ++ d :: (gap' ++ (v ++ rest))) := by
        rw [hq]
        simpa using htext
      have hstop : ∀ e ∈ s.head?, isName e = false := fun e he => isName_of_isSpace (hs e he)
      have hnext : ∀ e ∈ (gap ++ d :: (gap' ++ (v ++ rest))).head?, isName e = false := by
        intro e he
        rcases labelled_next hgap hd _ e he with he | he
        · exact isName_of_isSpace he
        · exact isName_of_isAssign he
      obtain ⟨rfl, -⟩ := split_unique ht hname.1 hstop hnext htext
      exact hnamed hname
    · have hword := wordAt_lastOf lawful hp (fun e he => ht e (by rw [hq]; simp [he])) before
      rw [hword] at hbefore
      cases hbefore

/-- Before a word either the text takes the next word or it is redacted on its own. -/
theorem takesNext_cases (lawful : unicode.Lawful) {s : List Char} (hs : EndsApart s) :
    (TakesNext unicode s ∧ ∃ out, ∀ v rest, BeginsWord (v ++ rest) → Run isValue v rest →
      (assignment unicode).sub none 0 (s ++ (v ++ rest)) = out ++ (redactedPresent.toList ++
        (assignment unicode).sub (lastOf none (s ++ v)) 0 rest)) ∨
    (¬ TakesNext unicode s ∧ ∃ out, EndsApart out ∧ ∀ w, BeginsWord w →
      (assignment unicode).sub none 0 (s ++ w) =
        out ++ (assignment unicode).sub (lastOf none s) 0 w) := by
  have hx : BeginsWord ['x'] := beginsWord_letter (by decide) []
  rcases assignment_before lawful hs with ⟨out, hout⟩ | ⟨out, hapart, hout⟩
  · refine .inl ⟨?_, out, hout⟩
    have hrun : Run isValue ['x'] [] := ⟨by simp, by decide, by simp⟩
    have hsub := hout ['x'] [] hx hrun
    rw [TakesNext, ← List.append_nil ['x'], hsub, Rule.sub, List.append_nil,
      List.getLast?_append_of_ne_nil _ (by decide)]
    decide
  · refine .inr ⟨?_, out, hapart, hout⟩
    have hword := sub_word lawful (t := ['x']) (s := []) (by decide) (not_named_single 'x')
      (by intro c hc; cases hc) (lastOf none s)
    rw [List.append_nil, Rule.sub, List.append_nil] at hword
    rw [TakesNext, hout _ hx, hword, not_not, List.getLast?_append_of_ne_nil _ (by simp)]
    rfl

end Assignments

section Shapes

variable {unicode : Unicode}
variable {name : List Char}

theorem text_assigned (name c : List Char) : (Shape.assigned name).text c = name ++ '=' :: c := rfl

theorem text_labelled (name c : List Char) :
    (Shape.labelled name).text c = name ++ ':' :: ' ' :: c := rfl

theorem Credential.values (c : List Char) (h : Credential c) : ∀ d ∈ c, isValue d = true :=
  fun d hd => (credentialChar_classes (h.chars d hd)).1

theorem Credential.nonSpaces (c : List Char) (h : Credential c) : ∀ d ∈ c, nonSpace d = true := by
  intro d hd
  simp [nonSpace, isSpace_of_isValue (Credential.values c h d hd)]

theorem Credential.run {c : List Char} (h : Credential c) {after : List Char}
    (hafter : StartsApart after) : Run isValue c after :=
  run_apart isValue_of_isSpace h.1 (Credential.values c h) hafter

theorem SensitiveName.beginsWord (h : SensitiveName name) (s : List Char) :
    BeginsWord (name ++ s) := by
  have hne := h.named.ne_nil
  cases name with
  | nil => exact absurd rfl hne
  | cons c cs =>
    have hclasses := identifier_classes (h.1 c List.mem_cons_self)
    exact ⟨c, cs ++ s, rfl, hclasses.2.1, hclasses.2.2.1⟩

theorem SensitiveName.values (h : SensitiveName name) :
    ∀ c ∈ name, isValue c = true := fun c hc => (identifier_classes (h.1 c hc)).2.1

theorem SensitiveName.opening (h : SensitiveName name) (d : Char)
    (gap : List Char) (hd : isAssign d = true) (hgap : ∀ c ∈ gap, isSpace c = true) :
    Opening (name ++ d :: gap) :=
  ⟨name, [], d, gap, rfl, h.named, by simp, hd, hgap⟩

theorem opening_redacted (lawful : unicode.Lawful) {s k after : List Char} (hs : EndsApart s)
    (hafter : StartsApart after) (hk : Opening k) (hword : ∀ w, BeginsWord (k ++ w))
    (htakes : ¬ TakesNext unicode s) : ∃ o, ∀ c, Credential c →
      (assignment unicode).sub none 0 (s ++ (k ++ (c ++ after))) = o := by
  rcases takesNext_cases lawful hs with ⟨htaken, -⟩ | ⟨-, out, -, hout⟩
  · exact absurd htaken htakes
  · refine ⟨out ++ (k ++ (redactedPresent.toList ++ (assignment unicode).sub none 0 after)), ?_⟩
    intro c hc
    have hrun := hc.run hafter
    rw [hout _ (hword _), sub_of_find hrun.nonempty
      (assignment_found lawful (wordAt_apart lawful hs) hk hrun),
      (sub_apart (assignment_skipsSpaces lawful) hafter _).1]
    rfl

theorem assigned_redacted (lawful : unicode.Lawful) {s name after : List Char} (hs : EndsApart s)
    (hafter : StartsApart after) (hname : SensitiveName name) : ∃ o, ∀ c, Credential c →
      (assignment unicode).sub none 0 (s ++ ((Shape.assigned name).text c ++ after)) = o := by
  have htext : ∀ c, (Shape.assigned name).text c ++ after = name ++ ['='] ++ (c ++ after) := by
    intro c
    simp [text_assigned]
  rcases takesNext_cases lawful hs with ⟨-, out, hout⟩ | ⟨htakes, -⟩
  · refine ⟨out ++ (redactedPresent.toList ++ (assignment unicode).sub none 0 after), ?_⟩
    intro c hc
    have hvalues : ∀ d ∈ (Shape.assigned name).text c, isValue d = true := by
      intro d hd
      rcases List.mem_append.mp hd with hd | hd
      · exact hname.values d hd
      · rcases List.mem_cons.mp hd with rfl | hd
        · decide
        · exact (hc.run hafter).all d hd
    have hrun : Run isValue ((Shape.assigned name).text c) after :=
      run_apart isValue_of_isSpace (by simp [text_assigned]) hvalues hafter
    have hword : BeginsWord ((Shape.assigned name).text c ++ after) := by
      rw [htext, List.append_assoc]
      exact hname.beginsWord _
    rw [hout _ _ hword hrun, (sub_apart (assignment_skipsSpaces lawful) hafter _).1]
  · obtain ⟨o, ho⟩ := opening_redacted lawful hs hafter
      (hname.opening '=' [] (by decide) (by simp))
      (fun w => by rw [List.append_assoc]; exact hname.beginsWord _) htakes
    exact ⟨o, fun c hc => by rw [htext]; exact ho c hc⟩

/-- A letter behind a redaction survives the first substitution. -/
def SurvivesMark (f : Char → List Char) : Prop :=
  ∃ a r, Marked a ∧ StartsApart r ∧ ∀ c, isLetter c = true → f c = a ++ c :: r

theorem marked_words {out words : List Char} (hapart : EndsApart words) (hne : words ≠ [])
    (hwords : ∀ c ∈ words, isSpace c = true ∨ isLetter c = true) :
    Marked (out ++ (redactedPresent.toList ++ words)) := by
  refine ⟨?_, out ++ "<redacted:present".toList, words, ?_, hwords⟩
  · rw [EndsApart, ← List.append_assoc, List.getLast?_append_of_ne_nil _ hne]
    exact hapart
  · have hmark : redactedPresent.toList = "<redacted:present".toList ++ ['>'] := by decide
    rw [hmark]
    simp

theorem sub_letter (lawful : unicode.Lawful) {c : Char} (hc : isLetter c = true) {after : List Char}
    (hafter : StartsApart after) (before : Option Char) :
    (assignment unicode).sub before 0 (' ' :: c :: after) =
      ' ' :: c :: (assignment unicode).sub none 0 after := by
  have hname : ∀ d ∈ [c], isName d = true := by
    intro d hd
    rw [List.mem_singleton.mp hd]
    exact isName_of_isLetter hc
  have hword := sub_word lawful hname (not_named_single c) hafter (some ' ')
  rw [sub_of_none (assignment_skipsSpaces lawful before ' ' _ (by decide))]
  rw [← List.singleton_append (x := c), hword, (sub_apart (assignment_skipsSpaces lawful) hafter _).1]
  rfl

theorem taken_survives (lawful : unicode.Lawful) {s name after : List Char} (hs : EndsApart s)
    (hafter : StartsApart after) (hname : SensitiveName name) (htakes : TakesNext unicode s) :
    SurvivesMark fun c => (assignment unicode).sub none 0
      (s ++ ((Shape.labelled name).text [c] ++ after)) := by
  rcases takesNext_cases lawful hs with ⟨-, out, hout⟩ | ⟨hfree, -⟩
  · obtain ⟨-, hapart⟩ := sub_apart (assignment_skipsSpaces lawful) hafter none
    refine ⟨out ++ (redactedPresent.toList ++ [' ']), (assignment unicode).sub none 0 after, ?_,
      hapart, fun c hc => ?_⟩
    · exact marked_words (fun c hc => by cases hc; decide) (by simp) (by decide)
    · have hvalues : ∀ d ∈ name ++ [':'], isValue d = true := by
        intro d hd
        rcases List.mem_append.mp hd with hd | hd
        · exact hname.values d hd
        · rw [List.mem_singleton.mp hd]
          decide
      have hrun : Run isValue (name ++ [':']) (' ' :: c :: after) :=
        run_apart isValue_of_isSpace (by simp) hvalues (fun d hd => by cases hd; decide)
      have hword : BeginsWord (name ++ [':'] ++ ' ' :: c :: after) := by
        rw [List.append_assoc]
        exact hname.beginsWord _
      have htext : (Shape.labelled name).text [c] ++ after = name ++ [':'] ++ ' ' :: c :: after := by
        simp [text_labelled]
      simp only [htext, hout _ _ hword hrun, sub_letter lawful hc hafter]
      simp
  · exact absurd htakes hfree

theorem sensitiveName_authorization : SensitiveName "Authorization".toList := by
  refine ⟨by decide, by decide, "AUTH", by decide, ?_⟩
  decide

/-- The name of a scheme is taken for the value of the header, or the header's name for the value of
what comes before it. In both cases the credential stays. -/
theorem schemed_survives (lawful : unicode.Lawful) {s scheme after : List Char} (hs : EndsApart s)
    (hafter : StartsApart after) (hne : scheme ≠ []) (hletters : ∀ c ∈ scheme, isLetter c = true)
    (hnamed : ¬ Named scheme) :
    SurvivesMark fun c => (assignment unicode).sub none 0
      (s ++ ("Authorization: ".toList ++ (scheme ++ ' ' :: c :: after))) := by
  obtain ⟨-, hapart⟩ := sub_apart (assignment_skipsSpaces lawful) hafter none
  have hvalues : ∀ d ∈ scheme, isValue d = true := by
    intro d hd
    obtain ⟨e, es, heq, hvalue, -⟩ := beginsWord_letter (hletters d hd) []
    cases heq
    exact hvalue
  have hspaced : ∀ t : List Char, StartsApart (' ' :: t) := fun t d hd => by cases hd; decide
  rcases takesNext_cases lawful hs with ⟨-, out, hout⟩ | ⟨-, out, -, hout⟩
  · refine ⟨out ++ (redactedPresent.toList ++ (' ' :: scheme ++ [' '])),
      (assignment unicode).sub none 0 after, ?_, hapart, fun c hc => ?_⟩
    · refine marked_words ?_ (by simp) ?_
      · intro c hc
        rw [List.getLast?_concat] at hc
        cases hc
        decide
      · intro c hc
        simp only [List.cons_append, List.mem_cons, List.mem_append, List.not_mem_nil,
          or_false] at hc
        rcases hc with rfl | hc | rfl
        · exact .inl (by decide)
        · exact .inr (hletters c hc)
        · exact .inl (by decide)
    · have hrun : Run isValue "Authorization:".toList (' ' :: (scheme ++ ' ' :: c :: after)) :=
        run_apart isValue_of_isSpace (by decide) (by decide) (hspaced _)
      have hword : BeginsWord ("Authorization:".toList ++ ' ' :: (scheme ++ ' ' :: c :: after)) :=
        ⟨ 'A', _, rfl, by decide, by decide⟩
      have htext : "Authorization: ".toList ++ (scheme ++ ' ' :: c :: after) =
          "Authorization:".toList ++ ' ' :: (scheme ++ ' ' :: c :: after) := rfl
      have hname : ∀ d ∈ scheme, isName d = true := fun d hd => isName_of_isLetter (hletters d hd)
      simp only [htext, hout _ _ hword hrun]
      rw [sub_of_none (assignment_skipsSpaces lawful _ ' ' _ (by decide)),
        sub_word lawful hname hnamed (hspaced _), sub_letter lawful hc hafter]
      simp
  · refine ⟨out ++ ("Authorization: ".toList ++ (redactedPresent.toList ++ [' '])),
      (assignment unicode).sub none 0 after, ?_, hapart, fun c hc => ?_⟩
    · rw [← List.append_assoc]
      exact marked_words (fun c hc => by cases hc; decide) (by simp) (by decide)
    · have hopening : Opening "Authorization: ".toList := by
        exact sensitiveName_authorization.opening ':' [' '] (by decide) (by decide)
      have hrun : Run isValue scheme (' ' :: c :: after) :=
        run_apart isValue_of_isSpace hne hvalues (hspaced _)
      have hword : BeginsWord ("Authorization: ".toList ++ (scheme ++ ' ' :: c :: after)) :=
        ⟨ 'A', _, rfl, by decide, by decide⟩
      simp only [hout _ hword]
      rw [sub_of_find hne (assignment_found lawful (wordAt_apart lawful hs) hopening hrun),
        sub_letter lawful hc hafter]
      simp [assignment]

end Shapes

section Urls

variable {unicode : Unicode}
variable {c : Char} {rule : Rule Char} {scheme : List Char}

def urlTail (c r : List Char) : List Char := ':' :: '/' :: '/' :: (c ++ '@' :: r)

theorem text_url (scheme host c : List Char) :
    (Shape.url scheme host).text c = scheme ++ urlTail c host := rfl

def isPlain (c : Char) : Bool := !isSpace c && !isAssign c

theorem isPlain_of_isName (h : isName c = true) : isPlain c = true := by
  have hassign : isAssign c = false := by
    by_contra hassign
    rw [Bool.not_eq_false] at hassign
    rw [isName_of_isAssign hassign] at h
    cases h
  simp [isPlain, isSpace_of_isName h, hassign]

theorem isPlain_of_isScheme (h : isScheme c = true) : isPlain c = true := by
  simp [isPlain, isSpace_of_isScheme h, isScheme_classes h]

theorem labelled_plain {k s t rest : List Char} (hk : Labelled k) (ht : ∀ c ∈ t, isPlain c = true)
    (hrest : ∀ c ∈ rest.head?, isPlain c = false) (h : t ++ rest = k ++ s) :
    (∀ c ∈ t, isName c = true) ∧ ∃ gap d gap', k = t ++ (gap ++ d :: gap') ∧
      rest = gap ++ d :: (gap' ++ s) ∧ (∀ c ∈ gap, isSpace c = true) ∧ isAssign d = true ∧
      ∀ c ∈ gap', isSpace c = true := by
  obtain ⟨name, gap, d, gap', rfl, -, hname, hgap, hd, hgap'⟩ := hk
  have hnext : ∀ c ∈ (gap ++ d :: (gap' ++ s)).head?, isPlain c = false := by
    intro c hc
    rcases labelled_next hgap hd _ c hc with hc | hc <;> simp [isPlain, hc]
  simp only [List.append_assoc, List.cons_append] at h
  obtain ⟨rfl, hsame⟩ :=
    split_unique ht (fun c hc => isPlain_of_isName (hname c hc)) hrest hnext h
  exact ⟨hname, gap, d, gap', rfl, hsame, hgap, hd, hgap'⟩

theorem labelled_scheme {k q s c r : List Char} (hk : Labelled k)
    (hq : ∀ c ∈ q, isScheme c = true) (h : q ++ urlTail c r = k ++ s) : k = q ++ [':'] := by
  have hcolon : ∀ d ∈ (urlTail c r).head?, isPlain d = false := by
    intro d hd
    cases hd
    decide
  obtain ⟨-, gap, d, gap', rfl, htail, hgap, hd, hgap'⟩ :=
    labelled_plain hk (fun c hc => isPlain_of_isScheme (hq c hc)) hcolon h
  cases gap with
  | nil =>
    obtain ⟨rfl, hslash⟩ := List.cons.inj htail
    cases gap' with
    | nil => rfl
    | cons e es =>
      obtain ⟨rfl, -⟩ := List.cons.inj hslash
      exact absurd (hgap' _ List.mem_cons_self) (by decide)
  | cons e es =>
    obtain ⟨rfl, -⟩ := List.cons.inj htail
    exact absurd (hgap ':' List.mem_cons_self) (by decide)

theorem labelled_tail {z k s r : List Char} (hz : ∀ c ∈ z, isPlain c = true) (hk : Labelled k) :
    z ++ '@' :: r ≠ k ++ s := by
  intro h
  have hplain : isPlain '@' = true := by decide
  obtain ⟨t, rest, hr, hrun⟩ := exists_run (s := '@' :: r) rfl hplain
  have hat : '@' ∈ t := by
    cases t with
    | nil => exact absurd rfl hrun.nonempty
    | cons e es =>
      obtain ⟨rfl, -⟩ := List.cons.inj hr
      exact List.mem_cons_self
  rw [hr, ← List.append_assoc] at h
  have hall : ∀ c ∈ z ++ t, isPlain c = true := by
    intro c hc
    rcases List.mem_append.mp hc with hc | hc
    · exact hz c hc
    · exact hrun.all c hc
  obtain ⟨hname, -⟩ := labelled_plain hk hall hrun.stops h
  exact absurd (hname '@' (List.mem_append_right _ hat)) (by decide)

/-- A rule whose matches begin with labels. -/
def ReadsLabels (rule : Rule Char) : Prop :=
  ∀ before s, rule.find ⟨before, s⟩ = none ∨ ∃ k rest, s = k ++ rest ∧ Labelled k

theorem assignment_readsLabels (lawful : unicode.Lawful) : ReadsLabels (assignment unicode) := by
  intro before s
  rcases assignment_cases lawful before s with hnone | ⟨-, k, v, rest, hs, hk, -⟩
  · exact .inl hnone
  · exact .inr ⟨k, v ++ rest, hs, hk.labelled⟩

theorem header_readsLabels : ReadsLabels authHeader := by
  intro before s
  rcases header_cases before s with hnone | ⟨k, v, rest, hs, hk, -⟩
  · exact .inl hnone
  · exact .inr ⟨k, v ++ rest, hs, hk.labelled⟩

theorem Credential.plain {c : List Char} (h : Credential c) : ∀ d ∈ c, isPlain d = true := by
  intro d hd
  obtain ⟨hvalue, hassign, -⟩ := credentialChar_classes (h.chars d hd)
  simp [isPlain, isSpace_of_isValue hvalue, hassign]

theorem sub_urlTail (hrule : ReadsLabels rule) {c : List Char}
    (hc : Credential c) (before : Option Char) (r : List Char) :
    rule.sub before 0 (urlTail c r) = urlTail c (rule.sub (some '@') 0 r) := by
  have hplain : ∀ d ∈ '/' :: '/' :: c, isPlain d = true := by
    intro d hd
    rcases List.mem_cons.mp hd with rfl | hd
    · decide
    · rcases List.mem_cons.mp hd with rfl | hd
      · decide
      · exact hc.plain d hd
  have hnone : ∀ p d q, ':' :: ('/' :: '/' :: c ++ ['@']) = p ++ d :: q →
      rule.find ⟨lastOf before p, d :: (q ++ r)⟩ = none := by
    intro p d q hq
    rcases hrule (lastOf before p) (d :: (q ++ r)) with hnone | ⟨k, rest, hs, hk⟩
    · exact hnone
    · exfalso
      cases p with
      | nil =>
        obtain ⟨rfl, -⟩ := List.cons.inj hq
        exact absurd (labelled_head hk hs) (by decide)
      | cons e es =>
        obtain ⟨-, hq⟩ := List.cons.inj hq
        have hlast : ∃ z, d :: q = z ++ ['@'] ∧ ∀ e ∈ z, isPlain e = true := by
          rcases List.append_eq_append_iff.mp hq with ⟨a, -, ha⟩ | ⟨a, hes, ha⟩
          · cases a with
            | nil => exact ⟨[], ha.symm, by simp⟩
            | cons b bs => simp at ha
          · exact ⟨a, ha, fun e he => hplain e (by rw [hes]; exact List.mem_append_right _ he)⟩
        obtain ⟨z, hz, hzplain⟩ := hlast
        have htext : d :: (q ++ r) = z ++ '@' :: r := by
          rw [← List.cons_append, hz, List.append_assoc, List.singleton_append]
        exact labelled_tail hzplain hk (htext.symm.trans hs)
  have htext : ∀ w, urlTail c w = ':' :: ('/' :: '/' :: c ++ ['@']) ++ w := by
    intro w
    simp [urlTail]
  have hlast : lastOf before (':' :: ('/' :: '/' :: c ++ ['@'])) = some '@' := by
    rw [← List.cons_append, lastOf_concat]
  rw [htext, htext, sub_of_no_match hnone, hlast]

/-- A rule either removes the credential of a URL or leaves the URL as it is. -/
def KeepsUrl (rule : Rule Char) (before : Option Char) (scheme r : List Char) : Prop :=
  (∃ o, ∀ c, Credential c → rule.sub before 0 (scheme ++ urlTail c r) = o) ∨
    ∀ c, Credential c → rule.sub before 0 (scheme ++ urlTail c r) =
      scheme ++ urlTail c (rule.sub (some '@') 0 r)

theorem keepsUrl {r : List Char} (opens : Option Char → List Char → Prop)
    (hrule : ReadsLabels rule)
    (hopens : ∀ before q, opens before q →
      ∃ o, ∀ c, Credential c → rule.sub before 0 (q ++ urlTail c r) = o)
    (hnone : ∀ before q, ¬ opens before q → q ≠ [] → (∀ c ∈ q, isScheme c = true) →
      ∀ c, Credential c → rule.find ⟨before, q ++ urlTail c r⟩ = none)
    (hscheme : ∀ c ∈ scheme, isScheme c = true) (before : Option Char) :
    KeepsUrl rule before scheme r := by
  induction scheme generalizing before with
  | nil => exact .inr fun c hc => sub_urlTail hrule hc before r
  | cons d ds ih =>
    by_cases hopen : opens before (d :: ds)
    · exact .inl (hopens before _ hopen)
    · have hstep : ∀ c, Credential c → rule.sub before 0 (d :: ds ++ urlTail c r) =
          d :: rule.sub (some d) 0 (ds ++ urlTail c r) := by
        intro c hc
        exact sub_of_none (hnone before _ hopen (by simp) hscheme c hc)
      rcases ih (fun c hc => hscheme c (List.mem_cons_of_mem _ hc)) (some d) with ⟨o, ho⟩ | hkept
      · exact .inl ⟨d :: o, fun c hc => by rw [hstep c hc, ho c hc]⟩
      · exact .inr fun c hc => by rw [hstep c hc, hkept c hc]; rfl

theorem run_url {p : Char → Bool} {z r : List Char} (hz : ∀ c ∈ z, p c = true)
    (hcred : ∀ c, Credential c → ∀ d ∈ c, p d = true) (hat : p '@' = true) :
    ∃ t rest, ∀ c, Credential c → z ++ (c ++ '@' :: r) = z ++ (c ++ '@' :: t) ++ rest ∧
      Run p (z ++ (c ++ '@' :: t)) rest := by
  obtain ⟨t, rest, hr, hrun⟩ := exists_run (s := '@' :: r) rfl hat
  cases t with
  | nil => exact absurd rfl hrun.nonempty
  | cons e es =>
    obtain ⟨rfl, rfl⟩ := List.cons.inj hr
    refine ⟨es, rest, fun c hc => ⟨by simp, by simp, ?_, hrun.stops⟩⟩
    intro d hd
    rcases List.mem_append.mp hd with hd | hd
    · exact hz d hd
    · rcases List.mem_append.mp hd with hd | hd
      · exact hcred c hc d hd
      · exact hrun.all d hd

theorem lastOf_url (before : Option Char) (z c t : List Char) :
    lastOf before (z ++ (c ++ '@' :: t)) = lastOf (some '@') t := by
  rw [lastOf_append, lastOf_append, lastOf_cons]

theorem assignment_keepsUrl (lawful : unicode.Lawful)
    (hscheme : ∀ c ∈ scheme, isScheme c = true) (before : Option Char) (r : List Char) :
    KeepsUrl (assignment unicode) before scheme r := by
  refine keepsUrl (fun before q => wordAt (isWord unicode) before = false ∧ Opening (q ++ [':']))
    (assignment_readsLabels lawful) ?_ ?_ hscheme before
  · rintro before q ⟨hbefore, hq⟩
    obtain ⟨t, rest, hrun⟩ := run_url (p := isValue) (z := ['/', '/']) (r := r) (by decide)
      Credential.values (by decide)
    refine ⟨q ++ [':'] ++ (redactedPresent.toList ++
      (assignment unicode).sub (lastOf (some '@') t) 0 rest), fun c hc => ?_⟩
    obtain ⟨htext, hc⟩ := hrun c hc
    have hurl : q ++ urlTail c r = q ++ [':'] ++ (['/', '/'] ++ (c ++ '@' :: t) ++ rest) := by
      rw [← htext]
      simp [urlTail]
    rw [hurl, sub_of_find hc.nonempty (assignment_found lawful hbefore hq hc), lastOf_append,
      lastOf_url]
    rfl
  · intro before q hopen hne hq c hc
    rcases assignment_cases lawful before (q ++ urlTail c r) with
      hnone | ⟨hbefore, k, v, rest, hs, hk, -⟩
    · exact hnone
    · exact absurd ⟨hbefore, labelled_scheme hk.labelled hq hs ▸ hk⟩ hopen

theorem not_scheme_of_mem {v : List Char} (hc : c ∈ v) (hletter : isLetter c = false) :
    ¬ Scheme v := by
  intro h
  rw [h.letters.2 c hc] at hletter
  cases hletter

theorem header_keepsUrl (hscheme : ∀ c ∈ scheme, isScheme c = true)
    (before : Option Char) (r : List Char) : KeepsUrl authHeader before scheme r := by
  refine keepsUrl (fun _ q => Header (q ++ [':'])) header_readsLabels ?_ ?_ hscheme before
  · intro before q hq
    obtain ⟨t, rest, hrun⟩ := run_url (p := nonSpace) (z := ['/', '/']) (r := r) (by decide)
      Credential.nonSpaces (by decide)
    refine ⟨q ++ [':'] ++ (redactedPresent.toList ++
      authHeader.sub (lastOf (some '@') t) 0 rest), fun c hc => ?_⟩
    obtain ⟨htext, hc⟩ := hrun c hc
    have hurl : q ++ urlTail c r = q ++ [':'] ++ (['/', '/'] ++ (c ++ '@' :: t) ++ rest) := by
      rw [← htext]
      simp [urlTail]
    have hscheme : ¬ Scheme (['/', '/'] ++ (c ++ '@' :: t)) :=
      not_scheme_of_mem (c := '/') (by simp) (by decide)
    have hcredentials : Credentials (['/', '/'] ++ (c ++ '@' :: t)) rest :=
      .inr ⟨hc, fun v' rest' heq => not_schemed hc hscheme heq⟩
    rw [hurl, sub_of_find hc.nonempty (header_found hq hcredentials), lastOf_append, lastOf_url]
    rfl
  · intro before q hopen hne hq c hc
    rcases header_cases before (q ++ urlTail c r) with hnone | ⟨k, v, rest, hs, hk, -⟩
    · exact hnone
    · exact absurd (labelled_scheme hk.labelled hq hs ▸ hk) hopen

def InUrl (scheme : List Char) (f : List Char → List Char) : Prop :=
  (∃ o, ∀ c, Credential c → f c = o) ∨
    ∃ a r, EndsApart a ∧ ∀ c, Credential c → f c = a ++ (scheme ++ urlTail c r)

theorem UrlScheme.chars (h : UrlScheme scheme) :
    ∀ c ∈ scheme, isScheme c = true := fun c hc => schemeChar_classes (h.2 c hc)

theorem isValue_of_isScheme (h : isScheme c = true) : isValue c = true := by
  have hne : ∀ d, isScheme d = false → c ≠ d := by
    rintro d hd rfl
    rw [h] at hd
    cases hd
  simp [isValue, isSpace_of_isScheme h, hne ',' (by decide), hne ';' (by decide)]

theorem UrlScheme.beginsWord (h : UrlScheme scheme) (s : List Char) :
    BeginsWord (scheme ++ s) := by
  obtain ⟨⟨c, hc, -⟩, -⟩ := id h
  cases scheme with
  | nil => cases hc
  | cons d ds =>
    have hd := h.chars d List.mem_cons_self
    exact ⟨d, ds ++ s, rfl, isValue_of_isScheme hd, isScheme_classes hd⟩

theorem inUrl_of_context {p : Char → Bool} {s scheme r : List Char}
    (hscheme : UrlScheme scheme) (hsep : ∀ d ∈ [':', '/', '/'], p d = true)
    (hchars : ∀ d, isScheme d = true → p d = true)
    (hcred : ∀ c, Credential c → ∀ d ∈ c, p d = true) (hat : p '@' = true)
    (hcontext : (∃ out, ∀ v rest, BeginsWord (v ++ rest) → Run p v rest → '/' ∈ v →
      rule.sub none 0 (s ++ (v ++ rest)) = out ++ (redactedPresent.toList ++
        rule.sub (lastOf none (s ++ v)) 0 rest)) ∨
      ∃ out, EndsApart out ∧ ∀ w, BeginsWord w →
        rule.sub none 0 (s ++ w) = out ++ rule.sub (lastOf none s) 0 w)
    (hkeeps : KeepsUrl rule (lastOf none s) scheme r) :
    InUrl scheme fun c => rule.sub none 0 (s ++ (scheme ++ urlTail c r)) := by
  rcases hcontext with ⟨out, hout⟩ | ⟨out, hapart, hout⟩
  · left
    have hstart : ∀ d ∈ scheme ++ [':', '/', '/'], p d = true := by
      intro d hd
      rcases List.mem_append.mp hd with hd | hd
      · exact hchars d (hscheme.chars d hd)
      · exact hsep d hd
    obtain ⟨t, rest, hrun⟩ := run_url (r := r) hstart hcred hat
    refine ⟨out ++ (redactedPresent.toList ++ rule.sub (lastOf (some '@') t) 0 rest),
      fun c hc => ?_⟩
    obtain ⟨htext, hc⟩ := hrun c hc
    have hurl : scheme ++ urlTail c r = scheme ++ [':', '/', '/'] ++ (c ++ '@' :: t) ++ rest := by
      rw [← htext]
      simp [urlTail]
    have hword := hscheme.beginsWord (urlTail c r)
    rw [hurl] at hword
    simp only [hurl, hout _ _ hword hc (by simp), lastOf_append, lastOf_cons]
  · rcases hkeeps with ⟨o, ho⟩ | hkept
    · exact .inl ⟨out ++ o, fun c hc => by simp only [hout _ (hscheme.beginsWord _), ho c hc]⟩
    · exact .inr ⟨out, rule.sub (some '@') 0 r, hapart,
        fun c hc => by simp only [hout _ (hscheme.beginsWord _), hkept c hc]⟩

theorem assignment_inUrl (lawful : unicode.Lawful) {s scheme : List Char} (hs : EndsApart s)
    (hscheme : UrlScheme scheme) (r : List Char) :
    InUrl scheme fun c => (assignment unicode).sub none 0 (s ++ (scheme ++ urlTail c r)) := by
  refine inUrl_of_context hscheme (by decide) (fun d => isValue_of_isScheme) Credential.values
    (by decide) ?_ (assignment_keepsUrl lawful hscheme.chars _ r)
  rcases assignment_before lawful hs with ⟨out, hout⟩ | hfree
  · exact .inl ⟨out, fun v rest hword hv _ => hout v rest hword hv⟩
  · exact .inr hfree

theorem header_inUrl {s scheme : List Char} (hs : EndsApart s) (hscheme : UrlScheme scheme)
    (r : List Char) :
    InUrl scheme fun c => authHeader.sub none 0 (s ++ (scheme ++ urlTail c r)) := by
  have hchars : ∀ d, isScheme d = true → nonSpace d = true := by
    intro d hd
    simp [nonSpace, isSpace_of_isScheme hd]
  refine inUrl_of_context hscheme (by decide) hchars Credential.nonSpaces (by decide) ?_
    (header_keepsUrl hscheme.chars _ r)
  rcases header_before hs with ⟨p, q, out, -, -, hout⟩ | hfree
  · exact .inl ⟨out, fun v rest hword hv hslash =>
      hout v rest hword hv (not_scheme_of_mem hslash (by decide))⟩
  · exact .inr hfree

theorem url_redacted {a scheme : List Char} (ha : EndsApart a) (hscheme : UrlScheme scheme)
    (r : List Char) : ∃ o, ∀ c, Credential c →
      urlCredentials.sub none 0 (a ++ (scheme ++ urlTail c r)) = o := by
  obtain ⟨out, -, hout⟩ := url_before ha
  have hstart : UrlStart (scheme ++ [':', '/', '/']) := by
    obtain ⟨⟨l, hl, halpha⟩, -⟩ := id hscheme
    cases scheme with
    | nil => cases hl
    | cons d ds =>
      cases hl
      exact ⟨l, ds, rfl, isLetter_of_isAlpha halpha,
        fun c hc => hscheme.chars c (List.mem_cons_of_mem _ hc)⟩
  refine ⟨out ++ (scheme ++ [':', '/', '/'] ++ ("<redacted>@".toList ++
    urlCredentials.sub (some '@') 0 r)), fun c hc => ?_⟩
  have hinfo : UserInfo (c ++ ['@']) :=
    ⟨c, rfl, hc.1, fun d hd => (credentialChar_classes (hc.chars d hd)).2.2⟩
  have hurl : scheme ++ urlTail c r = scheme ++ [':', '/', '/'] ++ (c ++ ['@'] ++ r) := by
    simp [urlTail]
  rw [hout, hurl, sub_of_find hinfo.ne_nil (url_found hstart hinfo), lastOf_append, lastOf_concat]
  rfl

end Urls

section Redacting

variable {unicode : Unicode}
variable {shape : Shape}

/-- The three substitutions on the characters of a text. -/
def redactChars (unicode : Unicode) (s : List Char) : List Char :=
  urlCredentials.sub none 0 (authHeader.sub none 0 ((assignment unicode).sub none 0 s))

theorem redactText_ofList (s : List Char) :
    redactText unicode (String.ofList s) = String.ofList (redactChars unicode s) := by
  rw [redactText, String.toList_ofList]
  rfl

theorem redacted_url (lawful : unicode.Lawful) {s scheme : List Char} (hs : EndsApart s)
    (hscheme : UrlScheme scheme) (r : List Char) : ∃ o, ∀ c, Credential c →
      redactChars unicode (s ++ (scheme ++ urlTail c r)) = o := by
  rcases assignment_inUrl lawful hs hscheme r with ⟨o, ho⟩ | ⟨a, r, ha, hf⟩
  · refine ⟨urlCredentials.sub none 0 (authHeader.sub none 0 o), fun c hc => ?_⟩
    simp only [redactChars, ← ho c hc]
  rcases header_inUrl ha hscheme r with ⟨o, ho⟩ | ⟨a', r', ha', hf'⟩
  · refine ⟨urlCredentials.sub none 0 o, fun c hc => ?_⟩
    simp only [redactChars, ← ho c hc, ← hf c hc]
  obtain ⟨o, ho⟩ := url_redacted ha' hscheme r'
  refine ⟨o, fun c hc => ?_⟩
  simp only [redactChars, ← ho c hc, ← hf' c hc, ← hf c hc]

theorem SurvivesMark.redacted {f : Char → List Char} (h : SurvivesMark fun c =>
    (assignment unicode).sub none 0 (f c)) : Survives fun c => redactChars unicode (f c) := by
  obtain ⟨a, r, ha, hr, hf⟩ := h
  obtain ⟨a', r', ha', hr', hf'⟩ := url_survives (header_survives ha hr)
  refine ⟨a', r', ha', hr', fun c hc => ?_⟩
  simp only [redactChars, ← hf' c hc, ← hf c hc]

theorem Survives.ne {f : Char → List Char} (h : Survives f) : f 'x' ≠ f 'y' := by
  obtain ⟨a, r, -, -, hf⟩ := h
  rw [hf 'x' (by decide), hf 'y' (by decide)]
  simp

theorem credential_single {c : Char} (hc : c.isAlphanum = true) : Credential [c] :=
  ⟨by simp, fun d hd => .inl (by rw [List.mem_singleton.mp hd]; exact hc)⟩

/-- Nothing of the credential survives. -/
def Hides (unicode : Unicode) (before after : List Char) (shape : Shape) : Prop :=
  ∀ c₁ c₂, Credential c₁ → Credential c₂ →
    redactText unicode (String.ofList (before ++ (shape.text c₁ ++ after))) =
      redactText unicode (String.ofList (before ++ (shape.text c₂ ++ after)))

theorem hides_of_constant {before after : List Char} (h : ∃ o, ∀ c, Credential c →
    redactChars unicode (before ++ (shape.text c ++ after)) = o) :
    Hides unicode before after shape := by
  obtain ⟨o, ho⟩ := h
  intro c₁ c₂ h₁ h₂
  rw [redactText_ofList, redactText_ofList, ho c₁ h₁, ho c₂ h₂]

theorem not_hides_of_survives {before after : List Char} (h : SurvivesMark fun c =>
      (assignment unicode).sub none 0 (before ++ (shape.text [c] ++ after))) :
    ¬ Hides unicode before after shape := by
  intro hides
  have hsame := hides ['x'] ['y'] (credential_single (by decide)) (credential_single (by decide))
  rw [redactText_ofList, redactText_ofList] at hsame
  exact h.redacted.ne (String.ofList_injective hsame)

theorem hides_labelled_iff (lawful : unicode.Lawful) {before after name : List Char}
    (hbefore : EndsApart before) (hafter : StartsApart after) (hname : SensitiveName name) :
    Hides unicode before after (.labelled name) ↔ ¬ TakesNext unicode before := by
  constructor
  · intro hides htakes
    exact not_hides_of_survives (taken_survives lawful hbefore hafter hname htakes) hides
  · intro htakes
    obtain ⟨o, ho⟩ := opening_redacted lawful hbefore hafter
      (hname.opening ':' [' '] (by decide) (by decide))
      (fun w => by rw [List.append_assoc]; exact hname.beginsWord _) htakes
    refine hides_of_constant ⟨urlCredentials.sub none 0 (authHeader.sub none 0 o), fun c hc => ?_⟩
    have htext : (Shape.labelled name).text c ++ after = name ++ ':' :: [' '] ++ (c ++ after) := by
      simp [text_labelled]
    rw [redactChars, htext, ho c hc]

theorem not_hides_schemed (lawful : unicode.Lawful) {before after scheme : List Char}
    (hbefore : EndsApart before) (hafter : StartsApart after)
    (hscheme : scheme = "Bearer".toList ∨ scheme = "Basic".toList)
    (htext : ∀ c, shape.text c = "Authorization: ".toList ++ (scheme ++ ' ' :: c)) :
    ¬ Hides unicode before after shape := by
  apply not_hides_of_survives
  have hshape : ∀ c, shape.text [c] ++ after =
      "Authorization: ".toList ++ (scheme ++ ' ' :: c :: after) := by
    intro c
    rw [htext, List.append_assoc, List.append_assoc]
    rfl
  simp only [hshape]
  rcases hscheme with rfl | rfl
  · exact schemed_survives lawful hbefore hafter (by decide) (by decide) (not_named (by decide))
  · exact schemed_survives lawful hbefore hafter (by decide) (by decide) (not_named (by decide))

theorem text_header (c : List Char) :
    Shape.header.text c = (Shape.labelled "Authorization".toList).text c := by
  have hname : "Authorization: ".toList = "Authorization".toList ++ [':', ' '] := by rfl
  have htext : Shape.header.text c = "Authorization: ".toList ++ c := rfl
  rw [htext, hname, text_labelled, List.append_assoc, List.cons_append, List.cons_append,
    List.nil_append]

theorem text_bearer (c : List Char) :
    Shape.bearer.text c = "Authorization: ".toList ++ ("Bearer".toList ++ ' ' :: c) := by
  have hname : "Authorization: Bearer ".toList =
      "Authorization: ".toList ++ ("Bearer".toList ++ [' ']) := by rfl
  have htext : Shape.bearer.text c = "Authorization: Bearer ".toList ++ c := rfl
  rw [htext, hname, List.append_assoc, List.append_assoc, List.singleton_append]

theorem text_basic (c : List Char) :
    Shape.basic.text c = "Authorization: ".toList ++ ("Basic".toList ++ ' ' :: c) := by
  have hname : "Authorization: Basic ".toList =
      "Authorization: ".toList ++ ("Basic".toList ++ [' ']) := by rfl
  have htext : Shape.basic.text c = "Authorization: Basic ".toList ++ c := rfl
  rw [htext, hname, List.append_assoc, List.append_assoc, List.singleton_append]

/-- Nothing of a credential survives in an assignment with an equals sign and in a URL. With a colon
this holds unless the text before takes the name for a value, and behind the name of a scheme it
never does. -/
theorem redactText_hides_iff (unicode : Unicode) (lawful : unicode.Lawful) (before after : List Char)
    (shape : Shape) (hbefore : EndsApart before) (hafter : StartsApart after)
    (hshape : shape.Valid) :
    Hides unicode before after shape ↔ shape.Redacted unicode before := by
  cases shape with
  | assigned name =>
    obtain ⟨o, ho⟩ := assigned_redacted lawful hbefore hafter hshape
    exact iff_of_true (hides_of_constant ⟨_, fun c hc => by rw [redactChars, ho c hc]⟩) trivial
  | labelled name => exact hides_labelled_iff lawful hbefore hafter hshape
  | header =>
    have hlabelled := hides_labelled_iff lawful hbefore hafter sensitiveName_authorization
    simp only [Hides, ← text_header] at hlabelled
    exact hlabelled
  | bearer =>
    exact iff_of_false (not_hides_schemed lawful hbefore hafter (.inl rfl) text_bearer) id
  | basic => exact iff_of_false (not_hides_schemed lawful hbefore hafter (.inr rfl) text_basic) id
  | url scheme host =>
    obtain ⟨o, ho⟩ := redacted_url lawful hbefore hshape.1 (host ++ after)
    refine iff_of_true (hides_of_constant ⟨o, fun c hc => ?_⟩) trivial
    have htext : (Shape.url scheme host).text c ++ after = scheme ++ urlTail c (host ++ after) := by
      simp [text_url, urlTail]
    rw [htext, ho c hc]

end Redacting

section Latin

/-- ASCII with the four letters that are compared as letters of it. -/
def latin : Unicode where
  isAlnum := fun c => c.isAlphanum || isLetter c
  upper := fun s => String.ofList (s.toList.map Char.toUpper)

theorem latin_lawful : latin.Lawful where
  ascii := by
    intro c hc
    have hall : ∀ n < 128, ((Char.ofNat n).isAlphanum || isLetter (Char.ofNat n)) =
        (Char.ofNat n).isAlphanum := by decide +kernel
    exact ascii_induction (P := fun c => (c.isAlphanum || isLetter c) = c.isAlphanum) hall hc
  letters := fun c hc => by simp [latin, hc]
  spaces := fun c hc =>
    isSpace_cases (P := fun c => (c.isAlphanum || isLetter c) = false) hc (by decide)

instance (unicode : Unicode) (s : List Char) : Decidable (TakesNext unicode s) :=
  inferInstanceAs (Decidable (_ ≠ _))

theorem redactText_hides_iff_key : Hides latin "run ".toList " now".toList
    (.labelled "API_KEY".toList) := by
  have hname : SensitiveName "API_KEY".toList :=
    ⟨by decide, by decide, "KEY", by decide, by decide⟩
  have hbefore : EndsApart "run ".toList := by
    unfold EndsApart
    decide
  have hafter : StartsApart " now".toList := by
    unfold StartsApart
    decide
  have hfree : ¬ TakesNext latin "run ".toList := by decide +kernel
  exact (redactText_hides_iff latin latin_lawful _ _ (.labelled "API_KEY".toList) hbefore hafter
    hname).mpr hfree

/-- The scheme is taken for the secret, and the secret stays. -/
theorem bearer_unredacted : Credential "abc".toList ∧ Credential "xyz".toList ∧
    redactText latin (String.ofList (Shape.bearer.text "abc".toList)) ≠
      redactText latin (String.ofList (Shape.bearer.text "xyz".toList)) := by
  refine ⟨⟨by decide, by decide⟩, ⟨by decide, by decide⟩, ?_⟩
  rw [redactText_ofList, redactText_ofList]
  intro h
  exact absurd (String.ofList_injective h) (by decide +kernel)

end Latin

end EveTrade.Redaction
