import EveTrade.Redaction

set_option autoImplicit false

/-!
# What the substitutions match

Each of the three substitutions has at most one match at a place, which is given here by the parts
of its text. The matcher finds that match and no other, whatever it tries before.
-/
namespace EveTrade.Redaction

open RegexText

/-- What is assumed of the tables of the language: they are right about ASCII, they count the letters
that are compared as ASCII letters among the letters, and no space among them. -/
structure Unicode.Lawful (unicode : Unicode) : Prop where
  ascii : ∀ c : Char, c.toNat < 128 → unicode.isAlnum c = c.isAlphanum
  letters : ∀ c, isLetter c = true → unicode.isAlnum c = true
  spaces : ∀ c, isSpace c = true → unicode.isAlnum c = false

section Characters

variable {c : Char}

theorem isSpace_cases {P : Char → Prop} (hc : isSpace c = true)
    (h : ∀ n ∈ [9, 10, 11, 12, 13, 28, 29, 30, 31, 32, 133, 160, 5760, 8192, 8193, 8194, 8195, 8196,
      8197, 8198, 8199, 8200, 8201, 8202, 8232, 8233, 8239, 8287, 12288], P (Char.ofNat n)) :
    P c := by
  rw [← Char.ofNat_toNat c]
  apply h
  simp only [isSpace, Bool.or_eq_true, Bool.and_eq_true, decide_eq_true_eq, beq_iff_eq] at hc
  simp only [List.mem_cons, List.not_mem_nil, or_false]
  omega

theorem isName_of_isSpace (h : isSpace c = true) : isName c = false :=
  isSpace_cases (P := fun c => isName c = false) h (by decide)

theorem isAssign_iff : isAssign c = true ↔ c = '=' ∨ c = ':' := by
  simp [isAssign]

theorem isSpace_of_isAssign (h : isAssign c = true) : isSpace c = false := by
  rcases isAssign_iff.mp h with rfl | rfl <;> decide

theorem isName_of_isAssign (h : isAssign c = true) : isName c = false := by
  rcases isAssign_iff.mp h with rfl | rfl <;> decide

theorem isSpace_of_isValue (h : isValue c = true) : isSpace c = false := by
  simp only [isValue, Bool.and_eq_true, Bool.not_eq_true'] at h
  exact h.1.1

theorem isSpace_of_isName (h : isName c = true) : isSpace c = false := by
  by_contra hspace
  rw [Bool.not_eq_false] at hspace
  rw [isName_of_isSpace hspace] at h
  cases h

theorem isLetter_of_alike {cs t : List Char} (hcs : ∀ c ∈ cs, isLetter c = true)
    (h : List.Forall₂ (fun c d => alike c d = true) cs t) : ∀ d ∈ t, isLetter d = true := by
  induction h with
  | nil => simp
  | @cons c d cs t hd _ ih =>
    have hlike : caseless c = caseless d := by simpa [alike] using hd
    have hletter : isLetter d = true := by
      rw [isLetter, ← hlike]
      exact hcs c List.mem_cons_self
    simpa [hletter] using ih fun e he => hcs e (List.mem_cons_of_mem _ he)

theorem isName_of_isLetter (h : isLetter c = true) : isName c = true := by
  simp [isName, h]

variable {unicode : Unicode}

theorem isWord_of_isName (lawful : unicode.Lawful) (h : isName c = true) :
    isWord unicode c = true := by
  simp only [isName, Bool.or_eq_true] at h
  rw [isWord, Bool.or_eq_true]
  rcases h with (h | h) | h
  · exact .inl (lawful.letters c h)
  · left
    have hrange : c.toNat < 128 := by
      simp only [Char.isDigit, Bool.and_eq_true, decide_eq_true_eq] at h
      have hle : c.val.toNat ≤ (57 : UInt32).toNat := h.2
      change c.val.toNat < 128
      change c.val.toNat ≤ 57 at hle
      omega
    rw [lawful.ascii c hrange, Char.isAlphanum, h, Bool.or_true]
  · exact .inr h

theorem isWord_of_isSpace (lawful : unicode.Lawful) (h : isSpace c = true) :
    isWord unicode c = false := by
  have hname := isName_of_isSpace h
  simp only [isName, Bool.or_eq_false_iff] at hname
  rw [isWord, lawful.spaces c h, hname.2]
  rfl

theorem isWord_of_isAssign (lawful : unicode.Lawful) (h : isAssign c = true) :
    isWord unicode c = false := by
  rcases isAssign_iff.mp h with rfl | rfl
  · rw [isWord, lawful.ascii _ (by decide)]
    decide
  · rw [isWord, lawful.ascii _ (by decide)]
    decide

end Characters

/-- The name of an assignment, with one of the sensitive words in it. -/
def Named (name : List Char) : Prop :=
  (∀ c ∈ name, isName c = true) ∧ ∃ part ∈ sensitiveKeyParts, ∃ a w b, name = a ++ (w ++ b) ∧
    List.Forall₂ (fun c d => alike c d = true) part.toList w

/-- All of an assignment that comes before its value. -/
def Opening (k : List Char) : Prop :=
  ∃ name gap d gap', k = name ++ (gap ++ d :: gap') ∧ Named name ∧
    (∀ c ∈ gap, isSpace c = true) ∧ isAssign d = true ∧ ∀ c ∈ gap', isSpace c = true

/-- A run of characters that goes as far as it can. -/
structure Run (p : Char → Bool) (v rest : List Char) : Prop where
  nonempty : v ≠ []
  all : ∀ c ∈ v, p c = true
  stops : ∀ c ∈ rest.head?, p c = false

section Assignments

variable {unicode : Unicode}
variable {name : List Char} {before : Option Char}

theorem sensitive_ne_nil : ∀ part ∈ sensitiveKeyParts, part.toList ≠ [] := by decide

theorem sensitive_letters : ∀ part ∈ sensitiveKeyParts, ∀ c ∈ part.toList, isLetter c = true := by
  decide

theorem Named.ne_nil (h : Named name) : name ≠ [] := by
  obtain ⟨-, part, hpart, a, w, b, rfl, hw⟩ := h
  intro hnil
  simp only [List.append_eq_nil_iff] at hnil
  rw [hnil.2.1, List.forall₂_nil_right_iff] at hw
  exact sensitive_ne_nil part hpart hw

theorem reads_words {t rest : List Char} :
    Reads (.anyOf (sensitiveKeyParts.map text)) before t rest ↔
      ∃ part ∈ sensitiveKeyParts, List.Forall₂ (fun c d => alike c d = true) part.toList t := by
  rw [reads_anyOf]
  constructor
  · rintro ⟨r, hr, hreads⟩
    obtain ⟨part, hpart, rfl⟩ := List.mem_map.mp hr
    exact ⟨part, hpart, reads_literal.mp hreads⟩
  · rintro ⟨part, hpart, hw⟩
    exact ⟨text part, List.mem_map_of_mem hpart, reads_literal.mpr hw⟩

theorem wordAt_lastOf (lawful : unicode.Lawful) (hne : name ≠ [])
    (hname : ∀ c ∈ name, isName c = true) (before : Option Char) :
    wordAt (isWord unicode) (lastOf before name) = true := by
  induction name generalizing before with
  | nil => exact absurd rfl hne
  | cons c cs ih =>
    cases cs with
    | nil => exact isWord_of_isName lawful (hname c List.mem_cons_self)
    | cons d ds => exact ih (by simp) (fun e he => hname e (List.mem_cons_of_mem _ he)) (some c)

theorem wordAt_head (lawful : unicode.Lawful) {gap : List Char} {d : Char}
    (hgap : ∀ c ∈ gap, isSpace c = true) (hd : isAssign d = true) (rest : List Char) :
    wordAt (isWord unicode) (gap ++ d :: rest).head? = false := by
  cases gap with
  | nil => exact isWord_of_isAssign lawful hd
  | cons c cs => exact isWord_of_isSpace lawful (hgap c List.mem_cons_self)

theorem wordAt_head_name (lawful : unicode.Lawful) (hne : name ≠ [])
    (hname : ∀ c ∈ name, isName c = true) (rest : List Char) :
    wordAt (isWord unicode) (name ++ rest).head? = true := by
  cases name with
  | nil => exact absurd rfl hne
  | cons c cs => exact isWord_of_isName lawful (hname c List.mem_cons_self)

/-- The matcher reads an opening exactly where no word goes on. -/
theorem reads_opening (lawful : unicode.Lawful) {k rest : List Char} :
    Reads (assignment unicode).kept before k rest ↔
      wordAt (isWord unicode) before = false ∧ Opening k := by
  constructor
  · intro h
    obtain ⟨t₀, k₁, rfl, h₀, h⟩ := reads_seq.mp h
    obtain ⟨rfl, hbefore⟩ := reads_boundary.mp h₀
    obtain ⟨a, k₂, rfl, ha, h⟩ := reads_seq.mp h
    obtain ⟨w, k₃, rfl, hw, h⟩ := reads_seq.mp h
    obtain ⟨b, k₄, rfl, hb, h⟩ := reads_seq.mp h
    obtain ⟨t₁, k₅, rfl, h₁, h⟩ := reads_seq.mp h
    obtain ⟨rfl, -⟩ := reads_boundary.mp h₁
    obtain ⟨gap, k₆, rfl, hgap, h⟩ := reads_seq.mp h
    obtain ⟨t₂, gap', rfl, h₂, hgap'⟩ := reads_seq.mp h
    obtain ⟨d, rfl, hd⟩ := reads_one.mp h₂
    rw [reads_many] at ha hb hgap hgap'
    obtain ⟨part, hpart, hw⟩ := reads_words.mp hw
    have hword : ∀ c ∈ w, isName c = true := fun c hc =>
      isName_of_isLetter (isLetter_of_alike (sensitive_letters part hpart) hw c hc)
    have hnamed : Named (a ++ (w ++ b)) := by
      refine ⟨?_, part, hpart, a, w, b, rfl, hw⟩
      intro c hc
      rcases List.mem_append.mp hc with hc | hc
      · exact ha c hc
      · rcases List.mem_append.mp hc with hc | hc
        · exact hword c hc
        · exact hb c hc
    refine ⟨?_, a ++ (w ++ b), gap, d, gap', by simp, hnamed, hgap, hd, hgap'⟩
    have hhead := wordAt_head_name lawful hnamed.ne_nil hnamed.1 (gap ++ d :: gap' ++ rest)
    by_contra hword
    apply hbefore
    rw [Bool.not_eq_false] at hword
    simpa [hword] using hhead.symm
  · rintro ⟨hbefore, name, gap, d, gap', rfl, hnamed, hgap, hd, hgap'⟩
    have hhead := wordAt_head_name lawful hnamed.ne_nil hnamed.1 (gap ++ d :: gap' ++ rest)
    have hlast := wordAt_lastOf lawful hnamed.ne_nil hnamed.1 before
    have hnext := wordAt_head lawful hgap hd (gap' ++ rest)
    obtain ⟨hname, part, hpart, a, w, b, rfl, hw⟩ := hnamed
    rw [lastOf_append, lastOf_append] at hlast
    refine reads_seq.mpr ⟨[], a ++ (w ++ b) ++ (gap ++ d :: gap'), rfl,
      reads_boundary.mpr ⟨rfl, ?_⟩, ?_⟩
    · rw [hbefore, List.append_assoc, hhead]
      simp
    have hgapRead : Reads (.seq (.many isSpace) (.seq (.one isAssign) (.many isSpace)))
        (lastOf (lastOf (lastOf before a) w) b) (gap ++ d :: gap') rest := by
      refine reads_seq.mpr ⟨gap, d :: gap', rfl, reads_many.mpr hgap, ?_⟩
      exact reads_seq.mpr ⟨[d], gap', rfl, reads_one.mpr ⟨d, rfl, hd⟩, reads_many.mpr hgap'⟩
    have hends : Reads (.boundary (isWord unicode)) (lastOf (lastOf (lastOf before a) w) b) []
        (gap ++ d :: gap' ++ rest) := by
      refine reads_boundary.mpr ⟨rfl, ?_⟩
      rw [hlast, List.append_assoc, List.cons_append, hnext]
      simp
    refine reads_seq.mpr ⟨a, w ++ (b ++ (gap ++ d :: gap')), by simp, ?_, ?_⟩
    · exact reads_many.mpr fun c hc => hname c (List.mem_append_left _ hc)
    refine reads_seq.mpr ⟨w, b ++ (gap ++ d :: gap'), rfl, reads_words.mpr ⟨part, hpart, hw⟩, ?_⟩
    refine reads_seq.mpr ⟨b, gap ++ d :: gap', rfl, ?_, ?_⟩
    · exact reads_many.mpr fun c hc => hname c (by simp [hc])
    exact reads_seq.mpr ⟨[], gap ++ d :: gap', rfl, hends, hgapRead⟩

/-- The opening of an assignment is the only one that a value can follow at its place. -/
theorem opening_unique {k k' s s' : List Char} (hk : Opening k) (hk' : Opening k')
    (hs : ∀ c ∈ s.head?, isSpace c = false) (hs' : ∀ c ∈ s'.head?, isSpace c = false)
    (h : k ++ s = k' ++ s') : k = k' := by
  obtain ⟨name, gap, d, gap₂, rfl, hnamed, hgap, hd, hgap₂⟩ := hk
  obtain ⟨name', gap', d', gap₂', rfl, hnamed', hgap', hd', hgap₂'⟩ := hk'
  have hafter : ∀ {gap : List Char} {d : Char} (rest : List Char),
      (∀ c ∈ gap, isSpace c = true) → isAssign d = true →
        ∀ c ∈ (gap ++ d :: rest).head?, isName c = false := by
    intro gap d rest hgap hd c hc
    cases gap with
    | nil =>
      cases hc
      exact isName_of_isAssign hd
    | cons e es =>
      cases hc
      exact isName_of_isSpace (hgap _ List.mem_cons_self)
  simp only [List.append_assoc, List.cons_append] at h
  obtain ⟨rfl, hgaps⟩ := split_unique hnamed.1 hnamed'.1 (hafter _ hgap hd) (hafter _ hgap' hd') h
  have hassign : ∀ {d : Char} (rest : List Char), isAssign d = true →
      ∀ c ∈ (d :: rest).head?, isSpace c = false := by
    intro d rest hd c hc
    cases hc
    exact isSpace_of_isAssign hd
  obtain ⟨rfl, hsigns⟩ := split_unique hgap hgap' (hassign _ hd) (hassign _ hd') hgaps
  obtain ⟨rfl, hvalues⟩ := List.cons.inj hsigns
  obtain ⟨rfl, -⟩ := split_unique hgap₂ hgap₂' hs hs' hvalues
  rfl

theorem Run.head {p : Char → Bool} {v rest : List Char} (h : Run p v rest) :
    ∀ c ∈ (v ++ rest).head?, p c = true := by
  intro c hc
  cases v with
  | nil => exact absurd rfl h.nonempty
  | cons d ds =>
    cases hc
    exact h.all _ List.mem_cons_self

theorem assignment_found (lawful : unicode.Lawful) {k v rest : List Char}
    (hbefore : wordAt (isWord unicode) before = false) (hk : Opening k) (hv : Run isValue v rest) :
    (assignment unicode).find ⟨before, k ++ (v ++ rest)⟩ =
      some (⟨lastOf before k, v ++ rest⟩, ⟨lastOf before (k ++ v), rest⟩) := by
  have hvalue : ∀ c ∈ (v ++ rest).head?, isSpace c = false :=
    fun c hc => isSpace_of_isValue (hv.head c hc)
  rw [find_eq_of_only ((reads_opening lawful).mpr ⟨hbefore, hk⟩)]
  · change ((ends (.plus isValue) ⟨lastOf before k, v ++ rest⟩).head?.map _) = _
    rw [plus_head isValue _ v rest hv.nonempty hv.all hv.stops, lastOf_append]
    rfl
  · intro k' rest' heq hk' hdropped
    refine opening_unique ((reads_opening lawful).mp hk').2 hk ?_ hvalue heq.symm
    intro c hc
    by_contra hspace
    rw [Bool.not_eq_false] at hspace
    refine hdropped (plus_none fun e he => ?_)
    rw [Option.mem_unique he hc]
    simp [isValue, hspace]

theorem exists_run {p : Char → Bool} {s : List Char} {c : Char} (hc : c ∈ s.head?)
    (hp : p c = true) : ∃ v rest, s = v ++ rest ∧ Run p v rest := by
  refine ⟨s.takeWhile p, s.dropWhile p, List.takeWhile_append_dropWhile.symm, ?_, ?_, ?_⟩
  · cases s with
    | nil => cases hc
    | cons d ds =>
      cases hc
      simp [hp]
  · exact fun d hd => List.mem_takeWhile_imp hd
  · intro d hd
    have hne : s.dropWhile p ≠ [] := by
      rintro heq
      rw [heq] at hd
      cases hd
    have hhead := List.head_dropWhile_not p hne
    rw [List.head?_eq_some_head hne] at hd
    cases hd
    exact hhead

theorem assignment_cases (lawful : unicode.Lawful) (before : Option Char) (s : List Char) :
    (assignment unicode).find ⟨before, s⟩ = none ∨ wordAt (isWord unicode) before = false ∧
      ∃ k v rest, s = k ++ (v ++ rest) ∧ Opening k ∧ Run isValue v rest := by
  by_cases hnone : (assignment unicode).find ⟨before, s⟩ = none
  · exact .inl hnone
  · right
    obtain ⟨⟨middle, stop⟩, hfind⟩ := Option.ne_none_iff_exists'.mp hnone
    obtain ⟨k, v, rest, rfl, hk, hv, -, -⟩ := find_reads hfind
    obtain ⟨hbefore, hopening⟩ := (reads_opening lawful).mp hk
    obtain ⟨hne, hvalue⟩ := reads_plus.mp hv
    cases v with
    | nil => exact absurd rfl hne
    | cons c cs =>
      obtain ⟨v, rest', heq, hrun⟩ :=
        exists_run (s := c :: cs ++ rest) rfl (hvalue c List.mem_cons_self)
      exact ⟨hbefore, k, v, rest', by rw [← heq], hopening, hrun⟩

end Assignments

section Headers

variable {before : Option Char} {s : String} {v rest : List Char}

def Header (k : List Char) : Prop :=
  ∃ a gap gap', k = a ++ (gap ++ ':' :: gap') ∧
    List.Forall₂ (fun c d => alike c d = true) "authorization".toList a ∧
    (∀ c ∈ gap, isSpace c = true) ∧ ∀ c ∈ gap', isSpace c = true

def nonSpace (c : Char) : Bool := !isSpace c

def Scheme (sch : List Char) : Prop :=
  List.Forall₂ (fun c d => alike c d = true) "bearer".toList sch ∨
    List.Forall₂ (fun c d => alike c d = true) "basic".toList sch

def Schemed (v rest : List Char) : Prop :=
  ∃ sch gap run, v = sch ++ (gap ++ run) ∧ Scheme sch ∧ gap ≠ [] ∧
    (∀ c ∈ gap, isSpace c = true) ∧ Run nonSpace run rest

/-- What the header loses: the credentials with the scheme before them, or the first word if that is
not a scheme with something behind it. -/
def Credentials (v rest : List Char) : Prop :=
  Schemed v rest ∨ Run nonSpace v rest ∧ ∀ v' rest', v ++ rest = v' ++ rest' → ¬ Schemed v' rest'

theorem toLower_cases (c : Char) :
    c.toLower = c ∨ 97 ≤ c.toLower.toNat ∧ c.toLower.toNat ≤ 122 := by
  by_cases hupper : 65 ≤ c.toNat ∧ c.toNat ≤ 90
  · right
    obtain ⟨hlow, hhigh⟩ := hupper
    rw [← Char.ofNat_toNat c]
    generalize c.toNat = n at hlow hhigh
    interval_cases n <;> decide
  · left
    unfold Char.toLower
    exact dif_neg hupper

def isSymbol (c : Char) : Bool := c == ':' || c == '/' || c == '@'

theorem caseless_symbol {c d : Char} (hd : isSymbol d = true) (h : caseless c = d) : c = d := by
  simp only [isSymbol, Bool.or_eq_true, beq_iff_eq] at hd
  unfold caseless at h
  split_ifs at h
  · exact absurd (h ▸ hd) (by decide)
  · exact absurd (h ▸ hd) (by decide)
  · exact absurd (h ▸ hd) (by decide)
  · rcases toLower_cases c with hsame | ⟨hlow, -⟩
    · exact hsame.symm.trans h
    · rw [h] at hlow
      rcases hd with (rfl | rfl) | rfl <;> exact absurd hlow (by decide)

theorem alike_symbol {c d : Char} (hd : isSymbol d = true) : alike d c = true ↔ c = d := by
  have hself : caseless d = d := by
    simp only [isSymbol, Bool.or_eq_true, beq_iff_eq] at hd
    rcases hd with (rfl | rfl) | rfl <;> decide
  rw [alike, beq_iff_eq, hself]
  constructor
  · exact fun h => caseless_symbol hd h.symm
  · rintro rfl
    exact hself.symm

theorem alike_symbols {cs t : List Char} (hcs : ∀ c ∈ cs, isSymbol c = true) :
    List.Forall₂ (fun c d => alike c d = true) cs t ↔ t = cs := by
  induction cs generalizing t with
  | nil => rw [List.forall₂_nil_left_iff]
  | cons c cs ih =>
    have hc := hcs c List.mem_cons_self
    have ih := fun t => @ih t fun d hd => hcs d (List.mem_cons_of_mem _ hd)
    constructor
    · intro h
      cases h with
      | cons hd htail => rw [(alike_symbol hc).mp hd, (ih _).mp htail]
    · rintro rfl
      exact .cons ((alike_symbol hc).mpr rfl) ((ih _).mpr rfl)

theorem reads_header {k rest : List Char} :
    Reads authHeader.kept before k rest ↔ Header k := by
  constructor
  · intro h
    obtain ⟨a, k₁, rfl, ha, h⟩ := reads_seq.mp h
    obtain ⟨gap, k₂, rfl, hgap, h⟩ := reads_seq.mp h
    obtain ⟨colon, gap', rfl, hcolon, hgap'⟩ := reads_seq.mp h
    have hcolon : colon = [':'] := (alike_symbols (by decide)).mp (reads_literal.mp hcolon)
    subst hcolon
    exact ⟨a, gap, gap', rfl, reads_literal.mp ha, reads_many.mp hgap, reads_many.mp hgap'⟩
  · rintro ⟨a, gap, gap', rfl, ha, hgap, hgap'⟩
    refine reads_seq.mpr ⟨a, gap ++ ':' :: gap', rfl, reads_literal.mpr ha, ?_⟩
    refine reads_seq.mpr ⟨gap, ':' :: gap', rfl, reads_many.mpr hgap, ?_⟩
    refine reads_seq.mpr ⟨[':'], gap', rfl, reads_literal.mpr ?_, reads_many.mpr hgap'⟩
    exact (alike_symbols (by decide)).mpr rfl

theorem header_unique {k k' s s' : List Char} (hk : Header k) (hk' : Header k')
    (hs : ∀ c ∈ s.head?, isSpace c = false) (hs' : ∀ c ∈ s'.head?, isSpace c = false)
    (h : k ++ s = k' ++ s') : k = k' := by
  obtain ⟨a, gap, gap₂, rfl, ha, hgap, hgap₂⟩ := hk
  obtain ⟨a', gap', gap₂', rfl, ha', hgap', hgap₂'⟩ := hk'
  simp only [List.append_assoc, List.cons_append] at h
  have hlength : a.length = a'.length := ha.length_eq.symm.trans ha'.length_eq
  obtain ⟨rfl, hgaps⟩ := List.append_inj h hlength
  have hcolon : ∀ rest : List Char, ∀ c ∈ (':' :: rest).head?, isSpace c = false := by
    intro rest c hc
    cases hc
    decide
  obtain ⟨rfl, hvalues⟩ := split_unique hgap hgap' (hcolon _) (hcolon _) hgaps
  obtain ⟨rfl, -⟩ := split_unique hgap₂ hgap₂' hs hs' (List.cons.inj hvalues).2
  rfl

/-- The expression of a scheme with credentials behind it. -/
def schemeText (s : String) : Regex Char :=
  .seq (.seq (text s) (.plus isSpace)) (.plus nonSpace)

theorem reads_schemeText :
    Reads (schemeText s) before v rest ↔ ∃ sch gap run, v = sch ++ (gap ++ run) ∧
      List.Forall₂ (fun c d => alike c d = true) s.toList sch ∧ gap ≠ [] ∧
      (∀ c ∈ gap, isSpace c = true) ∧ run ≠ [] ∧ ∀ c ∈ run, nonSpace c = true := by
  constructor
  · intro h
    obtain ⟨t, run, rfl, ht, hrun⟩ := reads_seq.mp h
    obtain ⟨sch, gap, rfl, hsch, hgap⟩ := reads_seq.mp ht
    obtain ⟨hgapNe, hgap⟩ := reads_plus.mp hgap
    obtain ⟨hrunNe, hrun⟩ := reads_plus.mp hrun
    exact ⟨sch, gap, run, List.append_assoc _ _ _, reads_literal.mp hsch, hgapNe, hgap, hrunNe,
      hrun⟩
  · rintro ⟨sch, gap, run, rfl, hsch, hgapNe, hgap, hrunNe, hrun⟩
    rw [← List.append_assoc]
    refine reads_seq.mpr ⟨sch ++ gap, run, rfl, ?_, reads_plus.mpr ⟨hrunNe, hrun⟩⟩
    exact reads_seq.mpr ⟨sch, gap, rfl, reads_literal.mpr hsch, reads_plus.mpr ⟨hgapNe, hgap⟩⟩

theorem schemed_of_reads (hs : s = "bearer" ∨ s = "basic")
    (h : Reads (schemeText s) before v rest) :
    ∃ v' rest', v ++ rest = v' ++ rest' ∧ Schemed v' rest' := by
  obtain ⟨sch, gap, run, rfl, hsch, hgapNe, hgap, hrunNe, hrun⟩ := reads_schemeText.mp h
  cases run with
  | nil => exact absurd rfl hrunNe
  | cons c cs =>
    obtain ⟨run', rest', heq, hmaximal⟩ :=
      exists_run (s := c :: cs ++ rest) rfl (hrun c List.mem_cons_self)
    refine ⟨sch ++ (gap ++ run'), rest', by simp [← heq], sch, gap, run', rfl, ?_, hgapNe, hgap,
      hmaximal⟩
    rcases hs with rfl | rfl
    · exact .inl hsch
    · exact .inr hsch

theorem schemeText_head {sch gap run rest : List Char}
    (hsch : List.Forall₂ (fun c d => alike c d = true) s.toList sch) (hgapNe : gap ≠ [])
    (hgap : ∀ c ∈ gap, isSpace c = true) (hrun : Run nonSpace run rest) :
    (ends (schemeText s) ⟨before, sch ++ (gap ++ run) ++ rest⟩).head? =
      some ⟨lastOf before (sch ++ (gap ++ run)), rest⟩ := by
  have hstops : ∀ c ∈ (run ++ rest).head?, isSpace c = false := by
    intro c hc
    simpa [nonSpace] using hrun.head c hc
  rw [lastOf_append, lastOf_append, List.append_assoc, List.append_assoc]
  refine seq_head (seq_head ?_ (plus_head isSpace _ gap (run ++ rest) hgapNe hgap hstops))
    (plus_head nonSpace _ run rest hrun.nonempty hrun.all hrun.stops)
  rw [text, literal_head before (gap ++ (run ++ rest)) hsch]
  rfl

theorem bearer_ne_basic {sch sch' x y : List Char}
    (h : List.Forall₂ (fun c d => alike c d = true) "bearer".toList sch)
    (h' : List.Forall₂ (fun c d => alike c d = true) "basic".toList sch') :
    sch ++ x ≠ sch' ++ y := by
  intro heq
  cases h with
  | cons _ h =>
  cases h with
  | cons he _ =>
  cases h' with
  | cons _ h' =>
  cases h' with
  | cons ha _ =>
  simp only [List.cons_append, List.cons.injEq] at heq
  obtain ⟨-, rfl, -⟩ := heq
  simp only [alike, beq_iff_eq] at he ha
  exact absurd (he.trans ha.symm) (by decide)

theorem dropped_ends (place : Place Char) : ends authHeader.dropped place =
    ends (schemeText "bearer") place ++
      (ends (schemeText "basic") place ++ ends (.plus nonSpace) place) := by
  change ends (.seq (.alt _ (.alt _ (.alt .empty (.anyOf [])))) (.plus nonSpace)) place = _
  rw [ends_seq_alt, ends_seq_alt, ends_seq_alt, ends_seq_empty, ends_seq_anyOf_nil, List.append_nil]
  rfl

theorem credentials_head (h : Credentials v rest) :
    (ends authHeader.dropped ⟨before, v ++ rest⟩).head? = some ⟨lastOf before v, rest⟩ := by
  rw [dropped_ends]
  rcases h with ⟨sch, gap, run, rfl, hsch, hgapNe, hgap, hrun⟩ | ⟨hrun, hplain⟩
  · rcases hsch with hsch | hsch
    · rw [List.head?_append, schemeText_head hsch hgapNe hgap hrun]
      rfl
    · have hbearer : ends (schemeText "bearer") ⟨before, sch ++ (gap ++ run) ++ rest⟩ = [] := by
        refine ends_eq_nil_iff.mpr fun t rest' heq hreads => ?_
        obtain ⟨sch', gap', run', rfl, hsch', -⟩ := reads_schemeText.mp hreads
        simp only [List.append_assoc] at heq
        exact bearer_ne_basic hsch' hsch heq.symm
      rw [hbearer, List.nil_append, List.head?_append, schemeText_head hsch hgapNe hgap hrun]
      rfl
  · have hnone : ∀ s : String, s = "bearer" ∨ s = "basic" →
        ends (schemeText s) ⟨before, v ++ rest⟩ = [] := by
      intro s hs
      refine ends_eq_nil_iff.mpr fun t rest' heq hreads => ?_
      obtain ⟨v', rest'', heq', hschemed⟩ := schemed_of_reads hs hreads
      exact hplain v' rest'' (heq.trans heq') hschemed
    rw [hnone _ (.inl rfl), hnone _ (.inr rfl), List.nil_append, List.nil_append]
    exact plus_head nonSpace before v rest hrun.nonempty hrun.all hrun.stops

theorem exists_credentials {s : List Char} (h : ends authHeader.dropped ⟨before, s⟩ ≠ []) :
    ∃ v rest, s = v ++ rest ∧ Credentials v rest := by
  by_cases hschemed : ∃ v rest, s = v ++ rest ∧ Schemed v rest
  · obtain ⟨v, rest, hs, hv⟩ := hschemed
    exact ⟨v, rest, hs, .inl hv⟩
  · have hnone : ∀ w : String, w = "bearer" ∨ w = "basic" →
        ends (schemeText w) ⟨before, s⟩ = [] := by
      intro w hw
      refine ends_eq_nil_iff.mpr fun t rest heq hreads => ?_
      obtain ⟨v, rest', heq', hv⟩ := schemed_of_reads hw hreads
      exact hschemed ⟨v, rest', heq.trans heq', hv⟩
    rw [dropped_ends, hnone _ (.inl rfl), hnone _ (.inr rfl), List.nil_append, List.nil_append] at h
    cases s with
    | nil => exact absurd rfl h
    | cons c cs =>
      have hc : nonSpace c = true := by
        by_contra hc
        rw [Bool.not_eq_true] at hc
        refine h (plus_none fun d hd => ?_)
        cases hd
        exact hc
      obtain ⟨v, rest, heq, hrun⟩ := exists_run (s := c :: cs) rfl hc
      exact ⟨v, rest, heq, .inr ⟨hrun, fun v' rest' heq' hv =>
        hschemed ⟨v', rest', heq.trans heq', hv⟩⟩⟩

theorem Scheme.letters {sch : List Char} (h : Scheme sch) :
    sch ≠ [] ∧ ∀ c ∈ sch, isLetter c = true := by
  rcases h with h | h
  · refine ⟨?_, isLetter_of_alike (by decide) h⟩
    rintro rfl
    cases h
  · refine ⟨?_, isLetter_of_alike (by decide) h⟩
    rintro rfl
    cases h

theorem Credentials.head (h : Credentials v rest) :
    ∀ c ∈ (v ++ rest).head?, isSpace c = false := by
  intro c hc
  rcases h with ⟨sch, gap, run, rfl, hsch, -⟩ | ⟨hrun, -⟩
  · obtain ⟨hne, hletters⟩ := hsch.letters
    cases sch with
    | nil => exact absurd rfl hne
    | cons d ds =>
      cases hc
      exact isSpace_of_isName (isName_of_isLetter (hletters _ List.mem_cons_self))
  · simpa [nonSpace] using hrun.head c hc

theorem header_found {k v rest : List Char} (hk : Header k)
    (hv : Credentials v rest) : authHeader.find ⟨before, k ++ (v ++ rest)⟩ =
      some (⟨lastOf before k, v ++ rest⟩, ⟨lastOf before (k ++ v), rest⟩) := by
  rw [find_eq_of_only (reads_header.mpr hk)]
  · rw [credentials_head hv, lastOf_append]
    rfl
  · intro k' rest' heq hk' hdropped
    obtain ⟨v', rest'', rfl, hv'⟩ := exists_credentials hdropped
    exact header_unique (reads_header.mp hk') hk hv'.head hv.head heq.symm

theorem header_cases (before : Option Char) (s : List Char) :
    authHeader.find ⟨before, s⟩ = none ∨
      ∃ k v rest, s = k ++ (v ++ rest) ∧ Header k ∧ Credentials v rest := by
  by_cases hnone : authHeader.find ⟨before, s⟩ = none
  · exact .inl hnone
  · right
    obtain ⟨⟨middle, stop⟩, hfind⟩ := Option.ne_none_iff_exists'.mp hnone
    obtain ⟨k, v, rest, rfl, hk, hv, -, -⟩ := find_reads hfind
    obtain ⟨v', rest', heq, hv'⟩ := exists_credentials (List.ne_nil_of_mem hv)
    exact ⟨k, v', rest', by rw [heq], reads_header.mp hk, hv'⟩

end Headers

section Urls

/-- The scheme of a URL and what follows it up to the host. -/
def UrlStart (k : List Char) : Prop :=
  ∃ l sch, k = l :: (sch ++ "://".toList) ∧ isLetter l = true ∧ ∀ c ∈ sch, isScheme c = true

def UserInfo (v : List Char) : Prop :=
  ∃ cred, v = cred ++ ['@'] ∧ cred ≠ [] ∧ ∀ c ∈ cred, isCredential c = true

theorem reads_urlStart {before : Option Char} {k rest : List Char} :
    Reads urlCredentials.kept before k rest ↔ UrlStart k := by
  constructor
  · intro h
    obtain ⟨t, k₁, rfl, ht, h⟩ := reads_seq.mp h
    obtain ⟨l, rfl, hl⟩ := reads_one.mp ht
    obtain ⟨sch, sep, rfl, hsch, hsep⟩ := reads_seq.mp h
    have hsep : sep = "://".toList := (alike_symbols (by decide)).mp (reads_literal.mp hsep)
    exact ⟨l, sch, by rw [hsep]; rfl, hl, reads_many.mp hsch⟩
  · rintro ⟨l, sch, rfl, hl, hsch⟩
    refine reads_seq.mpr ⟨[l], sch ++ "://".toList, rfl, reads_one.mpr ⟨l, rfl, hl⟩, ?_⟩
    refine reads_seq.mpr ⟨sch, "://".toList, rfl, reads_many.mpr hsch, reads_literal.mpr ?_⟩
    exact (alike_symbols (by decide)).mpr rfl

theorem urlStart_unique {k k' s s' : List Char} (hk : UrlStart k) (hk' : UrlStart k')
    (h : k ++ s = k' ++ s') : k = k' := by
  obtain ⟨l, sch, rfl, hl, hsch⟩ := hk
  obtain ⟨l', sch', rfl, hl', hsch'⟩ := hk'
  simp only [List.cons_append, List.append_assoc] at h
  obtain ⟨rfl, hrest⟩ := List.cons.inj h
  have hcolon : ∀ rest : List Char, ∀ c ∈ ("://".toList ++ rest).head?, isScheme c = false := by
    intro rest c hc
    cases hc
    decide
  obtain ⟨rfl, -⟩ := split_unique hsch hsch' (hcolon _) (hcolon _) hrest
  rfl

theorem url_found {before : Option Char} {k v rest : List Char} (hk : UrlStart k)
    (hv : UserInfo v) : urlCredentials.find ⟨before, k ++ (v ++ rest)⟩ =
      some (⟨lastOf before k, v ++ rest⟩, ⟨lastOf before (k ++ v), rest⟩) := by
  obtain ⟨cred, rfl, hne, hcred⟩ := hv
  rw [find_eq_of_only (reads_urlStart.mpr hk)]
  · have hhead : (ends urlCredentials.dropped ⟨lastOf before k, cred ++ ['@'] ++ rest⟩).head? =
        some ⟨lastOf before (k ++ (cred ++ ['@'])), rest⟩ := by
      have hstops : ∀ c ∈ ('@' :: rest).head?, isCredential c = false := by
        intro c hc
        cases hc
        decide
      have hcredHead := plus_head isCredential (lastOf before k) cred ('@' :: rest) hne hcred hstops
      rw [List.append_assoc, List.singleton_append]
      refine seq_head hcredHead ?_
      have hsame : List.Forall₂ (fun c d => alike c d = true) "@".toList "@".toList :=
        (alike_symbols (by decide)).mpr rfl
      have hat := literal_head (lastOf (lastOf before k) cred) rest hsame
      change (ends (.literal alike "@".toList) _).head? = _
      rw [show '@' :: rest = "@".toList ++ rest from rfl, hat, lastOf_append, lastOf_append]
      rfl
    rw [hhead]
    rfl
  · exact fun k' rest' heq hk' _ => urlStart_unique (reads_urlStart.mp hk') hk heq.symm

theorem url_cases (before : Option Char) (s : List Char) :
    urlCredentials.find ⟨before, s⟩ = none ∨
      ∃ k v rest, s = k ++ (v ++ rest) ∧ UrlStart k ∧ UserInfo v := by
  by_cases hnone : urlCredentials.find ⟨before, s⟩ = none
  · exact .inl hnone
  · right
    obtain ⟨⟨middle, stop⟩, hfind⟩ := Option.ne_none_iff_exists'.mp hnone
    obtain ⟨k, v, rest, rfl, hk, hv, -, -⟩ := find_reads hfind
    obtain ⟨cred, at', rfl, hcred, hat⟩ := reads_seq.mp hv
    have hat : at' = "@".toList := (alike_symbols (by decide)).mp (reads_literal.mp hat)
    subst hat
    obtain ⟨hne, hall⟩ := reads_plus.mp hcred
    exact ⟨k, cred ++ "@".toList, rest, rfl, reads_urlStart.mp hk, cred, rfl, hne, hall⟩

end Urls

end EveTrade.Redaction
