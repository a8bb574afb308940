import EveTrade.FieldText

set_option autoImplicit false

/-!
# Fields that hold the text of a UUID

A text of the pattern has no white space, and the reader gives the UUID whose own text is the field
in lower case.
-/
namespace EveTrade.UuidFields

open JsonText UuidText FieldText

variable {d : List Char} {s : String}

def lowerCase (s : String) : String := String.ofList (s.toList.map Char.toLower)

theorem hexDigitValue?_eq_some {c : Char} {v : ℕ} (h : Uuid.hexDigitValue? c = some v) :
    v < 16 ∧ hexDigit v = c.toLower ∧ isWhiteSpace c = false := by
  have hc : c = Char.ofNat c.toNat := (Char.ofNat_toNat c).symm
  unfold Uuid.hexDigitValue? at h
  split_ifs at h with hdigit hlower hupper
  · obtain rfl := Option.some.inj h
    have h1 : 48 ≤ c.toNat := hdigit.1
    have h2 : c.toNat ≤ 57 := hdigit.2
    generalize c.toNat = n at hc h1 h2
    subst hc
    interval_cases n <;> decide
  · obtain rfl := Option.some.inj h
    have h1 : 97 ≤ c.toNat := hlower.1
    have h2 : c.toNat ≤ 102 := hlower.2
    generalize c.toNat = n at hc h1 h2
    subst hc
    interval_cases n <;> decide
  · obtain rfl := Option.some.inj h
    have h1 : 65 ≤ c.toNat := hupper.1
    have h2 : c.toNat ≤ 70 := hupper.2
    generalize c.toNat = n at hc h1 h2
    subst hc
    interval_cases n <;> decide

theorem isHexDigit_hexDigit {n : ℕ} (h : n < 16) : isHexDigit (hexDigit n) = true := by
  unfold isHexDigit
  rw [Uuid.hexDigitValue?_hexDigit h]
  rfl

theorem isHexDigit_of_mem_hexDigits {k n : ℕ} {c : Char} (h : c ∈ Uuid.hexDigits k n) :
    isHexDigit c = true := by
  induction k generalizing n with
  | zero => cases h
  | succ k ih =>
    rw [Uuid.hexDigits, List.mem_append, List.mem_singleton] at h
    rcases h with h | rfl
    · exact ih h
    · exact isHexDigit_hexDigit (Nat.mod_lt n (by decide))

theorem exists_hexValue (h : ∀ c ∈ d, isHexDigit c = true) :
    ∃ n, Uuid.hexValue? 0 d = some n ∧ n < 16 ^ d.length ∧
      Uuid.hexDigits d.length n = d.map Char.toLower := by
  induction d using List.reverseRecOn with
  | nil => exact ⟨0, rfl, Nat.one_pos, rfl⟩
  | append_singleton d c ih =>
    obtain ⟨n, hn, hlt, hdigits⟩ := ih fun x hx => h x (List.mem_append_left _ hx)
    obtain ⟨v, hv⟩ := Option.isSome_iff_exists.1 (h c (List.mem_append_right _ List.mem_cons_self))
    obtain ⟨hsmall, hlower, _⟩ := hexDigitValue?_eq_some hv
    refine ⟨16 * n + v, ?_, ?_, ?_⟩
    · rw [Uuid.hexValue?_append, hn, Option.bind_some, Uuid.hexValue?, hv]
      rfl
    · rw [List.length_append, List.length_singleton, pow_succ]
      omega
    · have hdiv : (16 * n + v) / 16 = n := by omega
      have hmod : (16 * n + v) % 16 = v := by omega
      rw [List.length_append, List.length_singleton, Uuid.hexDigits, hdiv, hmod, hdigits, hlower,
        List.map_append, List.map_singleton]

theorem hyphenated_groups {a b c d e : List Char} (ha : a.length = 8) (hb : b.length = 4)
    (hc : c.length = 4) (hd : d.length = 4) :
    Uuid.hyphenated (a ++ (b ++ (c ++ (d ++ e)))) =
      a ++ '-' :: (b ++ '-' :: (c ++ '-' :: (d ++ '-' :: e))) := by
  simp [Uuid.hyphenated, List.drop_append, ha, hb, hc, hd, List.drop_eq_nil_of_le]

theorem map_hyphenated {f : Char → Char} (h : f '-' = '-') (d : List Char) :
    (Uuid.hyphenated d).map f = Uuid.hyphenated (d.map f) := by
  simp [Uuid.hyphenated, h, List.map_take, List.map_drop]

theorem mem_hyphenated {c : Char} (h : c ∈ Uuid.hyphenated d) :
    c = '-' ∨ c ∈ d := by
  have htake : ∀ m n, c ∈ (d.drop m).take n → c ∈ d := fun m n hc =>
    List.mem_of_mem_drop (List.mem_of_mem_take hc)
  unfold Uuid.hyphenated at h
  simp only [List.mem_append, List.mem_cons] at h
  rcases h with h | h | h | h | h | h | h | h | h
  · exact .inr (List.mem_of_mem_take h)
  · exact .inl h
  · exact .inr (htake _ _ h)
  · exact .inl h
  · exact .inr (htake _ _ h)
  · exact .inl h
  · exact .inr (htake _ _ h)
  · exact .inl h
  · exact .inr (List.mem_of_mem_drop h)

theorem drop_hyphen {cs : List Char} {i : ℕ} (h : cs[i]? = some '-') :
    cs.drop i = '-' :: cs.drop (i + 1) := by
  obtain ⟨hlt, hc⟩ := List.getElem?_eq_some_iff.1 h
  rw [List.drop_eq_getElem_cons hlt, hc]

theorem take_append_drop_drop (cs : List Char) (i n : ℕ) :
    cs.drop i = (cs.drop i).take n ++ cs.drop (i + n) := by
  conv_lhs => rw [← List.take_append_drop n (cs.drop i), List.drop_drop]

theorem isUuidText_eq_true (h : isUuidText s = true) :
    ∃ d, d.length = 32 ∧ (∀ c ∈ d, isHexDigit c = true) ∧ s.toList = Uuid.hyphenated d := by
  unfold isUuidText hexGroup at h
  simp only [Bool.and_eq_true, beq_iff_eq, List.all_eq_true] at h
  obtain ⟨⟨⟨⟨⟨⟨⟨⟨⟨hlen, h8⟩, h13⟩, h18⟩, h23⟩, g1⟩, g2⟩, g3⟩, g4⟩, g5⟩ := h
  generalize s.toList = cs at *
  have hlast : (cs.drop 24).take 12 = cs.drop 24 := List.take_of_length_le (by simp [hlen])
  rw [hlast] at g5
  refine ⟨(cs.drop 0).take 8 ++ ((cs.drop 9).take 4 ++ ((cs.drop 14).take 4 ++
    ((cs.drop 19).take 4 ++ cs.drop 24))), by simp [hlen], ?_, ?_⟩
  · intro c hc
    simp only [List.mem_append] at hc
    rcases hc with hc | hc | hc | hc | hc
    · exact g1 c hc
    · exact g2 c hc
    · exact g3 c hc
    · exact g4 c hc
    · exact g5 c hc
  · rw [hyphenated_groups (by simp [hlen]) (by simp [hlen]) (by simp [hlen]) (by simp [hlen]),
      ← drop_hyphen h23, ← take_append_drop_drop cs 19 4, ← drop_hyphen h18,
      ← take_append_drop_drop cs 14 4, ← drop_hyphen h13, ← take_append_drop_drop cs 9 4,
      ← drop_hyphen h8, ← take_append_drop_drop cs 0 8, List.drop_zero]

theorem isUuidText_hyphenated (hlen : d.length = 32) (hhex : ∀ c ∈ d, isHexDigit c = true) :
    isUuidText (String.ofList (Uuid.hyphenated d)) = true := by
  have hgroup : ∀ m n, ∀ c ∈ (d.drop m).take n, isHexDigit c = true := fun m n c hc =>
    hhex c (List.mem_of_mem_drop (List.mem_of_mem_take hc))
  have hfirst : ∀ c ∈ d.take 8, isHexDigit c = true := fun c hc => hhex c (List.mem_of_mem_take hc)
  have hlast : ∀ c ∈ d.drop 20, isHexDigit c = true := fun c hc => hhex c (List.mem_of_mem_drop hc)
  have hone := hgroup 8 4
  have htwo := hgroup 12 4
  have hthree := hgroup 16 4
  have l0 : (d.take 8).length = 8 := by simp [hlen]
  have l1 : ((d.drop 8).take 4).length = 4 := by simp [hlen]
  have l2 : ((d.drop 12).take 4).length = 4 := by simp [hlen]
  have l3 : ((d.drop 16).take 4).length = 4 := by simp [hlen]
  have l4 : (d.drop 20).length = 12 := by simp [hlen]
  unfold isUuidText Uuid.hyphenated hexGroup
  rw [String.toList_ofList]
  generalize d.take 8 = g0 at *
  generalize (d.drop 8).take 4 = g1 at *
  generalize (d.drop 12).take 4 = g2 at *
  generalize (d.drop 16).take 4 = g3 at *
  generalize d.drop 20 = g4 at *
  simp only [Bool.and_eq_true, beq_iff_eq, List.all_eq_true]
  simpa [List.drop_append, l0, l1, l2, l3, l4, List.drop_eq_nil_of_le, List.take_of_length_le]
    using ⟨⟨⟨⟨hfirst, hone⟩, htwo⟩, hthree⟩, hlast⟩

theorem trimChars_eq_self {cs : List Char} (h : ∀ c ∈ cs, isWhiteSpace c = false) :
    trimChars cs = cs := by
  have hdrop : ∀ ds : List Char, (∀ c ∈ ds, isWhiteSpace c = false) →
      ds.dropWhile isWhiteSpace = ds := by
    intro ds hds
    cases ds with
    | nil => rfl
    | cons c ds =>
      have hc : ¬ isWhiteSpace c = true := by simp [hds c List.mem_cons_self]
      exact List.dropWhile_cons_of_neg hc
  unfold trimChars
  rw [hdrop cs h, hdrop cs.reverse (fun c hc => h c (List.mem_reverse.1 hc)), List.reverse_reverse]

theorem trim_of_isUuidText (h : isUuidText s = true) : trim s = s := by
  obtain ⟨d, _, hhex, hs⟩ := isUuidText_eq_true h
  unfold trim
  rw [trimChars_eq_self, String.ofList_toList]
  intro c hc
  rw [hs] at hc
  rcases mem_hyphenated hc with rfl | hc
  · decide
  · obtain ⟨v, hv⟩ := Option.isSome_iff_exists.1 (hhex c hc)
    exact (hexDigitValue?_eq_some hv).2.2

theorem ne_empty_of_isUuidText (h : isUuidText s = true) : s ≠ "" := by
  rintro rfl
  revert h
  decide

/-- A field of the pattern is read, and the UUID's text is the field in lower case. -/
theorem parse_of_isUuidText (h : isUuidText s = true) :
    ∃ u, Uuid.parse s = some u ∧ u.text = lowerCase s := by
  obtain ⟨d, hlen, hhex, hs⟩ := isUuidText_eq_true h
  obtain ⟨n, hn, hlt, hdigits⟩ := exists_hexValue hhex
  rw [hlen] at hlt hdigits
  have hvalue : ((Uuid.ofNat n).value : ℕ) = n := Nat.mod_eq_of_lt hlt
  refine ⟨Uuid.ofNat n, ?_, ?_⟩
  · unfold Uuid.parse
    rw [hs, Uuid.parseChars, Uuid.length_hyphenated hlen, if_neg (by decide), if_pos rfl,
      Uuid.parseHyphenated_hyphenated hlen, Uuid.parseSimple, if_pos hlen, hn, Option.map_some]
  · unfold Uuid.text lowerCase
    rw [hvalue, hdigits, hs, map_hyphenated (by decide)]

end EveTrade.UuidFields
