import Mathlib.Data.List.TakeWhile
import Mathlib.Tactic

set_option autoImplicit false

/-!
# Compact JSON text

Values with integer numbers and ordered object fields, and their text without insignificant
blanks. A value's text determines the value: two texts with equal continuations split at the same
place, so equal texts come from equal values.
-/
namespace EveTrade.JsonText

inductive Json where
  | null
  | bool (b : Bool)
  | num (n : Int)
  | str (s : String)
  | arr (items : List Json)
  | obj (fields : List (String × Json))

namespace Json

def field? : Json → String → Option Json
  | obj fields, name => (fields.find? (fun f => f.1 = name)).map Prod.snd
  | _, _ => none

end Json

def optional {α : Type} (f : α → Json) : Option α → Json
  | none => .null
  | some a => f a

theorem optional_injective {α : Type} {f : α → Json} (hf : Function.Injective f)
    (hn : ∀ a, f a ≠ .null) : Function.Injective (optional f) := by
  intro a b h
  cases a with
  | none =>
    cases b with
    | none => rfl
    | some y => exact absurd h.symm (hn y)
  | some x =>
    cases b with
    | none => exact absurd h (hn x)
    | some y => rw [hf h]

def hexDigit (n : ℕ) : Char := if n < 10 then Char.ofNat (48 + n) else Char.ofNat (87 + n)

/-- Quotes, backslashes and control characters are escaped, everything else stands for itself. -/
def escapeChar (c : Char) : List Char :=
  if c = '\x22' then ['\x5c', '\x22']
  else if c = '\x5c' then ['\x5c', '\x5c']
  else if c.toNat = 8 then ['\x5c', 'b']
  else if c.toNat = 9 then ['\x5c', 't']
  else if c.toNat = 10 then ['\x5c', 'n']
  else if c.toNat = 12 then ['\x5c', 'f']
  else if c.toNat = 13 then ['\x5c', 'r']
  else if c.toNat < 32 then ['\x5c', 'u', '0', '0', hexDigit (c.toNat / 16), hexDigit (c.toNat % 16)]
  else [c]

def quoted (s : List Char) : List Char := '\x22' :: (s.flatMap escapeChar ++ ['\x22'])

def numberText : Int → List Char
  | .ofNat n => Nat.toDigits 10 n
  | .negSucc n => '-' :: Nat.toDigits 10 (n + 1)

mutual

def text : Json → List Char
  | .null => ['n', 'u', 'l', 'l']
  | .bool true => ['t', 'r', 'u', 'e']
  | .bool false => ['f', 'a', 'l', 's', 'e']
  | .num n => numberText n
  | .str s => quoted s.toList
  | .arr [] => ['[', ']']
  | .arr (x :: xs) => '[' :: (text x ++ itemsText xs)
  | .obj [] => ['\x7b', '\x7d']
  | .obj ((k, v) :: fs) => '\x7b' :: (quoted k.toList ++ ':' :: (text v ++ fieldsText fs))

def itemsText : List Json → List Char
  | [] => [']']
  | x :: xs => ',' :: (text x ++ itemsText xs)

def fieldsText : List (String × Json) → List Char
  | [] => ['\x7d']
  | (k, v) :: fs => ',' :: (quoted k.toList ++ ':' :: (text v ++ fieldsText fs))

end

def render (j : Json) : String := String.ofList (text j)

section Strings

def hexValue (c : Char) : ℕ := if c.toNat < 58 then c.toNat - 48 else c.toNat - 87

def unescapeHead : List Char → Option (Char × List Char)
  | '\x5c' :: 'b' :: r => some (Char.ofNat 8, r)
  | '\x5c' :: 't' :: r => some (Char.ofNat 9, r)
  | '\x5c' :: 'n' :: r => some (Char.ofNat 10, r)
  | '\x5c' :: 'f' :: r => some (Char.ofNat 12, r)
  | '\x5c' :: 'r' :: r => some (Char.ofNat 13, r)
  | '\x5c' :: 'u' :: _ :: _ :: h :: l :: r => some (Char.ofNat (16 * hexValue h + hexValue l), r)
  | '\x5c' :: c :: r => some (c, r)
  | c :: r => some (c, r)
  | [] => none

theorem control_char (c : Char) (h : c.toNat < 32) :
    Char.ofNat (16 * hexValue (hexDigit (c.toNat / 16)) + hexValue (hexDigit (c.toNat % 16))) =
      c := by
  have hc : c = Char.ofNat c.toNat := (Char.ofNat_toNat c).symm
  generalize hn : c.toNat = n at h
  rw [hc, hn]
  interval_cases n <;> decide

theorem unescapeHead_escapeChar (c : Char) (r : List Char) :
    unescapeHead (escapeChar c ++ r) = some (c, r) := by
  have hc : c = Char.ofNat c.toNat := (Char.ofNat_toNat c).symm
  unfold escapeChar
  split_ifs with h1 h2 h3 h4 h5 h6 h7 h8
  · rw [h1]
    rfl
  · rw [h2]
    rfl
  · rw [hc, h3]
    rfl
  · rw [hc, h4]
    rfl
  · rw [hc, h5]
    rfl
  · rw [hc, h6]
    rfl
  · rw [hc, h7]
    rfl
  · change some (Char.ofNat _, r) = _
    rw [control_char c h8]
  · change unescapeHead (c :: r) = _
    unfold unescapeHead
    split <;> simp_all

theorem escapeChar_split {a b : Char} {s t : List Char}
    (h : escapeChar a ++ s = escapeChar b ++ t) : a = b ∧ s = t := by
  have ha := unescapeHead_escapeChar a s
  rw [h, unescapeHead_escapeChar] at ha
  simpa [eq_comm] using ha

theorem escapeChar_ne_quote (c : Char) (s t : List Char) : escapeChar c ++ s ≠ '\x22' :: t := by
  unfold escapeChar
  split_ifs with h1 <;> simp_all

/-- Text in quotes can be read back if each character of it can. -/
theorem flatMap_quote_split {e : Char → List Char}
    (split : ∀ {a b : Char} {s t : List Char}, e a ++ s = e b ++ t → a = b ∧ s = t)
    (ne_quote : ∀ (c : Char) (s t : List Char), e c ++ s ≠ '\x22' :: t) (a b s t : List Char)
    (h : a.flatMap e ++ '\x22' :: s = b.flatMap e ++ '\x22' :: t) : a = b ∧ s = t := by
  induction a generalizing b with
  | nil =>
    cases b with
    | nil => simpa using h
    | cons y ys =>
      rw [List.flatMap_cons, List.append_assoc] at h
      exact absurd h.symm (ne_quote y _ s)
  | cons x xs ih =>
    cases b with
    | nil =>
      rw [List.flatMap_cons, List.append_assoc] at h
      exact absurd h (ne_quote x _ t)
    | cons y ys =>
      rw [List.flatMap_cons, List.flatMap_cons, List.append_assoc, List.append_assoc] at h
      obtain ⟨hxy, hrest⟩ := split h
      obtain ⟨hs, ht⟩ := ih ys hrest
      exact ⟨by rw [hxy, hs], ht⟩

theorem quoted_split {a b s t : List Char} (h : quoted a ++ s = quoted b ++ t) :
    a = b ∧ s = t := by
  apply flatMap_quote_split escapeChar_split escapeChar_ne_quote
  simpa [quoted] using h

end Strings

/-- What may follow a value: nothing, or a character that no number contains. -/
def Delimited (s : List Char) : Prop := ∀ c ∈ s.head?, c.isDigit = false

section Numbers

theorem digits_split {m n : ℕ} {s t : List Char} (hs : Delimited s) (ht : Delimited t)
    (h : Nat.toDigits 10 m ++ s = Nat.toDigits 10 n ++ t) : m = n ∧ s = t := by
  have take : ∀ (k : ℕ) (r : List Char), Delimited r →
      (Nat.toDigits 10 k ++ r).takeWhile Char.isDigit = Nat.toDigits 10 k := by
    intro k r hr
    rw [List.takeWhile_append_of_pos fun c hc =>
      Nat.isDigit_of_mem_toDigits (by decide) (by decide) hc]
    cases r with
    | nil => simp
    | cons c r => simp [hr c rfl]
  have hd : Nat.toDigits 10 m = Nat.toDigits 10 n := by
    rw [← take m s hs, h, take n t ht]
  refine ⟨?_, List.append_cancel_left (hd ▸ h)⟩
  rw [← Nat.ofDigitChars_ten_toDigits (n := m), hd, Nat.ofDigitChars_ten_toDigits]

theorem toDigits_head (n : ℕ) : ∃ c r, Nat.toDigits 10 n = c :: r ∧ c.isDigit = true := by
  cases h : Nat.toDigits 10 n with
  | nil => exact absurd h Nat.toDigits_ne_nil
  | cons c r =>
    have hc : c ∈ Nat.toDigits 10 n := by simp [h]
    exact ⟨c, r, rfl, Nat.isDigit_of_mem_toDigits (by decide) (by decide) hc⟩

theorem numberText_split {m n : Int} {s t : List Char} (hs : Delimited s) (ht : Delimited t)
    (h : numberText m ++ s = numberText n ++ t) : m = n ∧ s = t := by
  cases m with
  | ofNat m =>
    cases n with
    | ofNat n =>
      obtain ⟨hmn, hst⟩ := digits_split hs ht h
      exact ⟨by rw [hmn], hst⟩
    | negSucc n =>
      obtain ⟨c, r, hc, hd⟩ := toDigits_head m
      simp only [numberText, hc, List.cons_append, List.cons.injEq] at h
      rw [h.1] at hd
      exact absurd hd (by decide)
  | negSucc m =>
    cases n with
    | ofNat n =>
      obtain ⟨c, r, hc, hd⟩ := toDigits_head n
      simp only [numberText, hc, List.cons_append, List.cons.injEq] at h
      rw [← h.1] at hd
      exact absurd hd (by decide)
    | negSucc n =>
      simp only [numberText, List.cons_append, List.cons.injEq, true_and] at h
      obtain ⟨hmn, hst⟩ := digits_split hs ht h
      exact ⟨by rw [Nat.succ.inj hmn], hst⟩

end Numbers

theorem delimited_itemsText (xs : List Json) (s : List Char) : Delimited (itemsText xs ++ s) := by
  intro c hc
  cases xs <;> simp [itemsText] at hc <;> subst hc <;> decide

theorem delimited_fieldsText (fs : List (String × Json)) (s : List Char) :
    Delimited (fieldsText fs ++ s) := by
  intro c hc
  rcases fs with _ | ⟨⟨k, v⟩, fs⟩ <;> simp [fieldsText] at hc <;> subst hc <;> decide

/-- The first character of a value's text tells its kind. -/
inductive Kind where
  | null | bool | num | str | arr | obj
deriving DecidableEq

def Json.kind : Json → Kind
  | .null => .null
  | .bool _ => .bool
  | .num _ => .num
  | .str _ => .str
  | .arr _ => .arr
  | .obj _ => .obj

def kindOfHead (c : Char) : Option Kind :=
  if c = '-' ∨ c.isDigit then some .num
  else if c = 'n' then some .null
  else if c = 't' ∨ c = 'f' then some .bool
  else if c = '\x22' then some .str
  else if c = '[' then some .arr
  else if c = '\x7b' then some .obj
  else none

theorem text_head (j : Json) (s : List Char) :
    ∃ c r, text j ++ s = c :: r ∧ kindOfHead c = some j.kind := by
  rcases j with _ | (_ | _) | (n | n) | _ | (_ | ⟨x, xs⟩) | (_ | ⟨⟨k, v⟩, fs⟩)
  case num.ofNat =>
    obtain ⟨c, r, hc, hd⟩ := toDigits_head n
    exact ⟨c, r ++ s, by simp [text, numberText, hc], if_pos (.inr hd)⟩
  all_goals exact ⟨_, _, rfl, rfl⟩

theorem kind_eq_of_text {a b : Json} {s t : List Char} (h : text a ++ s = text b ++ t) :
    a.kind = b.kind := by
  obtain ⟨c, r, hc, ha⟩ := text_head a s
  obtain ⟨d, q, hd, hb⟩ := text_head b t
  rw [hc, hd, List.cons.injEq] at h
  rw [h.1, hb] at ha
  exact (Option.some.inj ha).symm

theorem text_ne_close (j : Json) (s t : List Char) : text j ++ s ≠ ']' :: t := by
  intro h
  obtain ⟨c, r, hc, hk⟩ := text_head j s
  rw [hc, List.cons.injEq] at h
  rw [h.1] at hk
  exact absurd hk (by simp [kindOfHead])

mutual

theorem text_split (a b : Json) (s t : List Char) (hs : Delimited s) (ht : Delimited t)
    (h : text a ++ s = text b ++ t) : a = b ∧ s = t := by
  have hk := kind_eq_of_text h
  match a, b with
  | .null, .null => simpa [text] using h
  | .bool x, .bool y =>
    cases x <;> cases y <;> simp_all [text]
  | .num m, .num n =>
    obtain ⟨hmn, hst⟩ := numberText_split hs ht h
    exact ⟨by rw [hmn], hst⟩
  | .str x, .str y =>
    obtain ⟨hxy, hst⟩ := quoted_split h
    exact ⟨by rw [String.toList_injective hxy], hst⟩
  | .arr [], .arr [] => simpa [text] using h
  | .arr [], .arr (y :: ys) =>
    simp only [text, List.cons_append, List.append_assoc, List.cons.injEq, true_and] at h
    exact absurd h.symm (text_ne_close y _ _)
  | .arr (x :: xs), .arr [] =>
    simp only [text, List.cons_append, List.append_assoc, List.cons.injEq, true_and] at h
    exact absurd h (text_ne_close x _ _)
  | .arr (x :: xs), .arr (y :: ys) =>
    obtain ⟨hl, hst⟩ := itemsText_split (x :: xs) (y :: ys) s t
      (by simpa [text, itemsText] using h)
    exact ⟨by rw [hl], hst⟩
  | .obj [], .obj [] => simpa [text] using h
  | .obj [], .obj ((k, v) :: fs) => simp [text, quoted] at h
  | .obj ((k, v) :: fs), .obj [] => simp [text, quoted] at h
  | .obj (f :: fs), .obj (g :: gs) =>
    obtain ⟨hl, hst⟩ := fieldsText_split (f :: fs) (g :: gs) s t
      (by simpa [text, fieldsText] using h)
    exact ⟨by rw [hl], hst⟩

theorem itemsText_split (xs ys : List Json) (s t : List Char)
    (h : itemsText xs ++ s = itemsText ys ++ t) : xs = ys ∧ s = t := by
  match xs, ys with
  | [], [] => simpa [itemsText] using h
  | [], y :: ys => simp [itemsText] at h
  | x :: xs, [] => simp [itemsText] at h
  | x :: xs, y :: ys =>
    simp only [itemsText, List.cons_append, List.append_assoc, List.cons.injEq, true_and] at h
    obtain ⟨hxy, hrest⟩ := text_split x y _ _ (delimited_itemsText xs s) (delimited_itemsText ys t) h
    obtain ⟨hl, hst⟩ := itemsText_split xs ys s t hrest
    exact ⟨by rw [hxy, hl], hst⟩

theorem fieldsText_split (fs gs : List (String × Json)) (s t : List Char)
    (h : fieldsText fs ++ s = fieldsText gs ++ t) : fs = gs ∧ s = t := by
  match fs, gs with
  | [], [] => simpa [fieldsText] using h
  | [], (l, w) :: gs => simp [fieldsText] at h
  | (k, v) :: fs, [] => simp [fieldsText] at h
  | (k, v) :: fs, (l, w) :: gs =>
    simp only [fieldsText, List.cons_append, List.append_assoc, List.cons.injEq, true_and] at h
    obtain ⟨hkl, hrest⟩ := quoted_split h
    rw [List.cons.injEq] at hrest
    obtain ⟨hvw, hrest⟩ :=
      text_split v w _ _ (delimited_fieldsText fs s) (delimited_fieldsText gs t) hrest.2
    obtain ⟨hl, hst⟩ := fieldsText_split fs gs s t hrest
    exact ⟨by rw [String.toList_injective hkl, hvw, hl], hst⟩

end

theorem render_injective : Function.Injective render := by
  intro a b h
  have ht : text a ++ [] = text b ++ [] := by
    rw [String.ofList_injective h]
  exact (text_split a b [] [] (by simp [Delimited]) (by simp [Delimited]) ht).1

end EveTrade.JsonText
