import Mathlib.Data.Char
import Mathlib.Data.List.Lex
import Mathlib.Tactic

set_option autoImplicit false

/-!
# The order of texts and of their bytes

The bytes of a smaller character are smaller where they first differ from those of a larger one, and
they differ somewhere. So texts are ordered by their characters as they are by their UTF-8 bytes.
-/
namespace EveTrade.Utf8Order

section Codes

variable {α β : Type} [LinearOrder α] [LT β] [Std.Asymm (α := β) (· < ·)]

theorem append_lt_append_left_iff (p s t : List β) : p ++ s < p ++ t ↔ s < t := by
  induction p with
  | nil => rfl
  | cons b p ih =>
    have hirrefl : ¬ b < b := fun h => Std.Asymm.asymm b b h h
    rw [List.cons_append, List.cons_append, List.cons_lt_cons_iff, ih]
    simp [hirrefl]

/-- A code keeps the order if a smaller letter's code is smaller whatever follows the two. -/
structure OrderCode (code : α → List β) : Prop where
  ne_nil : ∀ a, code a ≠ []
  lt : ∀ a b, a < b → ∀ s t, code a ++ s < code b ++ t

variable {code : α → List β}

theorem OrderCode.flatMap_lt (h : OrderCode code) {xs ys : List α} (hlt : xs < ys) :
    xs.flatMap code < ys.flatMap code := by
  induction xs generalizing ys with
  | nil =>
    cases ys with
    | nil => exact absurd hlt (lt_irrefl _)
    | cons y ys =>
      rw [List.flatMap_nil, List.flatMap_cons]
      cases hcode : code y with
      | nil => exact absurd hcode (h.ne_nil y)
      | cons b bs => exact List.nil_lt_cons b _
  | cons x xs ih =>
    cases ys with
    | nil => exact absurd hlt (List.not_lt_nil _)
    | cons y ys =>
      rw [List.flatMap_cons, List.flatMap_cons]
      rcases List.cons_lt_cons_iff.mp hlt with hxy | ⟨rfl, hrest⟩
      · exact h.lt x y hxy _ _
      · exact (append_lt_append_left_iff _ _ _).mpr (ih hrest)

theorem OrderCode.flatMap_lt_iff (h : OrderCode code) (xs ys : List α) :
    xs.flatMap code < ys.flatMap code ↔ xs < ys := by
  constructor
  · intro hcode
    rcases lt_trichotomy xs ys with hlt | rfl | hgt
    · exact hlt
    · exact absurd hcode (fun h => List.lt_asymm h h)
    · exact absurd hcode (List.lt_asymm (h.flatMap_lt hgt))
  · exact h.flatMap_lt

end Codes

section Utf8

theorem digits_eq (n : ℕ) :
    n = 262144 * (n / 262144) + 4096 * (n / 4096 % 64) + 64 * (n / 64 % 64) + n % 64 := by
  omega

theorem digits_lt {m n a b c d e f g h : ℕ} (hm : m = 262144 * a + 4096 * (b % 64) + 64 * (c % 64) + d % 64)
    (hn : n = 262144 * e + 4096 * (f % 64) + 64 * (g % 64) + h % 64) (hlt : m < n) :
    a < e ∨ a = e ∧ (b % 64 < f % 64 ∨ b % 64 = f % 64 ∧
      (c % 64 < g % 64 ∨ c % 64 = g % 64 ∧ d % 64 < h % 64)) := by
  omega

theorem utf8EncodeChar_lt {c d : Char} (h : c < d) (s t : List UInt8) :
    String.utf8EncodeChar c ++ s < String.utf8EncodeChar d ++ t := by
  have hval : c.val.toNat < d.val.toNat := h
  have hmax : d.val.toNat < 1114112 := by
    rcases d.valid with hsmall | ⟨-, hlarge⟩
    · exact lt_trans hsmall (by decide)
    · exact hlarge
  unfold String.utf8EncodeChar
  generalize c.val.toNat = m at hval
  generalize d.val.toNat = n at hval hmax
  simp only
  -- the first bytes tell the lengths apart, and codes of one length compare digit by digit
  split_ifs <;>
  · simp only [List.cons_append, List.nil_append, List.cons_lt_cons_iff, UInt8.lt_iff_toNat_lt,
      ← UInt8.toNat_inj, UInt8.toNat_ofNat']
    first
    | omega
    | have hdigits := digits_lt (digits_eq m) (digits_eq n) hval
      simp (disch := omega) only [Nat.mod_eq_of_lt] at hdigits ⊢
      simpa only [Nat.add_lt_add_iff_right, Nat.add_right_cancel_iff] using
        hdigits.imp_right fun h => ⟨h.1, h.2.imp_right fun h => ⟨h.1, h.2.imp_right fun h =>
          ⟨h.1, .inl h.2⟩⟩⟩

theorem orderCode_utf8 : OrderCode String.utf8EncodeChar where
  ne_nil := by
    intro c
    unfold String.utf8EncodeChar
    simp only
    split_ifs <;> simp
  lt := fun _ _ h s t => utf8EncodeChar_lt h s t

theorem toByteArray_toList (s : String) :
    s.toByteArray.data.toList = s.toList.flatMap String.utf8EncodeChar := by
  conv_lhs => rw [← String.ofList_toList (s := s)]
  rw [String.toByteArray_ofList, List.utf8Encode, List.toList_data_toByteArray]

theorem bytes_lt_iff (a b : String) :
    a.toByteArray.data.toList < b.toByteArray.data.toList ↔ a.toList < b.toList := by
  rw [toByteArray_toList, toByteArray_toList]
  exact orderCode_utf8.flatMap_lt_iff a.toList b.toList

theorem bytes_le_iff (a b : String) :
    a.toByteArray.data.toList ≤ b.toByteArray.data.toList ↔ a.toList ≤ b.toList := by
  rw [← List.not_lt, ← not_lt, bytes_lt_iff]

end Utf8

end EveTrade.Utf8Order
