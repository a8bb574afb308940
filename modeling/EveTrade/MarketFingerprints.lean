import EveTrade.GoJsonText
import EveTrade.MarketHandler

set_option autoImplicit false

/-!
# The fingerprints of requests

The text of which the market takes a request's digest is that of no other request of its kind: the
text of a value can be told apart from what follows it, and so can the fields of an object.
-/
namespace EveTrade.MarketFingerprints

open JsonText GoJson GoJsonText SettlementTypes GameTrade MarketRequests MarketHandler

section Strings

theorem marshalChar_eq (c : Char) :
    marshalChar c = if c = '<' ∨ c = '>' ∨ c = '&' then
      ['\x5c', 'u', '0', '0', hexDigit (c.toNat / 16), hexDigit (c.toNat % 16)]
    else encodeChar c := rfl

theorem decodeHead_marshalChar (c : Char) (r : List Char) :
    decodeHead (marshalChar c ++ r) = some (c, r) := by
  rw [marshalChar_eq]
  split_ifs with h
  · rcases h with rfl | rfl | rfl <;> rfl
  · exact decodeHead_encodeChar c r

theorem marshalChar_split {a b : Char} {s t : List Char}
    (h : marshalChar a ++ s = marshalChar b ++ t) : a = b ∧ s = t := by
  have ha := decodeHead_marshalChar a s
  rw [h, decodeHead_marshalChar] at ha
  simpa [eq_comm] using ha

theorem marshalChar_ne_quote (c : Char) (s t : List Char) : marshalChar c ++ s ≠ '\x22' :: t := by
  rw [marshalChar_eq]
  split_ifs
  · simp
  · exact encodeChar_ne_quote c s t

theorem marshalString_split {a b : String} {s t : List Char}
    (h : (marshalString a).toList ++ s = (marshalString b).toList ++ t) : a = b ∧ s = t := by
  have hsplit := flatMap_quote_split marshalChar_split marshalChar_ne_quote a.toList b.toList s t
    (by simpa [marshalString] using h)
  exact ⟨String.toList_injective hsplit.1, hsplit.2⟩

end Strings

section Values

/-- Two texts that can be told apart from what stands behind them. -/
def Splits (a b : String) : Prop :=
  ∀ s t, Delimited s → Delimited t → a.toList ++ s = b.toList ++ t → a = b ∧ s = t

theorem splits_marshalString (a b : String) : Splits (marshalString a) (marshalString b) := by
  intro s t _ _ h
  obtain ⟨rfl, hst⟩ := marshalString_split h
  exact ⟨rfl, hst⟩

theorem splits_marshalInt (m n : Int) : Splits (marshalInt m) (marshalInt n) := by
  intro s t hs ht h
  simp only [marshalInt, String.toList_ofList] at h
  obtain ⟨rfl, hst⟩ := numberText_split hs ht h
  exact ⟨rfl, hst⟩

theorem marshalString_injective : Function.Injective marshalString := by
  intro a b h
  exact (marshalString_split (s := []) (t := []) (by rw [h])).1

theorem marshalInt_injective : Function.Injective marshalInt := by
  intro m n h
  have hdelimited : Delimited [] := by
    intro c hc
    cases hc
  have htext : numberText m ++ [] = numberText n ++ [] := by
    rw [String.ofList_injective h]
  exact (numberText_split hdelimited hdelimited htext).1

end Values

section Objects

variable {s t : List Char} {fs gs : List (String × String)}

def fieldText (f : String × String) : List Char := (marshalString f.1).toList ++ ':' :: f.2.toList

def fieldTexts (fs : List (String × String)) : List Char := fs.flatMap fun f => ',' :: fieldText f

theorem toList_marshalObject (fs : List (String × String)) :
    (marshalObject fs).toList = '\x7b' :: (commaSeparated (fs.map fieldText) ++ ['\x7d']) := by
  have hfield : fieldText = fun f => (marshalString f.1).toList ++ ':' :: f.2.toList := rfl
  simp [marshalObject, commaSeparated, hfield, Function.comp_def]

theorem toList_marshalObject_fieldTexts (f : String × String) (fs : List (String × String)) :
    (marshalObject (f :: fs)).toList = '\x7b' :: (fieldText f ++ fieldTexts fs ++ ['\x7d']) := by
  rw [toList_marshalObject, List.map_cons, commaSeparated_cons, List.flatMap_map]
  rfl

theorem delimited_fieldTexts (fs : List (String × String)) (s : List Char) :
    Delimited (fieldTexts fs ++ '\x7d' :: s) := by
  intro c hc
  cases fs <;> simp [fieldTexts] at hc <;> subst hc <;> decide

theorem fieldText_split {f g : String × String}
    (hvalue : f.1 = g.1 → Splits f.2 g.2) (hs : Delimited s) (ht : Delimited t)
    (h : fieldText f ++ s = fieldText g ++ t) : f = g ∧ s = t := by
  simp only [fieldText, List.append_assoc, List.cons_append] at h
  obtain ⟨hname, hrest⟩ := marshalString_split h
  obtain ⟨htext, hst⟩ := hvalue hname s t hs ht (List.cons.inj hrest).2
  exact ⟨Prod.ext hname htext, hst⟩

theorem fieldTexts_split (hvalues : ∀ f ∈ fs, ∀ g ∈ gs, f.1 = g.1 → Splits f.2 g.2)
    (h : fieldTexts fs ++ '\x7d' :: s = fieldTexts gs ++ '\x7d' :: t) : fs = gs ∧ s = t := by
  induction fs generalizing gs with
  | nil =>
    cases gs with
    | nil => simpa [fieldTexts] using h
    | cons g gs => simp [fieldTexts] at h
  | cons f fs ih =>
    cases gs with
    | nil => simp [fieldTexts] at h
    | cons g gs =>
      simp only [fieldTexts, List.flatMap_cons, List.cons_append, List.append_assoc, List.cons.injEq,
        true_and] at h
      obtain ⟨hfg, hrest⟩ := fieldText_split (hvalues f (by simp) g (by simp))
        (delimited_fieldTexts fs s) (delimited_fieldTexts gs t) h
      obtain ⟨hl, hst⟩ := ih (fun x hx y hy => hvalues x (by simp [hx]) y (by simp [hy])) hrest
      exact ⟨by rw [hfg, hl], hst⟩

theorem marshalObject_split (hvalues : ∀ f ∈ fs, ∀ g ∈ gs, f.1 = g.1 → Splits f.2 g.2)
    (h : (marshalObject fs).toList ++ s = (marshalObject gs).toList ++ t) : fs = gs ∧ s = t := by
  cases fs with
  | nil =>
    cases gs with
    | nil => simpa [toList_marshalObject, commaSeparated] using h
    | cons g gs =>
      rw [toList_marshalObject_fieldTexts, toList_marshalObject] at h
      simp [commaSeparated, fieldText, marshalString] at h
  | cons f fs =>
    cases gs with
    | nil =>
      rw [toList_marshalObject_fieldTexts, toList_marshalObject] at h
      simp [commaSeparated, fieldText, marshalString] at h
    | cons g gs =>
      rw [toList_marshalObject_fieldTexts, toList_marshalObject_fieldTexts] at h
      simp only [List.cons_append, List.append_assoc, List.nil_append, List.cons.injEq, true_and] at h
      obtain ⟨hfg, hrest⟩ := fieldText_split (hvalues f (by simp) g (by simp))
        (delimited_fieldTexts fs s) (delimited_fieldTexts gs t) h
      obtain ⟨hl, hst⟩ := fieldTexts_split
        (fun x hx y hy => hvalues x (by simp [hx]) y (by simp [hy])) hrest
      exact ⟨by rw [hfg, hl], hst⟩

theorem splits_marshalObject (hvalues : ∀ f ∈ fs, ∀ g ∈ gs, f.1 = g.1 → Splits f.2 g.2) :
    Splits (marshalObject fs) (marshalObject gs) := by
  intro s t _ _ h
  obtain ⟨rfl, hst⟩ := marshalObject_split hvalues h
  exact ⟨rfl, hst⟩

theorem marshalObject_inj (hvalues : ∀ f ∈ fs, ∀ g ∈ gs, f.1 = g.1 → Splits f.2 g.2)
    (h : marshalObject fs = marshalObject gs) : fs = gs :=
  (marshalObject_split (s := []) (t := []) hvalues (by rw [h])).1

theorem marshalObject_ne_null (fs : List (String × String)) (s t : List Char) :
    (marshalObject fs).toList ++ s ≠ "null".toList ++ t := by
  rw [toList_marshalObject]
  simp

theorem splits_marshalPointer {α : Type} {f : α → String}
    (hobject : ∀ x, ∃ fields, f x = marshalObject fields) (hsplits : ∀ x y, Splits (f x) (f y))
    (p q : Option α) : Splits (marshalPointer f p) (marshalPointer f q) := by
  have hnull : ∀ x s t, (f x).toList ++ s ≠ "null".toList ++ t := by
    intro x s t
    obtain ⟨fields, hx⟩ := hobject x
    rw [hx]
    exact marshalObject_ne_null fields s t
  intro s t hs ht h
  cases p with
  | none =>
    cases q with
    | none => exact ⟨rfl, List.append_cancel_left h⟩
    | some y => exact absurd h.symm (hnull y t s)
  | some x =>
    cases q with
    | none => exact absurd h (hnull x s t)
    | some y => exact hsplits x y s t hs ht h

theorem marshalPointer_injective {α : Type} {f : α → String}
    (hobject : ∀ x, ∃ fields, f x = marshalObject fields) (hf : Function.Injective f) :
    Function.Injective (marshalPointer f) := by
  have hnull : ∀ x, f x ≠ "null" := by
    intro x h
    obtain ⟨fields, hx⟩ := hobject x
    exact marshalObject_ne_null fields [] [] (by rw [← hx, h])
  intro p q h
  cases p with
  | none =>
    cases q with
    | none => rfl
    | some y => exact absurd h.symm (hnull y)
  | some x =>
    cases q with
    | none => exact absurd h (hnull x)
    | some y => rw [hf h]

end Objects

section Requests

theorem splits_marshalItemStack (a b : ItemStackRow) :
    Splits (marshalItemStack a) (marshalItemStack b) := by
  apply splits_marshalObject
  simp [splits_marshalString, splits_marshalInt]

theorem marshalItemStack_injective : Function.Injective marshalItemStack := by
  intro a b h
  have hfields := marshalObject_inj (by simp [splits_marshalString, splits_marshalInt]) h
  cases a
  cases b
  simpa [marshalString_injective.eq_iff, marshalInt_injective.eq_iff] using hfields

theorem mem_omitEmpty {name : String} {n : Int} {f : String × String} (h : f ∈ omitEmpty name n) :
    f = (name, marshalInt n) := by
  unfold omitEmpty at h
  split_ifs at h
  · cases h
  · exact List.mem_singleton.1 h

def timestampFields (t : DateTime) : List (String × String) :=
  omitEmpty "seconds" (t / 1000000000) ++ omitEmpty "nanos" (t % 1000000000)

theorem mem_timestampFields {t : DateTime} {f : String × String} (h : f ∈ timestampFields t) :
    ∃ n, f.2 = marshalInt n := by
  rcases List.mem_append.1 h with h | h
  · exact ⟨_, by rw [mem_omitEmpty h]⟩
  · exact ⟨_, by rw [mem_omitEmpty h]⟩

theorem splits_timestampFields (a b : DateTime) :
    ∀ f ∈ timestampFields a, ∀ g ∈ timestampFields b, f.1 = g.1 → Splits f.2 g.2 := by
  intro f hf g hg _
  obtain ⟨m, hm⟩ := mem_timestampFields hf
  obtain ⟨n, hn⟩ := mem_timestampFields hg
  rw [hm, hn]
  exact splits_marshalInt m n

theorem splits_marshalTimestamp (a b : DateTime) :
    Splits (marshalTimestamp a) (marshalTimestamp b) :=
  splits_marshalObject (splits_timestampFields a b)

theorem omitEmpty_inj {m n m' n' : Int}
    (h : omitEmpty "seconds" m ++ omitEmpty "nanos" n =
      omitEmpty "seconds" m' ++ omitEmpty "nanos" n') : m = m' ∧ n = n' := by
  simp only [omitEmpty] at h
  split_ifs at h <;> simp_all [marshalInt_injective.eq_iff]

theorem marshalTimestamp_injective : Function.Injective marshalTimestamp := by
  intro a b h
  have hfields := marshalObject_inj (splits_timestampFields a b) h
  obtain ⟨hseconds, hnanos⟩ := omitEmpty_inj hfields
  rw [← Int.emod_add_mul_ediv a 1000000000, hnanos, hseconds, Int.emod_add_mul_ediv]

theorem splits_itemStackPointer (p q : Option ItemStackRow) :
    Splits (marshalPointer marshalItemStack p) (marshalPointer marshalItemStack q) :=
  splits_marshalPointer (fun _ => ⟨_, rfl⟩) splits_marshalItemStack p q

theorem splits_timestampPointer (p q : Option DateTime) :
    Splits (marshalPointer marshalTimestamp p) (marshalPointer marshalTimestamp q) :=
  splits_marshalPointer (fun _ => ⟨_, rfl⟩) splits_marshalTimestamp p q

theorem issue_marshal_injective : Function.Injective IssueTradeInstanceRequest.marshal := by
  intro a b h
  have hstack : Function.Injective (marshalPointer marshalItemStack) :=
    marshalPointer_injective (fun _ => ⟨_, rfl⟩) marshalItemStack_injective
  have htime : Function.Injective (marshalPointer marshalTimestamp) :=
    marshalPointer_injective (fun _ => ⟨_, rfl⟩) marshalTimestamp_injective
  have hfields := marshalObject_inj (by
    simp [splits_marshalString, splits_marshalInt, splits_itemStackPointer,
      splits_timestampPointer]) h
  cases a
  cases b
  simpa [marshalString_injective.eq_iff, marshalInt_injective.eq_iff, hstack.eq_iff,
    htime.eq_iff] using hfields

theorem accept_marshal_injective : Function.Injective AcceptTradeInstanceRequest.marshal := by
  intro a b h
  have hfields := marshalObject_inj (by simp [splits_marshalString, splits_marshalInt]) h
  cases a
  cases b
  simpa [marshalString_injective.eq_iff, marshalInt_injective.eq_iff] using hfields

theorem cancel_marshal_injective : Function.Injective CancelTradeInstanceRequest.marshal := by
  intro a b h
  have hfields := marshalObject_inj (by simp [splits_marshalString, splits_marshalInt]) h
  cases a
  cases b
  simpa [marshalString_injective.eq_iff, marshalInt_injective.eq_iff] using hfields

end Requests

section Fingerprints

def requestKind : Request → RequestKind
  | .issue _ => .issueTradeInstance
  | .accept _ => .acceptTradeInstance
  | .cancel _ => .cancelTradeInstance

def requestBody : Request → String
  | .issue m => m.marshal
  | .accept m => m.marshal
  | .cancel m => m.marshal

def digested (request : Request) : String := (requestKind request).text ++ ":" ++ requestBody request

def requestFingerprint (ext : External) (request : Request) : String :=
  marketRequestFingerprint ext (requestKind request) (requestBody request)

theorem request_eq_of_body {a b : Request} (hkind : requestKind a = requestKind b)
    (hbody : requestBody a = requestBody b) : a = b := by
  cases a with
  | issue m =>
    cases b with
    | issue n => rw [issue_marshal_injective hbody]
    | accept n => cases hkind
    | cancel n => cases hkind
  | accept m =>
    cases b with
    | issue n => cases hkind
    | accept n => rw [accept_marshal_injective hbody]
    | cancel n => cases hkind
  | cancel m =>
    cases b with
    | issue n => cases hkind
    | accept n => cases hkind
    | cancel n => rw [cancel_marshal_injective hbody]

/-- Requests of one kind have the same fingerprint only if their digests collide. -/
theorem request_eq_of_fingerprint {ext : External} {a b : Request}
    (hkind : requestKind a = requestKind b)
    (noCollision : ext.sha256Hex (digested a) = ext.sha256Hex (digested b) → digested a = digested b)
    (h : requestFingerprint ext a = requestFingerprint ext b) : a = b := by
  unfold requestFingerprint marketRequestFingerprint at h
  rw [hkind] at h
  have hdigest : ext.sha256Hex (digested a) = ext.sha256Hex (digested b) := by
    unfold digested
    rw [hkind]
    exact String.append_right_inj _ |>.1 h
  have htext := noCollision hdigest
  unfold digested at htext
  rw [hkind] at htext
  exact request_eq_of_body hkind (String.append_right_inj _ |>.1 htext)

end Fingerprints

end EveTrade.MarketFingerprints
