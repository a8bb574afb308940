import EveTrade.GoJson
import EveTrade.JsonTree

set_option autoImplicit false

/-!
# What the text of a Go value determines

A map has no order of its own, so values are compared with the fields of every object sorted. Two
values have the same text exactly when they are the same in that sense, provided their numbers are
written as JSON writes numbers.
-/
namespace EveTrade.GoJsonText

open JsonText GoJson JsonTree

def sortFields {α : Type} (fields : List (String × α)) : List (String × α) :=
  fields.insertionSort fun a b => bytesLE a.1 b.1

mutual

def sorted : GoValue → GoValue
  | .null => .null
  | .bool b => .bool b
  | .number literal => .number literal
  | .string s => .string s
  | .array items => .array (sortedItems items)
  | .object fields => .object (sortFields (sortedFields fields))

def sortedItems : List GoValue → List GoValue
  | [] => []
  | x :: xs => sorted x :: sortedItems xs

def sortedFields : List (String × GoValue) → List (String × GoValue)
  | [] => []
  | (k, v) :: fs => (k, sorted v) :: sortedFields fs

end

section Sorting

theorem sortFields_map {α β : Type} (f : α → β) (fields : List (String × α)) :
    sortFields (fields.map fun x => (x.1, f x.2)) =
      (sortFields fields).map fun x => (x.1, f x.2) := by
  unfold sortFields
  exact (List.map_insertionSort (r := fun a b : String × α => bytesLE a.1 b.1)
    (s := fun a b : String × β => bytesLE a.1 b.1) (fun x => (x.1, f x.2)) fields (by simp)).symm

theorem commaSeparated_cons (p : List Char) (ps : List (List Char)) :
    commaSeparated (p :: ps) = p ++ ps.flatMap fun q => ',' :: q :=
  intercalate_comma p ps

theorem sortFields_sortFields {α : Type} (fields : List (String × α)) :
    sortFields (sortFields fields) = sortFields fields := by
  have htotal : Std.Total fun a b : String × α => bytesLE a.1 b.1 := ⟨fun _ _ => List.le_total _ _⟩
  have htrans : IsTrans _ fun a b : String × α => bytesLE a.1 b.1 := ⟨fun _ _ _ => List.le_trans⟩
  exact (List.pairwise_insertionSort _ fields).insertionSort_eq

theorem encodeFields_eq_map (fs : List (String × GoValue)) :
    encodeFields fs = fs.map fun f => (f.1, encode f.2) := by
  induction fs with
  | nil => rfl
  | cons f fs ih => rw [encodeFields, ih, List.map_cons]

mutual

theorem encode_sorted : (v : GoValue) → encode (sorted v) = encode v
  | .null => rfl
  | .bool _ => rfl
  | .number _ => rfl
  | .string _ => rfl
  | .array items => by rw [sorted, encode, encodeItems_sorted items, encode]
  | .object fields => by
    have hsort : sortFields (encodeFields (sortFields (sortedFields fields))) =
        sortFields (encodeFields fields) := by
      rw [encodeFields_eq_map, ← sortFields_map, ← encodeFields_eq_map, encodeFields_sorted fields,
        sortFields_sortFields]
    unfold sortFields at hsort
    rw [sorted, encode, sortFields, hsort, encode]

theorem encodeItems_sorted : (xs : List GoValue) → encodeItems (sortedItems xs) = encodeItems xs
  | [] => rfl
  | x :: xs => by
    rw [sortedItems, encodeItems, encode_sorted x, encodeItems_sorted xs, encodeItems]

theorem encodeFields_sorted : (fs : List (String × GoValue)) →
    encodeFields (sortedFields fs) = encodeFields fs
  | [] => rfl
  | (k, v) :: fs => by
    rw [sortedFields, encodeFields, encode_sorted v, encodeFields_sorted fs, encodeFields]

end

end Sorting

section Strings

/-- Reads back what `encodeChar` wrote. -/
def decodeHead : List Char → Option (Char × List Char)
  | '\x5c' :: 'u' :: '2' :: '0' :: '2' :: '8' :: r => some (Char.ofNat 8232, r)
  | '\x5c' :: 'u' :: '2' :: '0' :: '2' :: '9' :: r => some (Char.ofNat 8233, r)
  | s => unescapeHead s

theorem decodeHead_encodeChar (c : Char) (r : List Char) :
    decodeHead (encodeChar c ++ r) = some (c, r) := by
  have hc : c = Char.ofNat c.toNat := (Char.ofNat_toNat c).symm
  unfold encodeChar
  split_ifs with hline hparagraph
  · rw [hc, hline]
    rfl
  · rw [hc, hparagraph]
    rfl
  · rw [← unescapeHead_escapeChar c r]
    unfold escapeChar
    split_ifs with h1 h2
    all_goals first | rfl | skip
    change decodeHead (c :: r) = unescapeHead (c :: r)
    unfold decodeHead
    split
    · simp_all
    · simp_all
    · rfl

theorem encodeChar_split {a b : Char} {s t : List Char}
    (h : encodeChar a ++ s = encodeChar b ++ t) : a = b ∧ s = t := by
  have ha := decodeHead_encodeChar a s
  rw [h, decodeHead_encodeChar] at ha
  simpa [eq_comm] using ha

theorem encodeChar_ne_quote (c : Char) (s t : List Char) : encodeChar c ++ s ≠ '\x22' :: t := by
  unfold encodeChar
  split_ifs
  · simp
  · simp
  · exact escapeChar_ne_quote c s t

theorem encodeString_split {a b : String} {s t : List Char}
    (h : encodeString a ++ s = encodeString b ++ t) : a = b ∧ s = t := by
  have hsplit := flatMap_quote_split encodeChar_split encodeChar_ne_quote a.toList b.toList s t
    (by simpa [encodeString] using h)
  exact ⟨String.toList_injective hsplit.1, hsplit.2⟩

end Strings

section Numbers

def isNumberChar (c : Char) : Bool :=
  c.isDigit || c == '-' || c == '+' || c == '.' || c == 'e' || c == 'E'

/-- A number as JSON writes it starts with a digit or a sign and has no characters but those of
numbers. -/
def NumberLiteral (literal : String) : Prop :=
  ∃ c r, literal.toList = c :: r ∧ (c = '-' ∨ c.isDigit = true) ∧
    ∀ d ∈ literal.toList, isNumberChar d = true

mutual

def Numeric : GoValue → Prop
  | .number literal => NumberLiteral literal
  | .array items => NumericItems items
  | .object fields => NumericFields fields
  | _ => True

def NumericItems : List GoValue → Prop
  | [] => True
  | x :: xs => Numeric x ∧ NumericItems xs

def NumericFields : List (String × GoValue) → Prop
  | [] => True
  | (_, v) :: fs => Numeric v ∧ NumericFields fs

end

end Numbers

section Texts

def goQuoting : Quoting where
  quote := encodeString
  opens _ := ⟨_, rfl⟩
  split := encodeString_split

/-- The literal, if it is a word at all. -/
def literalWord (literal : String) : Word :=
  if h : literal.toList ≠ [] ∧ literal.toList.all isWordChar = true then ⟨_, h.1, h.2⟩
  else zeroWord

theorem chars_literalWord {literal : String} (h : NumberLiteral literal) :
    (literalWord literal).chars = literal.toList := by
  obtain ⟨c, r, hc, -, hall⟩ := h
  have hword : literal.toList ≠ [] ∧ literal.toList.all isWordChar = true :=
    ⟨by simp [hc], List.all_eq_true.mpr fun d hd => isWordChar_of (hall d hd) (by decide)⟩
  rw [literalWord, dif_pos hword]

mutual

def tree : GoValue → Tree
  | .null => .bare ⟨['n', 'u', 'l', 'l'], by decide, by decide⟩
  | .bool true => .bare ⟨['t', 'r', 'u', 'e'], by decide, by decide⟩
  | .bool false => .bare ⟨['f', 'a', 'l', 's', 'e'], by decide, by decide⟩
  | .number literal => .bare (literalWord literal)
  | .string s => .str s
  | .array items => .arr (treeItems items)
  | .object fields => .obj (sortFields (treeFields fields))

def treeItems : List GoValue → List Tree
  | [] => []
  | x :: xs => tree x :: treeItems xs

def treeFields : List (String × GoValue) → List (String × Tree)
  | [] => []
  | (k, v) :: fs => (k, tree v) :: treeFields fs

end

mutual

theorem encode_eq_text : (v : GoValue) → Numeric v → encode v = text goQuoting (tree v)
  | .null, _ => rfl
  | .bool true, _ => rfl
  | .bool false, _ => rfl
  | .number _, h => (chars_literalWord h).symm
  | .string _, _ => rfl
  | .array items, h => by
    rw [encode, tree, JsonTree.text, itemTexts_eq_map, encodeItems_eq_text items h]
    rfl
  | .object fields, h => by
    have hsort := sortFields_map (text goQuoting) (treeFields fields)
    rw [← encodeFields_eq_text fields h] at hsort
    unfold sortFields at hsort
    rw [encode, hsort, tree, JsonTree.text, fieldTexts_eq_map, List.map_map]
    rfl

theorem encodeItems_eq_text : (xs : List GoValue) → NumericItems xs →
    encodeItems xs = (treeItems xs).map (text goQuoting)
  | [], _ => rfl
  | x :: xs, h => by
    rw [encodeItems, treeItems, List.map_cons, encode_eq_text x h.1, encodeItems_eq_text xs h.2]

theorem encodeFields_eq_text : (fs : List (String × GoValue)) → NumericFields fs →
    encodeFields fs = (treeFields fs).map fun f => (f.1, text goQuoting f.2)
  | [], _ => rfl
  | (k, v) :: fs, h => by
    rw [encodeFields, treeFields, List.map_cons, encode_eq_text v h.1,
      encodeFields_eq_text fs h.2]

end

def readWord (chars : List Char) : GoValue :=
  if chars = ['n', 'u', 'l', 'l'] then .null
  else if chars = ['t', 'r', 'u', 'e'] then .bool true
  else if chars = ['f', 'a', 'l', 's', 'e'] then .bool false
  else .number (String.ofList chars)

theorem readWord_literal {literal : String} (h : NumberLiteral literal) :
    readWord literal.toList = .number literal := by
  obtain ⟨c, r, hc, hstart, -⟩ := h
  have hne : c ≠ 'n' ∧ c ≠ 't' ∧ c ≠ 'f' := by
    refine ⟨?_, ?_, ?_⟩ <;> rintro rfl <;> exact absurd hstart (by decide)
  rw [readWord, hc, if_neg (by simp [hne]), if_neg (by simp [hne]), if_neg (by simp [hne]), ← hc,
    String.ofList_toList]

mutual

/-- The value with sorted fields that a tree stands for. -/
def ofTree : Tree → GoValue
  | .bare w => readWord w.chars
  | .str s => .string s
  | .arr items => .array (ofTreeItems items)
  | .obj fields => .object (ofTreeFields fields)

def ofTreeItems : List Tree → List GoValue
  | [] => []
  | x :: xs => ofTree x :: ofTreeItems xs

def ofTreeFields : List (String × Tree) → List (String × GoValue)
  | [] => []
  | (k, v) :: fs => (k, ofTree v) :: ofTreeFields fs

end

theorem ofTreeFields_eq_map (fs : List (String × Tree)) :
    ofTreeFields fs = fs.map fun f => (f.1, ofTree f.2) := by
  induction fs with
  | nil => rfl
  | cons f fs ih => rw [ofTreeFields, ih, List.map_cons]

mutual

theorem ofTree_tree : (v : GoValue) → Numeric v → ofTree (tree v) = sorted v
  | .null, _ => rfl
  | .bool true, _ => rfl
  | .bool false, _ => rfl
  | .number _, h => by
    rw [tree, ofTree, chars_literalWord h, readWord_literal h, sorted]
  | .string _, _ => rfl
  | .array items, h => by rw [tree, ofTree, ofTreeItems_tree items h, sorted]
  | .object fields, h => by
    rw [tree, ofTree, ofTreeFields_eq_map, ← sortFields_map, ← ofTreeFields_eq_map,
      ofTreeFields_tree fields h, sorted]

theorem ofTreeItems_tree : (xs : List GoValue) → NumericItems xs →
    ofTreeItems (treeItems xs) = sortedItems xs
  | [], _ => rfl
  | x :: xs, h => by
    rw [treeItems, ofTreeItems, ofTree_tree x h.1, ofTreeItems_tree xs h.2, sortedItems]

theorem ofTreeFields_tree : (fs : List (String × GoValue)) → NumericFields fs →
    ofTreeFields (treeFields fs) = sortedFields fs
  | [], _ => rfl
  | (k, v) :: fs, h => by
    rw [treeFields, ofTreeFields, ofTree_tree v h.1, ofTreeFields_tree fs h.2, sortedFields]

end

/-- Values are the same when they are so with all fields sorted. -/
def SameValue (v w : GoValue) : Prop := sorted v = sorted w

theorem marshal_eq_of_same {v w : GoValue} (h : SameValue v w) :
    marshalCanonicalJson v = marshalCanonicalJson w := by
  unfold marshalCanonicalJson
  rw [← encode_sorted v, h, encode_sorted]

theorem same_of_marshal_eq {v w : GoValue} (hv : Numeric v) (hw : Numeric w)
    (h : marshalCanonicalJson v = marshalCanonicalJson w) : SameValue v w := by
  have htext : encode v = encode w := String.ofList_injective (String.toByteArray_inj.mp h)
  rw [encode_eq_text v hv, encode_eq_text w hw] at htext
  rw [SameValue, ← ofTree_tree v hv, text_injective htext, ofTree_tree w hw]

end Texts

end EveTrade.GoJsonText
