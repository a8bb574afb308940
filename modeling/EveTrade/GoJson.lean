import EveTrade.JsonText
import Mathlib.Data.List.Sort

set_option autoImplicit false

/-!
# JSON values as Go holds them

A decoded value keeps a number as the text it was written with, and an object as a map. The encoder
writes the fields of a map in the order of the bytes of their keys, and escapes the line separators
U+2028 and U+2029 whether or not it escapes for HTML.
-/
namespace EveTrade.GoJson

open JsonText

inductive GoValue where
  | null
  | bool (b : Bool)
  | number (literal : String)
  | string (s : String)
  | array (items : List GoValue)
  | object (fields : List (String × GoValue))

/-- A character of a string as the encoder writes it with `SetEscapeHTML(false)`. -/
def encodeChar (c : Char) : List Char :=
  if c.toNat = 8232 then ['\x5c', 'u', '2', '0', '2', '8']
  else if c.toNat = 8233 then ['\x5c', 'u', '2', '0', '2', '9']
  else escapeChar c

def encodeString (s : String) : List Char :=
  '\x22' :: (s.toList.flatMap encodeChar ++ ['\x22'])

/-- The order of two keys by their bytes. -/
def bytesLE (a b : String) : Prop := a.toByteArray.data.toList ≤ b.toByteArray.data.toList

instance : DecidableRel bytesLE := fun a b =>
  inferInstanceAs (Decidable (a.toByteArray.data.toList ≤ b.toByteArray.data.toList))

def commaSeparated (parts : List (List Char)) : List Char := [','].intercalate parts

def encodeField (encodedString : String → List Char) (field : String × List Char) : List Char :=
  encodedString field.1 ++ ':' :: field.2

mutual

/-- The text of a value, as `marshalCanonicalJSON` writes it. -/
def encode : GoValue → List Char
  | .null => ['n', 'u', 'l', 'l']
  | .bool true => ['t', 'r', 'u', 'e']
  | .bool false => ['f', 'a', 'l', 's', 'e']
  | .number literal => literal.toList
  | .string s => encodeString s
  | .array items => '[' :: (commaSeparated (encodeItems items) ++ [']'])
  | .object fields =>
    '\x7b' :: (commaSeparated (((encodeFields fields).insertionSort fun a b =>
      bytesLE a.1 b.1).map (encodeField encodeString)) ++ ['\x7d'])

def encodeItems : List GoValue → List (List Char)
  | [] => []
  | x :: xs => encode x :: encodeItems xs

def encodeFields : List (String × GoValue) → List (String × List Char)
  | [] => []
  | (k, v) :: fs => (k, encode v) :: encodeFields fs

end

def marshalCanonicalJson (value : GoValue) : ByteArray := (String.ofList (encode value)).toByteArray

example : String.ofList (encode (.object [("b", .number "1.50"), ("a", .string "<\u2028>")])) =
    "\x7b\"a\":\"<\\u2028>\",\"b\":1.50\x7d" := by decide +kernel

end EveTrade.GoJson
