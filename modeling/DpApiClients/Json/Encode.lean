import Mathlib.Data.List.Sort
import DpApiClients.Json.Value

/-!
# The encoder of `encoding/json`

`appendString` with HTML escaping on, as `json.NewEncoder` leaves it: the ASCII characters of
`htmlSafeSet` are written as they are; `\` and `"` are escaped with a backslash; backspace,
form feed, newline, carriage return and tab get their one-letter escapes; every other control
character and `<`, `>`, `&` are written `\u00XX`; `U+2028` and `U+2029` are written `\u2028` and `\u2029`;
every other character is written as it is.

A slice is written `null` when it is nil and as its elements in brackets otherwise; a struct as
its fields in declaration order, each under its JSON name; a map as its entries with their keys
sorted. `Encoder.Encode` ends the value with a newline.

No value of these kinds makes the encoder fail: it fails only on channels, functions, complex
numbers, infinite or NaN floats, cyclic values and failing marshalers, so `encodeValue` is a
total function.
-/

namespace DpApiClients.Json

/-- `hex`: the lower-case hex digit of `n < 16`. -/
def hexDigit (n : Nat) : Char :=
  if n < 10 then Char.ofNat ('0'.toNat + n) else Char.ofNat ('a'.toNat + n - 10)

/-- `htmlSafeSet[c]` for an ASCII character `c`. -/
def htmlSafe (c : Char) : Bool :=
  ' ' ≤ c && c ≠ '"' && c ≠ '\\' && c ≠ '<' && c ≠ '>' && c ≠ '&'

/-- What `appendString` writes for one character. -/
def escapeChar (c : Char) : List Char :=
  if c.toNat < 0x80 then
    if htmlSafe c then [c]
    else if c = '\\' ∨ c = '"' then ['\\', c]
    else if c = '\x08' then ['\\', 'b']
    else if c = '\x0c' then ['\\', 'f']
    else if c = '\n' then ['\\', 'n']
    else if c = '\r' then ['\\', 'r']
    else if c = '\t' then ['\\', 't']
    else ['\\', 'u', '0', '0', hexDigit (c.toNat / 16), hexDigit (c.toNat % 16)]
  else if c = '\u2028' ∨ c = '\u2029' then ['\\', 'u', '2', '0', '2', hexDigit (c.toNat % 16)]
  else [c]

/-- `appendString(dst, s, escapeHTML = true)`. -/
def appendString (s : List Char) : List Char :=
  '"' :: s.flatMap escapeChar ++ ['"']

/-- `strings.Compare(a, b) <= 0`: code points compare as the bytes of their UTF-8 encoding. -/
def charsLe : List Char → List Char → Bool
  | [], _ => true
  | _ :: _, [] => false
  | a :: as, b :: bs => a < b || (a = b && charsLe as bs)

/-- The members of an object, each written `"key":value`, between `{` and `}`. -/
def writeObject (members : List (List Char × List Char)) : List Char :=
  '{' :: [','].intercalate (members.map fun (key, value) => appendString key ++ ':' :: value) ++
    ['}']

mutual

/-- The text `encoding/json` writes for a value. -/
def encodeValue : GoValue → List Char
  | .string s => appendString s
  | .int n => (toString n).toList
  | .slice none => ['n', 'u', 'l', 'l']
  | .slice (some items) => '[' :: [','].intercalate (encodeItems items) ++ [']']
  | .struct fields => writeObject (encodeEntries fields)
  | .map entries => writeObject ((encodeEntries entries).insertionSort fun a b => charsLe a.1 b.1)

/-- The texts of the elements of a slice. -/
def encodeItems : List GoValue → List (List Char)
  | [] => []
  | v :: vs => encodeValue v :: encodeItems vs

/-- The keys of fields or entries with the texts of their values. -/
def encodeEntries : List (List Char × GoValue) → List (List Char × List Char)
  | [] => []
  | (key, v) :: rest => (key, encodeValue v) :: encodeEntries rest

end

/-- `(*Encoder).Encode(v)`: the value, then a newline. -/
def encode (v : GoValue) : List Char :=
  encodeValue v ++ ['\n']

theorem encodeItems_eq (items : List GoValue) : encodeItems items = items.map encodeValue := by
  induction items with
  | nil => rfl
  | cons v vs ih => simp [encodeItems, ih]

theorem encodeEntries_eq (entries : List (List Char × GoValue)) :
    encodeEntries entries = entries.map fun (key, v) => (key, encodeValue v) := by
  induction entries with
  | nil => rfl
  | cons entry rest ih => simp [encodeEntries, ih]

end DpApiClients.Json
