import DpApiClients.Json.Value

/-!
# Reading a JSON text

`json.Unmarshal` first checks that its input is one JSON value, with only whitespace around it,
and then reads that value. `parse` does both: it reads a value by recursive descent and fails
on anything else.

A string is read as `encoding/json`'s `unquote` reads it: a control character ends the text
in error, the escapes are `\"`, `\\`, `\/`, `\b`, `\f`, `\n`, `\r`, `\t` and `\uXXXX`, and a
`\uXXXX` that is half of a surrogate pair is joined with the `\uXXXX` after it, or read as
`U+FFFD` when there is no second half. A number is kept as its literal.

The reader of values, arrays and objects counts down a fuel argument, one for each value and
each element or member it reads; `parse` gives it one more than the length of the text, which
the round trip lemmas show is enough for every text the encoder writes.
-/

namespace DpApiClients.Json

def isWhitespace (c : Char) : Bool :=
  c = ' ' || c = '\t' || c = '\n' || c = '\r'

def skipWhitespace : List Char → List Char
  | [] => []
  | c :: rest => if isWhitespace c then skipWhitespace rest else c :: rest

def hexValue (c : Char) : Option Nat :=
  if '0' ≤ c ∧ c ≤ '9' then some (c.toNat - '0'.toNat)
  else if 'a' ≤ c ∧ c ≤ 'f' then some (c.toNat - 'a'.toNat + 10)
  else if 'A' ≤ c ∧ c ≤ 'F' then some (c.toNat - 'A'.toNat + 10)
  else none

/-- `getu4`: the value of four hex digits. -/
def hex4 (a b c d : Char) : Option Nat := do
  let a ← hexValue a
  let b ← hexValue b
  let c ← hexValue c
  let d ← hexValue d
  pure (((a * 16 + b) * 16 + c) * 16 + d)

/-- The character a one-letter escape stands for. -/
def unescapeLetter : Char → Option Char
  | '"' => some '"'
  | '\\' => some '\\'
  | '/' => some '/'
  | 'b' => some '\x08'
  | 'f' => some '\x0c'
  | 'n' => some '\n'
  | 'r' => some '\r'
  | 't' => some '\t'
  | _ => none

def isSurrogate (r : Nat) : Bool :=
  0xD800 ≤ r && r < 0xE000

/-- `utf16.DecodeRune(r1, r2)`: the character of a surrogate pair, if it is one. -/
def decodePair (r1 r2 : Nat) : Option Char :=
  if 0xD800 ≤ r1 ∧ r1 < 0xDC00 ∧ 0xDC00 ≤ r2 ∧ r2 < 0xE000 then
    some (Char.ofNat (0x10000 + (r1 - 0xD800) * 0x400 + (r2 - 0xDC00)))
  else none

/-- What is written for the first half of a surrogate pair that no second half follows. -/
def unpaired : Option Nat → List Char
  | none => []
  | some _ => ['\uFFFD']

/-- The characters of a string after its opening quote, and what follows its closing quote.
`high` is the first half of a surrogate pair read just before, if any: `unquote` joins it with
a second half that comes next, and writes `U+FFFD` for it otherwise. -/
def parseCharsFrom : Option Nat → List Char → Option (List Char × List Char)
  | _, [] => none
  | high, '"' :: rest => some (unpaired high, rest)
  | high, '\\' :: 'u' :: a :: b :: c :: d :: rest =>
    match hex4 a b c d with
    | none => none
    | some r =>
      match high.bind fun h => decodePair h r with
      | some pair => (parseCharsFrom none rest).map fun (s, rest) => (pair :: s, rest)
      | none =>
        if 0xD800 ≤ r ∧ r < 0xDC00 then
          (parseCharsFrom (some r) rest).map fun (s, rest) => (unpaired high ++ s, rest)
        else
          let c := if isSurrogate r then '\uFFFD' else Char.ofNat r
          (parseCharsFrom none rest).map fun (s, rest) => (unpaired high ++ c :: s, rest)
  | high, '\\' :: e :: rest =>
    match unescapeLetter e with
    | none => none
    | some c => (parseCharsFrom none rest).map fun (s, rest) => (unpaired high ++ c :: s, rest)
  | high, c :: rest =>
    if c.toNat < 0x20 then none
    else (parseCharsFrom none rest).map fun (s, rest) => (unpaired high ++ c :: s, rest)

/-- The characters of a string after its opening quote, and what follows its closing quote. -/
def parseChars (s : List Char) : Option (List Char × List Char) :=
  parseCharsFrom none s

def isDigit (c : Char) : Bool :=
  '0' ≤ c && c ≤ '9'

/-- The digits at the start of `s`, at least one, and what follows them. -/
def digits (s : List Char) : Option (List Char × List Char) :=
  match s.span isDigit with
  | ([], _) => none
  | (ds, rest) => some (ds, rest)

/-- A number: an optional minus, `0` or digits not starting with `0`, an optional fraction and
an optional exponent. -/
def parseNumber (s : List Char) : Option (List Char × List Char) := do
  let (sign, s) := match s with
    | '-' :: s => (['-'], s)
    | s => ([], s)
  let (int, s) ← match s with
    | '0' :: s => some (['0'], s)
    | s => digits s
  let (frac, s) ← match s with
    | '.' :: s => (digits s).map fun (ds, s) => ('.' :: ds, s)
    | s => some ([], s)
  let (exp, s) ← match s with
    | e :: s =>
      if e = 'e' ∨ e = 'E' then
        match s with
        | '+' :: s => (digits s).map fun (ds, s) => (e :: '+' :: ds, s)
        | '-' :: s => (digits s).map fun (ds, s) => (e :: '-' :: ds, s)
        | s => (digits s).map fun (ds, s) => (e :: ds, s)
      else some ([], e :: s)
    | [] => some ([], [])
  pure (sign ++ int ++ frac ++ exp, s)

mutual

/-- A value, after any whitespace, and what follows it. -/
def parseValue : Nat → List Char → Option (JsonValue × List Char)
  | 0, _ => none
  | fuel + 1, s =>
    match skipWhitespace s with
    | '{' :: rest =>
      match skipWhitespace rest with
      | '}' :: rest => some (.object [], rest)
      | rest => parseMembers fuel rest []
    | '[' :: rest =>
      match skipWhitespace rest with
      | ']' :: rest => some (.array [], rest)
      | rest => parseElements fuel rest []
    | '"' :: rest => (parseChars rest).map fun (s, rest) => (.string s, rest)
    | 'n' :: 'u' :: 'l' :: 'l' :: rest => some (.null, rest)
    | 't' :: 'r' :: 'u' :: 'e' :: rest => some (.bool true, rest)
    | 'f' :: 'a' :: 'l' :: 's' :: 'e' :: rest => some (.bool false, rest)
    | s => (parseNumber s).map fun (literal, rest) => (.number literal, rest)

/-- The elements of an array after its `[` and its first element's start; `read` holds the
elements before. -/
def parseElements : Nat → List Char → List JsonValue → Option (JsonValue × List Char)
  | 0, _, _ => none
  | fuel + 1, s, read =>
    match parseValue fuel s with
    | none => none
    | some (v, rest) =>
      match skipWhitespace rest with
      | ',' :: rest => parseElements fuel rest (read ++ [v])
      | ']' :: rest => some (.array (read ++ [v]), rest)
      | _ => none

/-- The members of an object after its `{` and its first member's start; `read` holds the
members before. -/
def parseMembers : Nat → List Char → List (List Char × JsonValue) →
    Option (JsonValue × List Char)
  | 0, _, _ => none
  | fuel + 1, s, read =>
    match skipWhitespace s with
    | '"' :: rest =>
      match parseChars rest with
      | none => none
      | some (key, rest) =>
        match skipWhitespace rest with
        | ':' :: rest =>
          match parseValue fuel rest with
          | none => none
          | some (v, rest) =>
            match skipWhitespace rest with
            | ',' :: rest => parseMembers fuel rest (read ++ [(key, v)])
            | '}' :: rest => some (.object (read ++ [(key, v)]), rest)
            | _ => none
        | _ => none
    | _ => none

end

/-- The one value of a JSON text, with nothing but whitespace after it. -/
def parse (text : List Char) : Option JsonValue :=
  match parseValue (text.length + 1) text with
  | some (v, rest) => if skipWhitespace rest = [] then some v else none
  | none => none

end DpApiClients.Json
