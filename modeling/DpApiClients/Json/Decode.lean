import DpApiClients.Json.Parse

/-!
# The decoder of `encoding/json`

`decodeValue` is `(*decodeState).value` on a value already read: it decodes a JSON value into
the current value of a Go variable of a given type and returns the new value with the first
type error it met. Like Go, it does not stop at a type error: it keeps the variable as it was,
saves the error, and goes on with the rest of the input.

* `null` makes a slice nil and leaves a string, an `int` or a struct as it was.
* A string goes into a string; a number goes into an `int` when `strconv.ParseInt` reads its
  literal as a 64-bit integer.
* An array goes into a slice: element `i` is decoded into the slice's element `i` when there is
  one and into a zero value otherwise, and the slice ends up as long as the array.
* An object goes into a struct: a member goes into the field whose JSON name is its key, or,
  when there is none, into the first field whose name equals it up to case; a member with no
  field is skipped.
* Anything else is an `UnmarshalTypeError` naming the JSON value and the fields on the way.

Struct fields are matched up to case as `foldName` does for field names in ASCII: an ASCII
letter folds to upper case, and of the other characters only `ſ` and the Kelvin sign `K`
fold into ASCII, to `S` and `K`.
-/

namespace DpApiClients.Json

/-- A Go type the decoder fills: `string`, `int` (64 bits), a slice, or a named struct type. -/
inductive GoType (σ : Type) where
  | string
  | int
  | slice (elem : GoType σ)
  | struct (name : σ)
  deriving DecidableEq, Repr

/-- The struct types of a program: the fields of each, with the JSON name of each (its tag's
name, or its Go name when it has none) and its type. The JSON names of a struct are distinct,
and a struct holds another struct other than through a slice only at a lower rank, as a Go
type of finite size does. -/
structure TypeEnv (σ : Type) where
  fields : σ → List (List Char × GoType σ)
  rank : σ → Nat
  nodup : ∀ s, ((fields s).map Prod.fst).Nodup
  rank_lt : ∀ s name s', (name, GoType.struct s') ∈ fields s → rank s' < rank s

variable {σ : Type} (env : TypeEnv σ)

/-- The zero value of a type, built `fuel` structs deep. -/
def zeroWith : Nat → GoType σ → GoValue
  | _, .string => .string []
  | _, .int => .int 0
  | _, .slice _ => .slice none
  | 0, .struct _ => .struct []
  | fuel + 1, .struct s => .struct ((env.fields s).map fun (name, t) => (name, zeroWith fuel t))

/-- The zero value of a type: a struct's rank bounds how deep its structs go. -/
def TypeEnv.zero : GoType σ → GoValue
  | .struct s => zeroWith env (env.rank s + 1) (.struct s)
  | t => zeroWith env 0 t

/-- What `UnmarshalTypeError` reports: the JSON value that did not fit, as Go describes it, and
the JSON names of the struct fields on the way to it. -/
structure UnmarshalTypeError where
  value : List Char
  field : List (List Char)
  deriving DecidableEq, Repr

/-- How an `UnmarshalTypeError` names a JSON value of the wrong kind. -/
def JsonValue.describe : JsonValue → List Char
  | .null => "null".toList
  | .bool _ => "bool".toList
  | .number _ => "number".toList
  | .string _ => "string".toList
  | .array _ => "array".toList
  | .object _ => "object".toList

/-- The value of decimal digits. -/
def digitsValue (ds : List Char) : Nat :=
  ds.foldl (fun n d => 10 * n + (d.toNat - '0'.toNat)) 0

/-- `strconv.ParseInt(literal, 10, 64)`: an optional sign and decimal digits, in the range of a
64-bit integer, from `-2^63` to `2^63 - 1`. -/
def parseInt (literal : List Char) : Option Int :=
  let (negative, ds) : Bool × List Char := match literal with
    | '-' :: ds => (true, ds)
    | '+' :: ds => (false, ds)
    | ds => (false, ds)
  if ds = [] ∨ !ds.all isDigit then none
  else
    let v : Int := if negative then -(digitsValue ds : Int) else digitsValue ds
    if -9223372036854775808 ≤ v ∧ v < 9223372036854775808 then some v else none

/-- `d.savedError`: the first error saved is the one returned. -/
def firstError : Option UnmarshalTypeError → Option UnmarshalTypeError → Option UnmarshalTypeError
  | some e, _ => some e
  | none, e => e

/-- `foldRune` for the characters that fold into ASCII. -/
def foldChar (c : Char) : Char :=
  if 'a' ≤ c ∧ c ≤ 'z' then Char.ofNat (c.toNat - 32)
  else if c = '\u017F' then 'S'
  else if c = '\u212A' then 'K'
  else c

/-- The field a member's key goes into: the one with that JSON name, or else the first whose
name folds to the same. -/
def findField (fields : List (List Char × GoType σ)) (key : List Char) :
    Option (List Char × GoType σ) :=
  match fields.find? (·.1 = key) with
  | some field => some field
  | none => fields.find? fun field => field.1.map foldChar = key.map foldChar

/-- The elements of a slice value, none for a nil slice or a value of another kind. -/
def GoValue.items : GoValue → List GoValue
  | .slice (some items) => items
  | _ => []

/-- The fields of a struct value. -/
def GoValue.fields : GoValue → List (List Char × GoValue)
  | .struct fields => fields
  | _ => []

/-- The fields with the one named `name` set to `v`. -/
def setField (fields : List (List Char × GoValue)) (name : List Char) (v : GoValue) :
    List (List Char × GoValue) :=
  fields.map fun field => if field.1 = name then (name, v) else field

mutual

/-- `d.value(v)`: decode `json` into a variable of type `t` holding `current`. -/
def decodeValue (path : List (List Char)) :
    GoType σ → GoValue → JsonValue → GoValue × Option UnmarshalTypeError
  | .slice _, _, .null => (.slice none, none)
  | _, current, .null => (current, none)
  | .string, _, .string s => (.string s, none)
  | .int, current, .number literal =>
    match parseInt literal with
    | some n => (.int n, none)
    | none => (current, some ⟨"number ".toList ++ literal, path⟩)
  | .slice elem, current, .array items =>
    let (values, err) := decodeElements path elem current.items items
    (.slice (some values), err)
  | .struct s, current, .object members => decodeMembers path s current.fields members
  | _, current, json => (current, some ⟨json.describe, path⟩)

/-- `d.array(v)` into a slice whose elements are `existing`. -/
def decodeElements (path : List (List Char)) (elem : GoType σ) :
    List GoValue → List JsonValue → List GoValue × Option UnmarshalTypeError
  | _, [] => ([], none)
  | existing, json :: rest =>
    let (v, err) := decodeValue path elem (existing.headD (env.zero elem)) json
    let (vs, errs) := decodeElements path elem existing.tail rest
    (v :: vs, firstError err errs)

/-- `d.object(v)` into a struct of type `s` whose fields are `fields`. -/
def decodeMembers (path : List (List Char)) (s : σ) :
    List (List Char × GoValue) → List (List Char × JsonValue) → GoValue × Option UnmarshalTypeError
  | fields, [] => (.struct fields, none)
  | fields, (key, json) :: rest =>
    match findField (env.fields s) key with
    | some (name, t) =>
      let (v, err) :=
        decodeValue (path ++ [name]) t ((fields.lookup name).getD (env.zero t)) json
      let (result, errs) := decodeMembers path s (setField fields name v) rest
      (result, firstError err errs)
    | none => decodeMembers path s fields rest

end

/-- The errors of `json.Unmarshal`. -/
inductive UnmarshalError where
  | syntaxError
  | typeError (err : UnmarshalTypeError)
  deriving DecidableEq, Repr

/-- `json.Unmarshal(data, &v)` for a `v` of type `t` holding `current`: a text that is not one
JSON value leaves `v` as it was; otherwise `v` is decoded and the first type error met, if
any, is returned. -/
def unmarshal (t : GoType σ) (data : List Char) (current : GoValue) :
    GoValue × Option UnmarshalError :=
  match parse data with
  | none => (current, some .syntaxError)
  | some json =>
    let (v, err) := decodeValue env [] t current json
    (v, err.map .typeError)

end DpApiClients.Json
