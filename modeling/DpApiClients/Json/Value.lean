import Mathlib.Data.List.Basic

/-!
# JSON values and Go values

`JsonValue` is a JSON text as `encoding/json`'s decoder reads it: an object keeps its members in
their order, a repeated key included, and a number keeps its literal, since what it becomes
depends on the Go type it is decoded into.

`GoValue` is a Go value that `encoding/json` writes or fills: a string, an `int`, a slice
(`none` is a nil slice), a struct with the JSON name of each of its fields in declaration
order, and a `map[string]interface{}` with its entries.

Strings of both are Unicode text, a list of code points: on valid UTF-8, `encoding/json`'s loops
over the bytes of a string handle each rune as a whole, so text is modelled rune by rune.
-/

namespace DpApiClients.Json

/-- A JSON value. -/
inductive JsonValue where
  | null
  | bool (b : Bool)
  | number (literal : List Char)
  | string (s : List Char)
  | array (items : List JsonValue)
  | object (members : List (List Char × JsonValue))
  deriving Repr, Inhabited

/-- A Go value of a kind `encoding/json` writes or fills. -/
inductive GoValue where
  | string (s : List Char)
  | int (n : Int)
  | slice (items : Option (List GoValue))
  | struct (fields : List (List Char × GoValue))
  | map (entries : List (List Char × GoValue))
  deriving Repr, Inhabited

/-- One step into a value: a member or field by its JSON name, or an element by its index. -/
inductive Step where
  | field (name : List Char)
  | index (i : Nat)
  deriving DecidableEq, Repr

namespace JsonValue

/-- The value at `path`, if there is one. -/
def read : List Step → JsonValue → Option JsonValue
  | [], v => some v
  | .field name :: path, .object members => (members.lookup name).bind (read path)
  | .index i :: path, .array items => items[i]?.bind (read path)
  | _ :: _, _ => none

end JsonValue

namespace GoValue

/-- The value at `path`, if there is one: a struct field by its JSON name, a slice element by
its index. -/
def read : List Step → GoValue → Option GoValue
  | [], v => some v
  | .field name :: path, .struct fields => (fields.lookup name).bind (read path)
  | .index i :: path, .slice (some items) => items[i]?.bind (read path)
  | _ :: _, _ => none

end GoValue

end DpApiClients.Json
