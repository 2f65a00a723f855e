import DpApiClients.Json.Typed

/-!
# The body of a GraphQL query

`QueryData.Encode` writes the body of a request to the Cantabular GraphQL API: the query text
under `query` and the query's variables under `variables`, both as `map[string]interface{}`
values written by a `json.Encoder`. The variables are always `dataset`, `variables` and `text`;
`filters` is added only when there is at least one filter. The encoder cannot fail on strings,
slices and structs, so `Encode` never returns its error.

`encode_payload` says what a reader of the body gets, whatever the strings hold: one object with
the members `query` and `variables`, the query text under the first, and under the second an
object whose keys are exactly those above, in the order the encoder sorts them. Decoded into
`QueryData`, whose fields have no tags and so take members whose keys equal their names up to
case, that object gives the data back, except that an empty list of filters, which is not
written, comes back nil.
-/

namespace DpApiClients.Cantabular

open Json

/-- `Filter`: the categories of one variable that a table keeps. A nil slice is `none`. -/
structure Filter where
  codes : Option (List (List Char))
  /-- `Variable`; the word is a keyword of Lean. -/
  variableName : List Char
  deriving DecidableEq, Repr

/-- `QueryData`: the variables of every query of this package. A nil slice is `none`. -/
structure QueryData where
  dataset : List Char
  text : List Char
  /-- `Variables`; the word is a keyword of Lean. -/
  variableNames : Option (List (List Char))
  filters : Option (List Filter)
  deriving DecidableEq, Repr

/-- A `[]string` as a Go value. -/
def stringsValue : Option (List (List Char)) → GoValue
  | none => .slice none
  | some strings => .slice (some (strings.map .string))

/-- A `Filter` as a Go value: its fields under the names their tags give them. -/
def Filter.value (f : Filter) : GoValue :=
  .struct [("codes".toList, stringsValue f.codes), ("variable".toList, .string f.variableName)]

/-- A `[]Filter` as a Go value. -/
def filtersValue : Option (List Filter) → GoValue
  | none => .slice none
  | some filters => .slice (some (filters.map Filter.value))

/-- A `QueryData` as a Go value: its fields under their Go names, which have no tags. -/
def QueryData.value (data : QueryData) : GoValue :=
  .struct [("Dataset".toList, .string data.dataset), ("Text".toList, .string data.text),
    ("Variables".toList, stringsValue data.variableNames),
    ("Filters".toList, filtersValue data.filters)]

/-- The body `(*QueryData).Encode(query)` writes into its buffer. Go's maps have no order; the
entries are listed as the code inserts them, and the encoder sorts them by key. -/
def QueryData.encode (data : QueryData) (query : List Char) : List Char :=
  let vars : List (List Char × GoValue) :=
    [("dataset".toList, .string data.dataset), ("variables".toList, stringsValue data.variableNames),
      ("text".toList, .string data.text)]
  let vars := if 0 < (data.filters.getD []).length then
      vars ++ [("filters".toList, filtersValue data.filters)]
    else vars
  Json.encode (.map [("query".toList, .string query), ("variables".toList, .map vars)])

/-- The struct types `QueryData` and `Filter`. -/
inductive QueryType where
  | queryData
  | filter
  deriving DecidableEq, Repr

/-- The fields of the struct types of `QueryData`, under their JSON names. -/
def queryFields : QueryType → List (List Char × GoType QueryType)
  | .queryData => [("Dataset".toList, .string), ("Text".toList, .string),
      ("Variables".toList, .slice .string), ("Filters".toList, .slice (.struct .filter))]
  | .filter => [("codes".toList, .slice .string), ("variable".toList, .string)]

/-- The struct types of `QueryData`; neither holds a struct other than through a slice. -/
def queryTypes : TypeEnv QueryType where
  fields := queryFields
  rank _ := 0
  nodup s := by cases s <;> decide
  rank_lt s _ _ mem := by cases s <;> simp [queryFields] at mem

@[simp]
theorem queryTypes_fields : queryTypes.fields = queryFields := rfl

theorem stringsValue_hasType (strings : Option (List (List Char))) :
    hasType queryTypes (.slice .string) (stringsValue strings) := by
  cases strings with
  | none => rfl
  | some strings => simp [stringsValue, hasType, itemsHaveType_iff]

theorem stringsValue_intFree (strings : Option (List (List Char))) :
    (stringsValue strings).intFree := by
  cases strings with
  | none => rfl
  | some strings => simp [stringsValue, GoValue.intFree, itemsIntFree_iff]

theorem filtersValue_hasType (filters : Option (List Filter)) :
    hasType queryTypes (.slice (.struct .filter)) (filtersValue filters) := by
  cases filters with
  | none => rfl
  | some filters =>
    simp only [filtersValue, hasType, itemsHaveType_iff, List.mem_map]
    rintro _ ⟨f, _, rfl⟩
    simp [Filter.value, hasType, fieldsHaveType, queryFields, stringsValue_hasType]

theorem filtersValue_intFree (filters : Option (List Filter)) :
    (filtersValue filters).intFree := by
  cases filters with
  | none => rfl
  | some filters =>
    simp only [filtersValue, GoValue.intFree, itemsIntFree_iff, List.mem_map]
    rintro _ ⟨f, _, rfl⟩
    simp [Filter.value, GoValue.intFree, entriesIntFree, stringsValue_intFree]

/-- A member under a key that folds to a field's name, holding the JSON value of a value of that
field's type, decodes into the field as that value. -/
theorem member_decodes (key : List Char) {name : List Char} {t : GoType QueryType} (v : GoValue)
    (found : findField (queryFields .queryData) key = some (name, t))
    (typed : hasType queryTypes t v) (free : v.intFree) :
    ∃ t', findField (queryTypes.fields .queryData) key = some (name, t') ∧
      shaped queryTypes t' v ∧
      ∀ c, shaped queryTypes t' c → decodeValue queryTypes ([] ++ [name]) t' c v.toJson = (v, none) :=
  ⟨t, found, shaped_of_hasType queryTypes t v typed, fun c shape =>
    decodeValue_toJson queryTypes _ t v typed free c shape⟩

/-- The body of a query is one object of the query text and its variables. Whatever the strings
hold, the variables are exactly `dataset`, `text` and `variables`, with `filters` when there is a
filter, and decoded into a `QueryData` they give the data back, an empty list of filters nil. -/
theorem encode_payload (query : List Char) (data : QueryData) :
    ∃ vars, parse (data.encode query) =
        some (.object [("query".toList, .string query), ("variables".toList, .object vars)]) ∧
      vars.map Prod.fst = (if 0 < (data.filters.getD []).length then
          ["dataset", "filters", "text", "variables"] else ["dataset", "text", "variables"]).map
        String.toList ∧
      decodeValue queryTypes [] (.struct .queryData) (queryTypes.zero (.struct .queryData))
          (.object vars) =
        (QueryData.value { data with
          filters := if 0 < (data.filters.getD []).length then data.filters else none }, none) := by
  have dataset := member_decodes "dataset".toList (.string data.dataset) rfl rfl rfl
  have text := member_decodes "text".toList (.string data.text) rfl rfl rfl
  have variableNames := member_decodes "variables".toList _ rfl
    (stringsValue_hasType data.variableNames) (stringsValue_intFree data.variableNames)
  by_cases nonempty : 0 < (data.filters.getD []).length
  · have filters := member_decodes "filters".toList _ rfl
      (filtersValue_hasType data.filters) (filtersValue_intFree data.filters)
    refine ⟨[("dataset".toList, .string data.dataset),
      ("filters".toList, (filtersValue data.filters).toJson), ("text".toList, .string data.text),
      ("variables".toList, (stringsValue data.variableNames).toJson)], ?_, by simp [nonempty], ?_⟩
    · simp only [QueryData.encode, if_pos nonempty]
      rw [parse_encode]
      · rfl
      · simp [GoValue.intFree, entriesIntFree, stringsValue_intFree, filtersValue_intFree]
    · rw [decodeValue.eq_6, if_pos nonempty]
      refine (decodeMembers_of_decodes queryTypes [] .queryData
        [("Dataset".toList, .string data.dataset), ("Filters".toList, filtersValue data.filters),
          ("Text".toList, .string data.text), ("Variables".toList, stringsValue data.variableNames)]
        ?_ _ (zero_shaped queryTypes (.struct .queryData))).trans rfl
      exact .cons dataset (.cons filters (.cons text (.cons variableNames .nil)))
  · refine ⟨[("dataset".toList, .string data.dataset), ("text".toList, .string data.text),
      ("variables".toList, (stringsValue data.variableNames).toJson)], ?_, by simp [nonempty], ?_⟩
    · simp only [QueryData.encode, if_neg nonempty]
      rw [parse_encode]
      · rfl
      · simp [GoValue.intFree, entriesIntFree, stringsValue_intFree]
    · rw [decodeValue.eq_6, if_neg nonempty]
      refine (decodeMembers_of_decodes queryTypes [] .queryData
        [("Dataset".toList, .string data.dataset), ("Text".toList, .string data.text),
          ("Variables".toList, stringsValue data.variableNames)]
        ?_ _ (zero_shaped queryTypes (.struct .queryData))).trans rfl
      exact .cons dataset (.cons text (.cons variableNames .nil))

end DpApiClients.Cantabular
