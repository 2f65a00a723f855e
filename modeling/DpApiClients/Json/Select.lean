import DpApiClients.Json.Typed

/-!
# Decoding a response that follows a selection

A GraphQL response holds, for each field its query selects, a value of the field's kind: a
string, an integer, a list, or an object of the fields selected under it, and any of them may be
`null`. `Selection` is that shape, and `conforms sel json` says that a JSON value has it, with
each key at most once in an object.

Decoding such a value into a Go type needs room for it in the type. `fits env t sel` says that a
struct takes each selected member into the field of that JSON name, or into no field at all, in
which case the decoder skips the member, and that strings, integers and lists go into strings,
`int`s and slices. `decodeValue_conforms` says that decoding a conforming value into a fitting
type, with every integer in the range of `int`, returns no error, and that every non-null value at
a path where the Go type has a field is read back at that path (`ReadsBack`): strings and
integers equal, arrays as slices with as many elements, in order. `gap env t sel` is what the
selection holds that the type has no field for, and every path of a conforming value is a path
where the type has a place or one into that gap (`reaches_or_gap`).
-/

namespace DpApiClients.Json

/-- What a query selects, as its response holds it. -/
inductive Selection where
  | string
  | int
  | list (item : Selection)
  | object (fields : List (List Char × Selection))
  deriving Repr, Inhabited

/-- A JSON integer: an optional minus and digits. -/
def isInteger : List Char → Bool
  | '-' :: ds => !ds.isEmpty && ds.all isDigit
  | ds => !ds.isEmpty && ds.all isDigit

mutual

/-- Whether `json` follows `sel`: `null` anywhere, and otherwise a value of the selected kind,
an object with only selected keys, each once. -/
def conforms : Selection → JsonValue → Bool
  | _, .null => true
  | .string, .string _ => true
  | .int, .number literal => isInteger literal
  | .list item, .array items => conformsItems item items
  | .object fields, .object members =>
    decide (members.map Prod.fst).Nodup && conformsMembers fields members
  | _, _ => false

def conformsItems (item : Selection) : List JsonValue → Bool
  | [] => true
  | json :: rest => conforms item json && conformsItems item rest

def conformsMembers (fields : List (List Char × Selection)) :
    List (List Char × JsonValue) → Bool
  | [] => true
  | (key, json) :: rest =>
    (match fields.lookup key with
      | some sel => conforms sel json
      | none => false) && conformsMembers fields rest

end

mutual

/-- Whether `strconv.ParseInt` reads every number of `json` as a 64-bit integer. -/
def intsFit : JsonValue → Bool
  | .number literal => (parseInt literal).isSome
  | .array items => itemsFit items
  | .object members => membersFit members
  | _ => true

def itemsFit : List JsonValue → Bool
  | [] => true
  | json :: rest => intsFit json && itemsFit rest

def membersFit : List (List Char × JsonValue) → Bool
  | [] => true
  | (_, json) :: rest => intsFit json && membersFit rest

end

/-- Whether a Go value read back at a path holds the JSON value there: the same string, the
`int` of the number, a slice as long as the array, a struct for an object. -/
def Matches : JsonValue → GoValue → Bool
  | .null, _ => true
  | .string s, .string s' => s' = s
  | .number literal, .int n => parseInt literal = some n
  | .array items, .slice (some values) => values.length = items.length
  | .object _, .struct _ => true
  | _, _ => false

variable {σ : Type} (env : TypeEnv σ)

mutual

/-- Whether decoding a value that follows `sel` into a `t` meets only kinds that `t` holds, and
puts each selected member into the field of its own name or skips it. -/
def fits : GoType σ → Selection → Bool
  | .string, .string => true
  | .int, .int => true
  | .slice t, .list item => fits t item
  | .struct s, .object fields => fitsFields (env.fields s) fields
  | _, _ => false

def fitsFields (decls : List (List Char × GoType σ)) : List (List Char × Selection) → Bool
  | [] => true
  | (key, sel) :: rest =>
    (match findField decls key with
      | some (name, t) => name = key && fits t sel
      | none => true) && fitsFields decls rest

end

/-- The part of a selection a type has no field for: under `missing`, everything; under `list`,
that part of each element; under `object`, that part of the listed members. -/
inductive Gap where
  | missing
  | list (item : Gap)
  | object (fields : List (List Char × Gap))
  deriving Repr, Inhabited

/-- Whether `path` leads into a missing field of the gap. -/
def Gap.contains : Gap → List Step → Bool
  | .missing, _ => true
  | .list item, .index _ :: path => item.contains path
  | .object fields, .field name :: path =>
    match fields.lookup name with
    | some g => g.contains path
    | none => false
  | _, _ => false

@[simp]
theorem Gap.contains_missing (path : List Step) : Gap.missing.contains path = true := by
  cases path <;> rfl

mutual

/-- What `sel` selects that `t` has no field for, if anything. -/
def gap : GoType σ → Selection → Option Gap
  | .slice t, .list item => (gap t item).map .list
  | .struct s, .object fields =>
    match gapFields (env.fields s) fields with
    | [] => none
    | missing => some (.object missing)
  | _, _ => none

def gapFields (decls : List (List Char × GoType σ)) :
    List (List Char × Selection) → List (List Char × Gap)
  | [] => []
  | (key, sel) :: rest =>
    (match decls.lookup key with
      | some t => ((gap t sel).map fun g => [(key, g)]).getD []
      | none => [(key, .missing)]) ++ gapFields decls rest

end

/-- Whether a `t` has a place at `path`: a field of that JSON name at each member step, a slice
at each index step. -/
def GoType.reaches : GoType σ → List Step → Bool
  | _, [] => true
  | .struct s, .field name :: path =>
    match (env.fields s).lookup name with
    | some t => GoType.reaches t path
    | none => false
  | .slice t, .index _ :: path => GoType.reaches t path
  | _, _ :: _ => false

/-- Every non-null value of `json` at a path where `t` has a place is read back from `v` there. -/
def ReadsBack (t : GoType σ) (json : JsonValue) (v : GoValue) : Prop :=
  ∀ path j, json.read path = some j → j ≠ .null → GoType.reaches env t path →
    ∃ w, v.read path = some w ∧ Matches j w

/-! ## The lists of the definitions -/

theorem conformsItems_iff (item : Selection) (items : List JsonValue) :
    conformsItems item items ↔ ∀ json ∈ items, conforms item json := by
  induction items with
  | nil => simp [conformsItems]
  | cons json rest ih => simp [conformsItems, ih]

theorem conformsMembers_iff (fields : List (List Char × Selection))
    (members : List (List Char × JsonValue)) :
    conformsMembers fields members ↔
      ∀ m ∈ members, ∃ sel, fields.lookup m.1 = some sel ∧ conforms sel m.2 := by
  induction members with
  | nil => simp [conformsMembers]
  | cons m rest ih =>
    obtain ⟨key, json⟩ := m
    cases found : fields.lookup key <;> simp [conformsMembers, found, ih]

theorem itemsFit_iff (items : List JsonValue) : itemsFit items ↔ ∀ json ∈ items, intsFit json := by
  induction items with
  | nil => simp [itemsFit]
  | cons json rest ih => simp [itemsFit, ih]

theorem membersFit_iff (members : List (List Char × JsonValue)) :
    membersFit members ↔ ∀ m ∈ members, intsFit m.2 := by
  induction members with
  | nil => simp [membersFit]
  | cons m rest ih => simp [membersFit, ih]

theorem fitsFields_iff (decls : List (List Char × GoType σ)) (fields : List (List Char × Selection)) :
    fitsFields env decls fields ↔
      ∀ f ∈ fields, ∀ name t, findField decls f.1 = some (name, t) → name = f.1 ∧ fits env t f.2 := by
  induction fields with
  | nil => simp [fitsFields]
  | cons f rest ih =>
    obtain ⟨key, sel⟩ := f
    cases found : findField decls key with
    | none => simp [fitsFields, found, ih]
    | some field =>
      obtain ⟨name, t⟩ := field
      simp [fitsFields, found, ih]

theorem mem_of_lookup {α β : Type} [BEq α] [LawfulBEq α] {key : α} {value : β} :
    ∀ {entries : List (α × β)}, entries.lookup key = some value → (key, value) ∈ entries
  | [], found => by cases found
  | (k, v) :: rest, found => by
    by_cases same : key = k
    · subst same
      rw [List.lookup_cons_self] at found
      cases found
      exact List.mem_cons_self _ _
    · rw [List.lookup_cons, beq_false_of_ne same] at found
      exact List.mem_cons_of_mem _ (mem_of_lookup found)

theorem lookup_setField_self {fields : List (List Char × GoValue)} {name : List Char} {c : GoValue}
    (found : fields.lookup name = some c) (v : GoValue) :
    (setField fields name v).lookup name = some v := by
  induction fields with
  | nil => cases found
  | cons field rest ih =>
    obtain ⟨key, x⟩ := field
    by_cases same : key = name
    · subst same
      simp [setField]
    · rw [List.lookup_cons, beq_false_of_ne (Ne.symm same)] at found
      simp only [setField, List.map_cons, if_neg same, List.lookup_cons, beq_false_of_ne (Ne.symm same)]
      exact ih found

theorem lookup_setField_of_ne {fields : List (List Char × GoValue)} {name other : List Char}
    (ne : other ≠ name) (v : GoValue) : (setField fields name v).lookup other = fields.lookup other := by
  induction fields with
  | nil => rfl
  | cons field rest ih =>
    obtain ⟨key, x⟩ := field
    by_cases same : key = name
    · subst same
      simp only [setField, List.map_cons, if_pos, List.lookup_cons, beq_false_of_ne ne] at ih ⊢
      exact ih
    · simp only [setField, List.map_cons, if_neg same, List.lookup_cons] at ih ⊢
      split <;> simp_all

theorem forall₂_getElem? {α β : Type} {R : α → β → Prop} {as : List α} {bs : List β}
    (each : List.Forall₂ R as bs) :
    ∀ {i : Nat} {a : α}, as[i]? = some a → ∃ b, bs[i]? = some b ∧ R a b := by
  induction each with
  | nil => intro _ _ found; simp at found
  | cons head _ ih =>
    intro i a found
    cases i with
    | zero =>
      simp only [List.getElem?_cons_zero, Option.some.injEq] at found
      exact ⟨_, List.getElem?_cons_zero, found ▸ head⟩
    | succ i =>
      simp only [List.getElem?_cons_succ] at found ⊢
      exact ih found

theorem sizeOf_lt_array {json : JsonValue} {items : List JsonValue} (mem : json ∈ items) :
    sizeOf json < sizeOf (JsonValue.array items) := by
  have := List.sizeOf_lt_of_mem mem
  simp only [JsonValue.array.sizeOf_spec]
  omega

theorem sizeOf_lt_object {m : List Char × JsonValue} {members : List (List Char × JsonValue)}
    (mem : m ∈ members) : sizeOf m.2 < sizeOf (JsonValue.object members) := by
  have := List.sizeOf_lt_of_mem mem
  have : sizeOf m.2 < sizeOf m := by cases m; simp only [Prod.mk.sizeOf_spec]; omega
  simp only [JsonValue.object.sizeOf_spec]
  omega

/-! ## Reading back -/

theorem readsBack_null (t : GoType σ) (v : GoValue) : ReadsBack env t .null v := by
  rintro (_ | ⟨step, path⟩) j found notNull _
  · exact absurd (Option.some.inj found).symm notNull
  · cases step <;> cases found

/-- A string or a number is read back by a value that matches it. -/
theorem readsBack_leaf {t : GoType σ} {json : JsonValue} {v : GoValue}
    (leaf : ∀ step path, json.read (step :: path) = none) (agree : Matches json v) :
    ReadsBack env t json v := by
  rintro (_ | ⟨step, path⟩) j found _ _
  · obtain rfl := Option.some.inj found
    exact ⟨v, rfl, agree⟩
  · rw [leaf] at found
    cases found

/-- An array is read back by a slice whose elements read back its elements, in order. -/
theorem readsBack_array {t : GoType σ} {items : List JsonValue} {values : List GoValue}
    (each : List.Forall₂ (ReadsBack env t) items values) :
    ReadsBack env (.slice t) (.array items) (.slice (some values)) := by
  rintro (_ | ⟨_ | i, path⟩) j found notNull reach
  · obtain rfl := Option.some.inj found
    exact ⟨_, rfl, by simp [Matches, each.length_eq]⟩
  · cases found
  · obtain ⟨item, atI, rest⟩ := Option.bind_eq_some.mp found
    obtain ⟨value, atValue, agree⟩ := forall₂_getElem? each atI
    obtain ⟨w, readW, agreeW⟩ := agree path j rest notNull reach
    exact ⟨w, by simp [GoValue.read, atValue, readW], agreeW⟩

/-- An object is read back by a struct whose field of each member's name, when the type has one,
reads back the member. -/
theorem readsBack_object {s : σ} {members : List (List Char × JsonValue)}
    {fields : List (List Char × GoValue)}
    (each : ∀ m ∈ members, ∀ t, (env.fields s).lookup m.1 = some t →
      ∃ w, fields.lookup m.1 = some w ∧ ReadsBack env t m.2 w) :
    ReadsBack env (.struct s) (.object members) (.struct fields) := by
  rintro (_ | ⟨name | _, path⟩) j found notNull reach
  · obtain rfl := Option.some.inj found
    exact ⟨_, rfl, rfl⟩
  · obtain ⟨member, atName, rest⟩ := Option.bind_eq_some.mp found
    cases decl : (env.fields s).lookup name with
    | none => simp [GoType.reaches, decl] at reach
    | some t =>
      simp only [GoType.reaches, decl] at reach
      obtain ⟨w, atW, agree⟩ := each (name, member) (mem_of_lookup atName) t decl
      obtain ⟨w', readW', agree'⟩ := agree path j rest notNull reach
      exact ⟨w', by simp [GoValue.read, atW, readW'], agree'⟩
  · cases found

/-! ## Decoding -/

/-- Decoding an array whose elements each decode with no error into shaped elements. -/
theorem decodeElements_conforms (path : List (List Char)) (t : GoType σ)
    (P : JsonValue → GoValue → Prop) (items : List JsonValue)
    (each : ∀ json ∈ items, ∀ c, shaped env t c →
      ∃ v, decodeValue env path t c json = (v, none) ∧ shaped env t v ∧ P json v) :
    ∀ existing : List GoValue, (∀ c ∈ existing, shaped env t c) →
      ∃ values, decodeElements env path t existing items = (values, none) ∧
        (∀ v ∈ values, shaped env t v) ∧ List.Forall₂ P items values := by
  induction items with
  | nil => exact fun _ _ => ⟨[], rfl, by simp, .nil⟩
  | cons json rest ih =>
    intro existing shape
    have head : shaped env t (existing.headD (env.zero t)) := by
      cases existing with
      | nil => exact zero_shaped env t
      | cons c _ => exact shape c (List.mem_cons_self _ _)
    obtain ⟨v, decodes, vShaped, agree⟩ := each json (List.mem_cons_self _ _) _ head
    obtain ⟨values, decodesRest, valuesShaped, agreeRest⟩ :=
      ih (fun json mem => each json (List.mem_cons_of_mem _ mem)) existing.tail
        (fun c mem => shape c (List.mem_of_mem_tail mem))
    refine ⟨v :: values, ?_, ?_, .cons agree agreeRest⟩
    · simp only [decodeElements, decodes, decodesRest, firstError]
    · simpa [vShaped] using valuesShaped

/-- Decoding an object, each of whose members goes into the field of its own name or into none,
and decodes there with no error. The fields of names no member has are left as they were. -/
theorem decodeMembers_conforms (path : List (List Char)) (s : σ)
    (P : GoType σ → JsonValue → GoValue → Prop) (members : List (List Char × JsonValue))
    (nodup : (members.map Prod.fst).Nodup)
    (exact : ∀ m ∈ members, ∀ name t, findField (env.fields s) m.1 = some (name, t) → name = m.1)
    (each : ∀ m ∈ members, ∀ t, findField (env.fields s) m.1 = some (m.1, t) →
      ∀ c, shaped env t c →
        ∃ v, decodeValue env (path ++ [m.1]) t c m.2 = (v, none) ∧ shaped env t v ∧ P t m.2 v) :
    ∀ fields, fieldsShaped env (env.fields s) fields →
      ∃ result, decodeMembers env path s fields members = (.struct result, none) ∧
        fieldsShaped env (env.fields s) result ∧
        (∀ name, name ∉ members.map Prod.fst → result.lookup name = fields.lookup name) ∧
        ∀ m ∈ members, ∀ t, findField (env.fields s) m.1 = some (m.1, t) →
          ∃ w, result.lookup m.1 = some w ∧ P t m.2 w := by
  induction members with
  | nil => exact fun fields shape => ⟨fields, rfl, shape, fun _ _ => rfl, by simp⟩
  | cons m rest ih =>
    intro fields shape
    rw [List.map_cons, List.nodup_cons] at nodup
    have later := ih nodup.2 (fun m mem => exact m (List.mem_cons_of_mem _ mem))
      (fun m mem => each m (List.mem_cons_of_mem _ mem))
    obtain ⟨key, json⟩ := m
    cases found : findField (env.fields s) key with
    | none =>
      obtain ⟨result, decodes, resultShaped, untouched, agree⟩ := later fields shape
      refine ⟨result, by simp only [decodeMembers, found, decodes], resultShaped,
        fun name absent => untouched name fun mem => absent (List.mem_cons_of_mem _ mem), ?_⟩
      rintro m (_ | ⟨_, mem⟩) t found'
      · simp [found] at found'
      · exact agree m mem t found'
    | some field =>
      obtain ⟨name, t⟩ := field
      obtain rfl : name = key := exact _ (List.mem_cons_self _ _) name t found
      have mem := mem_of_findField found
      obtain ⟨c, atKey, cShaped⟩ := lookup_of_fieldsShaped env shape (env.nodup s) mem
      obtain ⟨v, decodes, vShaped, agreeV⟩ := each _ (List.mem_cons_self _ _) t found c cShaped
      obtain ⟨result, decodesRest, resultShaped, untouched, agree⟩ :=
        later _ (fieldsShaped_setField env shape (env.nodup s) mem vShaped)
      refine ⟨result, ?_, resultShaped, ?_, ?_⟩
      · simp only [decodeMembers, found, atKey, Option.getD_some, decodes, decodesRest, firstError]
      · intro other absent
        simp only [List.map_cons, List.mem_cons, not_or] at absent
        rw [untouched other absent.2, lookup_setField_of_ne absent.1]
      · rintro m (_ | ⟨_, mem'⟩) t' found'
        · rw [found] at found'
          cases found'
          exact ⟨v, by rw [untouched name nodup.1, lookup_setField_self atKey], agreeV⟩
        · exact agree m mem' t' found'

/-- Decoding a value that follows a selection into a type it fits, with every integer in the
range of `int`, into a shaped variable: no error, and every non-null value at a path where the
type has a field is read back. -/
theorem decodeValue_conforms (sel : Selection) (t : GoType σ) (json : JsonValue)
    (fit : fits env t sel) (conform : conforms sel json) (small : intsFit json)
    (path : List (List Char)) (c : GoValue) (shape : shaped env t c) :
    ∃ v, decodeValue env path t c json = (v, none) ∧ shaped env t v ∧ ReadsBack env t json v := by
  obtain ⟨n, size⟩ : ∃ n, sizeOf json = n := ⟨_, rfl⟩
  induction n using Nat.strong_induction_on generalizing sel t json path c with
  | _ n ih =>
  match json with
  | .null =>
    cases t with
    | slice elem => exact ⟨.slice none, rfl, rfl, readsBack_null env _ _⟩
    | _ => exact ⟨c, rfl, shape, readsBack_null env _ _⟩
  | .bool _ => cases sel <;> simp [conforms] at conform
  | .number literal =>
    obtain rfl : sel = .int := by cases sel <;> first | rfl | simp [conforms] at conform
    obtain rfl : t = .int := by cases t <;> first | rfl | simp [fits] at fit
    obtain ⟨k, parsed⟩ := Option.isSome_iff_exists.mp small
    exact ⟨.int k, by simp [decodeValue, parsed], rfl,
      readsBack_leaf env (fun step _ => by cases step <;> rfl) (by simp [Matches, parsed])⟩
  | .string text =>
    obtain rfl : sel = .string := by cases sel <;> first | rfl | simp [conforms] at conform
    obtain rfl : t = .string := by cases t <;> first | rfl | simp [fits] at fit
    exact ⟨.string text, rfl, rfl,
      readsBack_leaf env (fun step _ => by cases step <;> rfl) (by simp [Matches])⟩
  | .array items =>
    obtain ⟨item, rfl⟩ : ∃ item, sel = .list item := by
      cases sel <;> first | exact ⟨_, rfl⟩ | simp [conforms] at conform
    obtain ⟨elem, rfl⟩ : ∃ elem, t = .slice elem := by
      cases t <;> first | exact ⟨_, rfl⟩ | simp [fits] at fit
    simp only [conforms, conformsItems_iff] at conform
    simp only [intsFit, itemsFit_iff] at small
    obtain ⟨values, decodes, valuesShaped, agree⟩ :=
      decodeElements_conforms env path elem (ReadsBack env elem) items
        (fun json mem c shape => ih _ (size ▸ sizeOf_lt_array mem) item elem json fit
          (conform json mem) (small json mem) path c shape rfl)
        c.items (items_shaped env shape)
    exact ⟨.slice (some values), by simp only [decodeValue.eq_5, decodes],
      (itemsShaped_iff env elem values).mpr valuesShaped, readsBack_array env agree⟩
  | .object members =>
    obtain ⟨fields, rfl⟩ : ∃ fields, sel = .object fields := by
      cases sel <;> first | exact ⟨_, rfl⟩ | simp [conforms] at conform
    obtain ⟨s, rfl⟩ : ∃ s, t = .struct s := by
      cases t <;> first | exact ⟨_, rfl⟩ | simp [fits] at fit
    rcases c with _ | _ | _ | current | _
    case struct =>
      simp only [conforms, Bool.and_eq_true, decide_eq_true_eq, conformsMembers_iff] at conform
      simp only [fits, fitsFields_iff] at fit
      simp only [intsFit, membersFit_iff] at small
      have selected : ∀ m ∈ members, ∀ name t, findField (env.fields s) m.1 = some (name, t) →
          ∃ sel, name = m.1 ∧ fits env t sel ∧ conforms sel m.2 := by
        intro m mem name t found
        obtain ⟨sel, atKey, memberConforms⟩ := conform.2 m mem
        obtain ⟨same, typeFits⟩ := fit _ (mem_of_lookup atKey) name t found
        exact ⟨sel, same, typeFits, memberConforms⟩
      obtain ⟨result, decodes, resultShaped, -, agree⟩ :=
        decodeMembers_conforms env path s (ReadsBack env) members conform.1
          (fun m mem name t found => (selected m mem name t found).choose_spec.1)
          (fun m mem t found c shape => by
            obtain ⟨sel, -, typeFits, memberConforms⟩ := selected m mem m.1 t found
            exact ih _ (size ▸ sizeOf_lt_object mem) sel t m.2 typeFits memberConforms
              (small m mem) _ c shape rfl)
          current shape
      exact ⟨.struct result, by simp only [decodeValue.eq_6, GoValue.fields, decodes],
        resultShaped, readsBack_object env fun m mem t atName =>
          agree m mem t (findField_of_mem (env.nodup s) (mem_of_lookup atName))⟩
    all_goals simp [shaped] at shape

/-- A struct type with one string field, `name`. -/
def namedTypes : TypeEnv Unit where
  fields _ := [("name".toList, .string)]
  rank _ := 0
  nodup _ := by simp
  rank_lt _ _ _ mem := by simp at mem

theorem named_object_decodes :
    fits namedTypes (.struct ()) (.object [("name".toList, .string)]) ∧
      conforms (.object [("name".toList, .string)]) (.object [("name".toList, .string "x".toList)]) ∧
      intsFit (.object [("name".toList, .string "x".toList)]) ∧
      shaped namedTypes (.struct ()) (namedTypes.zero (.struct ())) ∧
      ∃ v, decodeValue namedTypes [] (.struct ()) (namedTypes.zero (.struct ()))
          (.object [("name".toList, .string "x".toList)]) = (v, none) ∧
        shaped namedTypes (.struct ()) v ∧
        ReadsBack namedTypes (.struct ()) (.object [("name".toList, .string "x".toList)]) v :=
  ⟨by decide, by decide, by decide, by decide,
    decodeValue_conforms namedTypes (.object [("name".toList, .string)]) _ _ (by decide) (by decide)
      (by decide) [] _ (by decide)⟩

/-- The gap of a struct's member: `missing` when the struct has no field of its name, and the
gap of the field's type otherwise. -/
theorem lookup_gapFields {decls : List (List Char × GoType σ)}
    {fields : List (List Char × Selection)} {name : List Char} {sel : Selection} {g : Gap}
    (atSel : fields.lookup name = some sel)
    (result : (match decls.lookup name with
      | some t => gap env t sel
      | none => some .missing) = some g) :
    (gapFields env decls fields).lookup name = some g := by
  induction fields with
  | nil => cases atSel
  | cons field rest ih =>
    obtain ⟨key, sel'⟩ := field
    simp only [gapFields, List.lookup_append]
    by_cases same : name = key
    · subst same
      rw [List.lookup_cons_self] at atSel
      cases atSel
      cases decl : decls.lookup name with
      | none =>
        simp only [decl, Option.some.injEq] at result
        simp [← result]
      | some t =>
        simp only [decl] at result
        simp [result]
    · rw [List.lookup_cons, beq_false_of_ne same] at atSel
      have other : ∀ x : Gap, [(key, x)].lookup name = none := fun x => by
        simp [List.lookup_cons, beq_false_of_ne same]
      rw [ih atSel]
      split
      · cases gap env _ sel' <;> simp [other]
      · simp [other]

/-- Every path of a value that follows a selection is a path where a fitting type has a place,
or one that leads into the gap of the selection. -/
theorem reaches_or_gap : ∀ (path : List Step) (sel : Selection) (t : GoType σ)
    (json j : JsonValue), fits env t sel → conforms sel json → json.read path = some j →
      GoType.reaches env t path ∨ ∃ g, gap env t sel = some g ∧ g.contains path
  | [], _, _, _, _, _, _, _ => .inl (by simp [GoType.reaches])
  | .field name :: path, sel, t, json, j, fit, conform, found => by
    cases json with
    | object members =>
      obtain ⟨member, atName, rest⟩ := Option.bind_eq_some.mp found
      obtain ⟨fields, rfl⟩ : ∃ fields, sel = .object fields := by
        cases sel <;> first | exact ⟨_, rfl⟩ | simp [conforms] at conform
      obtain ⟨s, rfl⟩ : ∃ s, t = .struct s := by
        cases t <;> first | exact ⟨_, rfl⟩ | simp [fits] at fit
      simp only [conforms, Bool.and_eq_true, conformsMembers_iff] at conform
      simp only [fits, fitsFields_iff] at fit
      obtain ⟨sel, atSel, memberConforms⟩ := conform.2 _ (mem_of_lookup atName)
      have inGap : ∀ g, (gapFields env (env.fields s) fields).lookup name = some g → g.contains path →
          ∃ g, gap env (.struct s) (.object fields) = some g ∧ g.contains (.field name :: path) := by
        intro g atGap inside
        refine ⟨.object (gapFields env (env.fields s) fields), ?_, by simp [Gap.contains, atGap, inside]⟩
        cases missing : gapFields env (env.fields s) fields with
        | nil => simp [missing] at atGap
        | cons _ _ => rw [gap, missing]
      cases decl : (env.fields s).lookup name with
      | none =>
        exact .inr (inGap .missing (lookup_gapFields env atSel (by simp only [decl]))
          (Gap.contains_missing path))
      | some t =>
        have typeFits : fits env t sel := (fit _ (mem_of_lookup atSel) name t
          (findField_of_mem (env.nodup s) (mem_of_lookup decl))).2
        rcases reaches_or_gap path sel t member j typeFits memberConforms rest with
          reach | ⟨g, atGap, inside⟩
        · exact .inl (by simp only [GoType.reaches, decl, reach])
        · exact .inr (inGap g (lookup_gapFields env atSel (by simp only [decl, atGap])) inside)
    | _ => cases found
  | .index i :: path, sel, t, json, j, fit, conform, found => by
    cases json with
    | array items =>
      obtain ⟨item, atI, rest⟩ := Option.bind_eq_some.mp found
      obtain ⟨itemSel, rfl⟩ : ∃ itemSel, sel = .list itemSel := by
        cases sel <;> first | exact ⟨_, rfl⟩ | simp [conforms] at conform
      obtain ⟨elem, rfl⟩ : ∃ elem, t = .slice elem := by
        cases t <;> first | exact ⟨_, rfl⟩ | simp [fits] at fit
      simp only [conforms, conformsItems_iff] at conform
      rcases reaches_or_gap path itemSel elem item j fit (conform item (List.getElem?_mem atI))
        rest with reach | ⟨g, atGap, inside⟩
      · exact .inl reach
      · exact .inr ⟨.list g, by simp [gap, atGap], inside⟩
    | _ => cases found

end DpApiClients.Json
