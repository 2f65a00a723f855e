import DpApiClients.Json.Decode
import DpApiClients.Json.RoundTrip
import Mathlib.Data.List.Forall2

/-!
# Decoding what was encoded

`hasType env t v` says that `v` is a value of type `t`: a struct value has the fields of its
type, in order, each of its type. `shaped env t c` says less, only what the decoder needs of the
variable it decodes into: a struct has all its fields, each shaped in turn, and a slice's
elements are shaped. Every zero value is shaped (`zero_shaped`), and so is every value of the
type.

`decodeMembers_of_decodes` and `decodeElements_of_decodes` say what decoding an object or an
array does when each member or element decodes to a known value; from them,
`decodeValue_toJson_of_inRange` says that decoding the JSON value of a value of type `t` into a
shaped variable of type `t` gives the value back, with no error, when its `int`s are in the range
of a 64-bit `int`; with `encode_parses`, `unmarshal_encode` says the same of `json.Unmarshal`
on what `Encoder.Encode` writes.
-/

namespace DpApiClients.Json

variable {σ : Type} (env : TypeEnv σ)

mutual

/-- Whether `v` is a value of type `t`. -/
def hasType : GoType σ → GoValue → Bool
  | .string, .string _ => true
  | .int, .int _ => true
  | .slice _, .slice none => true
  | .slice t, .slice (some items) => itemsHaveType t items
  | .struct s, .struct fields => fieldsHaveType (env.fields s) fields
  | _, _ => false

def itemsHaveType (t : GoType σ) : List GoValue → Bool
  | [] => true
  | v :: vs => hasType t v && itemsHaveType t vs

def fieldsHaveType : List (List Char × GoType σ) → List (List Char × GoValue) → Bool
  | [], [] => true
  | (name, t) :: decls, (name', v) :: fields =>
    name = name' && hasType t v && fieldsHaveType decls fields
  | _, _ => false

end

mutual

/-- Whether a variable of type `t` holding `c` has every field and element the decoder may
decode into. -/
def shaped : GoType σ → GoValue → Bool
  | .struct s, .struct fields => fieldsShaped (env.fields s) fields
  | .struct _, _ => false
  | .slice t, .slice (some items) => itemsShaped t items
  | _, _ => true

def itemsShaped (t : GoType σ) : List GoValue → Bool
  | [] => true
  | c :: cs => shaped t c && itemsShaped t cs

def fieldsShaped : List (List Char × GoType σ) → List (List Char × GoValue) → Bool
  | [], [] => true
  | (name, t) :: decls, (name', c) :: fields =>
    name = name' && shaped t c && fieldsShaped decls fields
  | _, _ => false

end

mutual

/-- Whether every `int` in `v` is in the range of Go's 64-bit `int`, as every `int` a Go program
holds is. -/
def GoValue.intsInRange : GoValue → Bool
  | .int n => inIntRange n
  | .slice (some items) => itemsInRange items
  | .struct fields => entriesInRange fields
  | .map entries => entriesInRange entries
  | _ => true

def itemsInRange : List GoValue → Bool
  | [] => true
  | v :: vs => v.intsInRange && itemsInRange vs

def entriesInRange : List (List Char × GoValue) → Bool
  | [] => true
  | (_, v) :: rest => v.intsInRange && entriesInRange rest

end

theorem itemsInRange_iff (items : List GoValue) :
    itemsInRange items ↔ ∀ v ∈ items, v.intsInRange := by
  induction items with
  | nil => simp [itemsInRange]
  | cons v vs ih => simp [itemsInRange, ih]

theorem entriesInRange_iff (entries : List (List Char × GoValue)) :
    entriesInRange entries ↔ ∀ entry ∈ entries, entry.2.intsInRange := by
  induction entries with
  | nil => simp [entriesInRange]
  | cons entry rest ih => simp [entriesInRange, ih]

mutual

/-- A value with no `int` has every `int` in range. -/
theorem intsInRange_of_intFree : ∀ v : GoValue, v.intFree → v.intsInRange
  | .string _, _ => rfl
  | .int _, free => absurd free Bool.false_ne_true
  | .slice none, _ => rfl
  | .slice (some items), free => itemsInRange_of_intFree items free
  | .struct fields, free => entriesInRange_of_intFree fields free
  | .map entries, free => entriesInRange_of_intFree entries free

theorem itemsInRange_of_intFree : ∀ items : List GoValue, itemsIntFree items → itemsInRange items
  | [], _ => rfl
  | v :: vs, free => by
    simp only [itemsIntFree, Bool.and_eq_true] at free
    simp only [itemsInRange, intsInRange_of_intFree v free.1, itemsInRange_of_intFree vs free.2,
      Bool.and_self]

theorem entriesInRange_of_intFree :
    ∀ entries : List (List Char × GoValue), entriesIntFree entries → entriesInRange entries
  | [], _ => rfl
  | (_, v) :: rest, free => by
    simp only [entriesIntFree, Bool.and_eq_true] at free
    simp only [entriesInRange, intsInRange_of_intFree v free.1,
      entriesInRange_of_intFree rest free.2, Bool.and_self]

end

theorem itemsHaveType_iff (t : GoType σ) (items : List GoValue) :
    itemsHaveType env t items ↔ ∀ v ∈ items, hasType env t v := by
  induction items with
  | nil => simp [itemsHaveType]
  | cons v vs ih => simp [itemsHaveType, ih]

theorem itemsShaped_iff (t : GoType σ) (items : List GoValue) :
    itemsShaped env t items ↔ ∀ c ∈ items, shaped env t c := by
  induction items with
  | nil => simp [itemsShaped]
  | cons c cs ih => simp [itemsShaped, ih]

theorem fieldsHaveType_iff (decls : List (List Char × GoType σ))
    (fields : List (List Char × GoValue)) :
    fieldsHaveType env decls fields ↔
      decls.map Prod.fst = fields.map Prod.fst ∧ ∀ p ∈ decls.zip fields, hasType env p.1.2 p.2.2 := by
  induction decls generalizing fields with
  | nil => cases fields <;> simp [fieldsHaveType]
  | cons decl decls ih =>
    cases fields with
    | nil => simp [fieldsHaveType]
    | cons field fields =>
      simp only [fieldsHaveType, Bool.and_eq_true, decide_eq_true_eq, ih, List.map_cons,
        List.cons.injEq, List.zip_cons_cons, List.forall_mem_cons]
      tauto

theorem fieldsShaped_iff (decls : List (List Char × GoType σ))
    (fields : List (List Char × GoValue)) :
    fieldsShaped env decls fields ↔
      decls.map Prod.fst = fields.map Prod.fst ∧ ∀ p ∈ decls.zip fields, shaped env p.1.2 p.2.2 := by
  induction decls generalizing fields with
  | nil => cases fields <;> simp [fieldsShaped]
  | cons decl decls ih =>
    cases fields with
    | nil => simp [fieldsShaped]
    | cons field fields =>
      simp only [fieldsShaped, Bool.and_eq_true, decide_eq_true_eq, ih, List.map_cons,
        List.cons.injEq, List.zip_cons_cons, List.forall_mem_cons]
      tauto

theorem fieldsShaped_map (decls : List (List Char × GoType σ))
    (value : List Char × GoType σ → GoValue) (each : ∀ d ∈ decls, shaped env d.2 (value d)) :
    fieldsShaped env decls (decls.map fun d => (d.1, value d)) := by
  induction decls with
  | nil => rfl
  | cons d decls ih =>
    simp only [List.map_cons, fieldsShaped, decide_True, Bool.true_and, Bool.and_eq_true]
    exact ⟨each d (List.mem_cons_self _ _), ih fun d' mem => each d' (List.mem_cons_of_mem _ mem)⟩

/-- A zero value built deeper than the rank of its struct is shaped. -/
theorem zeroWith_shaped : ∀ (fuel : Nat) (t : GoType σ),
    (∀ s, t = .struct s → env.rank s < fuel) → shaped env t (zeroWith env fuel t)
  | _, .string, _ => by simp [zeroWith, shaped]
  | _, .int, _ => by simp [zeroWith, shaped]
  | _, .slice _, _ => by simp [zeroWith, shaped]
  | 0, .struct s, deep => absurd (deep s rfl) (Nat.not_lt_zero _)
  | fuel + 1, .struct s, deep => by
    rw [zeroWith, shaped]
    exact fieldsShaped_map env _ _ fun d mem => zeroWith_shaped fuel d.2 fun s' isStruct =>
      Nat.lt_of_lt_of_le (env.rank_lt s d.1 s' (isStruct ▸ mem)) (Nat.le_of_lt_succ (deep s rfl))

theorem zero_shaped (t : GoType σ) : shaped env t (env.zero t) := by
  cases t with
  | struct s => exact zeroWith_shaped env _ _ fun _ same => by cases same; omega
  | _ => exact zeroWith_shaped env _ _ fun _ same => by cases same

theorem sizeOf_lt_slice {v : GoValue} {items : List GoValue} (mem : v ∈ items) :
    sizeOf v < sizeOf (GoValue.slice (some items)) := by
  have := List.sizeOf_lt_of_mem mem
  simp only [GoValue.slice.sizeOf_spec, Option.some.sizeOf_spec]
  omega

theorem sizeOf_lt_struct {e : List Char × GoValue} {fields : List (List Char × GoValue)}
    (mem : e ∈ fields) : sizeOf e.2 < sizeOf (GoValue.struct fields) := by
  have := List.sizeOf_lt_of_mem mem
  have : sizeOf e.2 < sizeOf e := by cases e; simp only [Prod.mk.sizeOf_spec]; omega
  simp only [GoValue.struct.sizeOf_spec]
  omega

/-- A value of a type is shaped for it. -/
theorem shaped_of_hasType (t : GoType σ) (v : GoValue) (typed : hasType env t v) :
    shaped env t v := by
  obtain ⟨n, size⟩ : ∃ n, sizeOf v = n := ⟨_, rfl⟩
  induction n using Nat.strong_induction_on generalizing t v with
  | _ n ih =>
  cases t with
  | string => cases v <;> rfl
  | int => cases v <;> rfl
  | slice t =>
    rcases v with _ | _ | (_ | items) | _ | _
    case some =>
      simp only [hasType, shaped, itemsHaveType_iff, itemsShaped_iff] at typed ⊢
      exact fun c mem => ih _ (size ▸ sizeOf_lt_slice mem) t c (typed c mem) rfl
    all_goals rfl
  | struct s =>
    cases v with
    | struct fields =>
      simp only [hasType, shaped, fieldsHaveType_iff, fieldsShaped_iff] at typed ⊢
      exact ⟨typed.1, fun p mem =>
        ih _ (size ▸ sizeOf_lt_struct (List.of_mem_zip mem).2) _ _ (typed.2 p mem) rfl⟩
    | _ => simp [hasType] at typed

/-- The field of a key that is a JSON name is the field of that name. -/
theorem findField_of_mem {decls : List (List Char × GoType σ)} (nodup : (decls.map Prod.fst).Nodup)
    {name : List Char} {t : GoType σ} (mem : (name, t) ∈ decls) :
    findField decls name = some (name, t) := by
  have found : decls.find? (·.1 = name) = some (name, t) := by
    induction decls with
    | nil => simp at mem
    | cons d decls ih =>
      rw [List.map_cons, List.nodup_cons] at nodup
      rcases List.mem_cons.mp mem with rfl | mem
      · simp
      · have other : d.1 ≠ name := fun same => nodup.1 (same ▸ List.mem_map_of_mem _ mem)
        simp [other, ih nodup.2 mem]
  simp [findField, found]

theorem mem_of_findField {decls : List (List Char × GoType σ)} {key : List Char}
    {field : List Char × GoType σ} (found : findField decls key = some field) : field ∈ decls := by
  unfold findField at found
  split at found
  · rename_i exact; cases found; exact List.mem_of_find?_eq_some exact
  · exact List.mem_of_find?_eq_some found

/-- In shaped fields, the field of a declared name is there, and shaped. -/
theorem lookup_of_fieldsShaped {decls : List (List Char × GoType σ)}
    {fields : List (List Char × GoValue)} (shape : fieldsShaped env decls fields)
    (nodup : (decls.map Prod.fst).Nodup) {name : List Char} {t : GoType σ}
    (mem : (name, t) ∈ decls) : ∃ c, fields.lookup name = some c ∧ shaped env t c := by
  induction decls generalizing fields with
  | nil => simp at mem
  | cons d decls ih =>
    cases fields with
    | nil => simp [fieldsShaped] at shape
    | cons field fields =>
      obtain ⟨dname, dt⟩ := d
      obtain ⟨fname, c⟩ := field
      simp only [fieldsShaped, Bool.and_eq_true, decide_eq_true_eq] at shape
      obtain ⟨⟨rfl, cShaped⟩, rest⟩ := shape
      rw [List.map_cons, List.nodup_cons] at nodup
      rcases List.mem_cons.mp mem with same | mem
      · cases same
        exact ⟨c, List.lookup_cons_self, cShaped⟩
      · have other : name ≠ dname := fun same => nodup.1 (same ▸ List.mem_map_of_mem Prod.fst mem :)
        obtain ⟨c', found, shaped'⟩ := ih rest nodup.2 mem
        exact ⟨c', by rw [List.lookup_cons, beq_false_of_ne other]; exact found, shaped'⟩

/-- Setting a declared field to a value shaped for its type keeps the fields shaped. -/
theorem fieldsShaped_setField {decls : List (List Char × GoType σ)}
    {fields : List (List Char × GoValue)} (shape : fieldsShaped env decls fields)
    (nodup : (decls.map Prod.fst).Nodup) {name : List Char} {t : GoType σ}
    (mem : (name, t) ∈ decls) {v : GoValue} (vShaped : shaped env t v) :
    fieldsShaped env decls (setField fields name v) := by
  induction decls generalizing fields with
  | nil => simp at mem
  | cons d decls ih =>
    cases fields with
    | nil => simp [fieldsShaped] at shape
    | cons field fields =>
      obtain ⟨dname, dt⟩ := d
      obtain ⟨fname, c⟩ := field
      simp only [fieldsShaped, Bool.and_eq_true, decide_eq_true_eq] at shape
      obtain ⟨⟨same, cShaped⟩, rest⟩ := shape
      subst fname
      rw [List.map_cons, List.nodup_cons] at nodup
      have restSet := fun (mem : (name, t) ∈ decls) => ih rest nodup.2 mem
      simp only [setField, List.map_cons] at restSet ⊢
      rcases List.mem_cons.mp mem with same | mem
      · cases same
        have untouched : (fields.map fun field => if field.1 = name then (name, v) else field) =
            fields := by
          rw [fieldsShaped_iff] at rest
          refine (List.map_congr_left fun field inFields => if_neg fun same => nodup.1 ?_).trans
            (List.map_id fields)
          rw [rest.1, ← same]
          exact List.mem_map_of_mem _ inFields
        rw [if_pos rfl, untouched]
        simp [fieldsShaped, vShaped, rest]
      · have other : dname ≠ name := fun same => nodup.1 (same ▸ List.mem_map_of_mem Prod.fst mem :)
        rw [if_neg other]
        simp [fieldsShaped, cShaped, restSet mem]

/-- Setting a field whose name no other field has changes that field only. -/
theorem setField_middle {done acc : List (List Char × GoValue)} {name : List Char} (a v : GoValue)
    (notDone : name ∉ done.map Prod.fst) (notAfter : name ∉ acc.map Prod.fst) :
    setField (done ++ (name, a) :: acc) name v = done ++ (name, v) :: acc := by
  have keep : ∀ fields : List (List Char × GoValue), name ∉ fields.map Prod.fst →
      (fields.map fun field => if field.1 = name then (name, v) else field) = fields :=
    fun fields absent => (List.map_congr_left fun field mem =>
      if_neg fun (same : field.1 = name) => absent (same ▸ List.mem_map_of_mem Prod.fst mem)).trans
        (List.map_id _)
  simp only [setField, List.map_append, List.map_cons, keep done notDone, keep acc notAfter,
    if_pos]

/-- Setting each field of a struct in turn, in the order of its fields, gives the values set. -/
theorem foldl_setField (done acc entries : List (List Char × GoValue))
    (names : acc.map Prod.fst = entries.map Prod.fst)
    (nodup : (done.map Prod.fst ++ entries.map Prod.fst).Nodup) :
    entries.foldl (fun fields e => setField fields e.1 e.2) (done ++ acc) = done ++ entries := by
  induction entries generalizing done acc with
  | nil => simp_all
  | cons e rest ih =>
    obtain ⟨name, v⟩ := e
    obtain _ | ⟨⟨name', a⟩, acc⟩ := acc
    · simp at names
    simp only [List.map_cons, List.cons.injEq] at names
    obtain ⟨same, names⟩ := names
    subst name'
    have nodup' : (done.map Prod.fst ++ [name] ++ rest.map Prod.fst).Nodup := by simpa using nodup
    have notDone : name ∉ done.map Prod.fst := by
      simp only [List.map_cons, List.nodup_append, List.nodup_cons] at nodup
      exact fun mem => nodup.2.2 mem (List.mem_cons_self _ _)
    have notAfter : name ∉ acc.map Prod.fst := by
      simp only [List.map_cons, List.nodup_append, List.nodup_cons] at nodup
      exact names ▸ nodup.2.1.1
    rw [List.foldl_cons, setField_middle a v notDone notAfter, ← List.singleton_append,
      ← List.append_assoc, ih _ acc names (by simpa using nodup')]
    simp

/-- A shaped slice variable holds shaped elements. -/
theorem items_shaped {t : GoType σ} {c : GoValue} (shape : shaped env (.slice t) c) :
    ∀ x ∈ c.items, shaped env t x := by
  rcases c with _ | _ | (_ | items) | _ | _
  case some => exact (itemsShaped_iff env t items).mp shape
  all_goals simp [GoValue.items]

/-- Decoding an array whose elements each decode to a known value into a slice of shaped
elements gives those values. -/
theorem decodeElements_of_decodes (path : List (List Char)) (elem : GoType σ)
    (vs : List GoValue)
    (each : ∀ v ∈ vs, ∀ c, shaped env elem c → decodeValue env path elem c v.toJson = (v, none)) :
    ∀ existing : List GoValue, (∀ c ∈ existing, shaped env elem c) →
      decodeElements env path elem existing (vs.map GoValue.toJson) = (vs, none) := by
  induction vs with
  | nil => intro _ _; rfl
  | cons v vs ih =>
    intro existing shape
    have head : shaped env elem (existing.headD (env.zero elem)) := by
      cases existing with
      | nil => exact zero_shaped env elem
      | cons c _ => exact shape c (List.mem_cons_self _ _)
    have tail : ∀ c ∈ existing.tail, shaped env elem c := fun c mem => shape c (List.mem_of_mem_tail mem)
    simp only [List.map_cons, decodeElements, each v (List.mem_cons_self _ _) _ head,
      ih (fun v mem => each v (List.mem_cons_of_mem _ mem)) _ tail, firstError]

/-- Decoding an object whose members each go into a field of the struct and decode there to a
known value sets those fields, in order. -/
theorem decodeMembers_of_decodes (path : List (List Char)) (s : σ)
    {members : List (List Char × JsonValue)} (entries : List (List Char × GoValue))
    (each : List.Forall₂ (fun (m : List Char × JsonValue) (e : List Char × GoValue) =>
      ∃ t, findField (env.fields s) m.1 = some (e.1, t) ∧ shaped env t e.2 ∧
        ∀ c, shaped env t c → decodeValue env (path ++ [e.1]) t c m.2 = (e.2, none))
      members entries) :
    ∀ fields, fieldsShaped env (env.fields s) fields →
      decodeMembers env path s fields members =
        (.struct (entries.foldl (fun fields e => setField fields e.1 e.2) fields), none) := by
  induction each with
  | nil => intro _ _; rfl
  | cons head _ ih =>
    intro fields shape
    obtain ⟨t, found, vShaped, decodes⟩ := head
    have mem := mem_of_findField found
    obtain ⟨c, inFields, cShaped⟩ := lookup_of_fieldsShaped env shape (env.nodup s) mem
    simp only [decodeMembers, found, inFields, Option.getD_some, decodes c cShaped,
      List.foldl_cons, firstError, ih _ (fieldsShaped_setField env shape (env.nodup s) mem vShaped)]

/-- A field of a struct value sits beside the declaration of its name. -/
theorem exists_decl_of_mem {decls : List (List Char × GoType σ)}
    {fields : List (List Char × GoValue)} (names : decls.map Prod.fst = fields.map Prod.fst)
    {e : List Char × GoValue} (mem : e ∈ fields) : ∃ t, ((e.1, t), e) ∈ decls.zip fields := by
  induction fields generalizing decls with
  | nil => simp at mem
  | cons f fields ih =>
    obtain _ | ⟨d, decls⟩ := decls
    · simp at names
    simp only [List.map_cons, List.cons.injEq] at names
    rcases List.mem_cons.mp mem with rfl | mem
    · exact ⟨d.2, List.mem_cons.mpr (.inl (by rw [← names.1]))⟩
    · obtain ⟨t, inZip⟩ := ih names.2 mem
      exact ⟨t, List.mem_cons_of_mem _ inZip⟩

/-- Decoding the JSON value of a value of type `t` whose `int`s are in range, into a variable of
type `t` that is shaped, gives the value back with no error. -/
theorem decodeValue_toJson_of_inRange (path : List (List Char)) (t : GoType σ) (v : GoValue)
    (typed : hasType env t v) (range : v.intsInRange) (c : GoValue) (shape : shaped env t c) :
    decodeValue env path t c v.toJson = (v, none) := by
  obtain ⟨n, size⟩ : ∃ n, sizeOf v = n := ⟨_, rfl⟩
  induction n using Nat.strong_induction_on generalizing path t v c with
  | _ n ih =>
  cases t with
  | string =>
    cases v with
    | string s => rfl
    | _ => simp [hasType] at typed
  | int =>
    cases v with
    | int n => simp only [GoValue.toJson, decodeValue, parseInt_toString range]
    | _ => simp [hasType] at typed
  | slice elem =>
    rcases v with _ | _ | (_ | items) | _ | _
    case none => rfl
    case some =>
      simp only [hasType, itemsHaveType_iff] at typed
      simp only [GoValue.intsInRange, itemsInRange_iff] at range
      have each : ∀ v ∈ items, ∀ c, shaped env elem c →
          decodeValue env path elem c v.toJson = (v, none) := fun v mem c shape =>
        ih _ (size ▸ sizeOf_lt_slice mem)
          path elem v (typed v mem) (range v mem) c shape rfl
      simp only [GoValue.toJson, toJsonItems_eq, decodeValue,
        decodeElements_of_decodes env path elem items each c.items (items_shaped env shape)]
    all_goals simp [hasType] at typed
  | struct s =>
    cases v with
    | struct fields =>
      rcases c with _ | _ | _ | current | _
      case struct =>
        simp only [hasType, fieldsHaveType_iff] at typed
        simp only [GoValue.intsInRange, entriesInRange_iff] at range
        simp only [shaped] at shape
        have names := ((fieldsShaped_iff env _ _).mp shape).1.symm.trans typed.1
        have each : ∀ e ∈ fields, ∃ t, findField (env.fields s) e.1 = some (e.1, t) ∧
            shaped env t e.2 ∧
            ∀ c, shaped env t c → decodeValue env (path ++ [e.1]) t c e.2.toJson = (e.2, none) := by
          intro e mem
          obtain ⟨t, inZip⟩ := exists_decl_of_mem typed.1 mem
          have eTyped := typed.2 _ inZip
          exact ⟨t, findField_of_mem (env.nodup s) (List.of_mem_zip inZip).1,
            shaped_of_hasType env t e.2 eTyped, fun c shape =>
              ih _ (size ▸ sizeOf_lt_struct mem) _ t e.2 eTyped (range e mem) c shape rfl⟩
        rw [GoValue.toJson, toJsonEntries_eq, decodeValue]
        exact (decodeMembers_of_decodes env path s fields
            (List.forall₂_map_left_iff.mpr (List.forall₂_same.mpr each)) current shape).trans
          (by rw [← List.nil_append current, foldl_setField [] current fields names
            (by simpa [← typed.1] using env.nodup s)]; rfl)
      all_goals simp [shaped] at shape
    | _ => simp [hasType] at typed

/-- `decodeValue_toJson_of_inRange` for a value with no `int`. -/
theorem decodeValue_toJson (path : List (List Char)) (t : GoType σ) (v : GoValue)
    (typed : hasType env t v) (free : v.intFree) (c : GoValue) (shape : shaped env t c) :
    decodeValue env path t c v.toJson = (v, none) :=
  decodeValue_toJson_of_inRange env path t v typed (intsInRange_of_intFree v free) c shape

/-- A struct type with a count and a list of labels, as `gql.Categories` has a `TotalCount`. -/
def countTypes : TypeEnv Unit where
  fields _ := [("totalCount".toList, .int), ("labels".toList, .slice .string)]
  rank _ := 0
  nodup _ := by simp
  rank_lt _ _ _ mem := by simp at mem

end DpApiClients.Json
