import DpApiClients.Json.Encode
import DpApiClients.Json.Number

/-!
# Reading back what the encoder writes

`GoValue.toJson` is the JSON value a Go value stands for: a nil slice is `null`, a struct an
object of its fields in declaration order, a map an object of its entries with their keys
sorted. The main result, `parse_encode`, says that `parse` reads the text `Encoder.Encode`
writes for a value back as that JSON value, whatever its strings hold.

The proof goes from the inside out. `parseChars_escapeChar` reads one escaped character back;
`parseChars_appendString` a whole string. `parseElements_intercalate` and
`parseMembers_intercalate` read a list of texts joined by commas, each read back as its own
value, as the elements of an array or the members of an object. `reads_encodeValue` puts them
together by induction on the length of the text, which also bounds the fuel the reader needs.

An `int` is written as `toString n`, which the number reader takes as one literal only when a
delimiter follows it (`parseNumber_toString`), so `Reads` asks for one after each text: the
encoder writes a comma, a closing bracket or brace, or the final newline after every value.
-/

namespace DpApiClients.Json

mutual

/-- The JSON value the text of `v` stands for. -/
def GoValue.toJson : GoValue → JsonValue
  | .string s => .string s
  | .int n => .number (toString n).toList
  | .slice none => .null
  | .slice (some items) => .array (toJsonItems items)
  | .struct fields => .object (toJsonEntries fields)
  | .map entries => .object ((toJsonEntries entries).insertionSort fun a b => charsLe a.1 b.1)

def toJsonItems : List GoValue → List JsonValue
  | [] => []
  | v :: vs => v.toJson :: toJsonItems vs

def toJsonEntries : List (List Char × GoValue) → List (List Char × JsonValue)
  | [] => []
  | (key, v) :: rest => (key, v.toJson) :: toJsonEntries rest

end

mutual

/-- Whether `v` holds no `int`. -/
def GoValue.intFree : GoValue → Bool
  | .int _ => false
  | .slice (some items) => itemsIntFree items
  | .struct fields => entriesIntFree fields
  | .map entries => entriesIntFree entries
  | _ => true

def itemsIntFree : List GoValue → Bool
  | [] => true
  | v :: vs => v.intFree && itemsIntFree vs

def entriesIntFree : List (List Char × GoValue) → Bool
  | [] => true
  | (_, v) :: rest => v.intFree && entriesIntFree rest

end

theorem toJsonItems_eq (items : List GoValue) : toJsonItems items = items.map GoValue.toJson := by
  induction items with
  | nil => rfl
  | cons v vs ih => simp [toJsonItems, ih]

theorem toJsonEntries_eq (entries : List (List Char × GoValue)) :
    toJsonEntries entries = entries.map fun (key, v) => (key, v.toJson) := by
  induction entries with
  | nil => rfl
  | cons entry rest ih => simp [toJsonEntries, ih]

theorem itemsIntFree_iff (items : List GoValue) : itemsIntFree items ↔ ∀ v ∈ items, v.intFree := by
  induction items with
  | nil => simp [itemsIntFree]
  | cons v vs ih => simp [itemsIntFree, ih]

theorem entriesIntFree_iff (entries : List (List Char × GoValue)) :
    entriesIntFree entries ↔ ∀ entry ∈ entries, entry.2.intFree := by
  induction entries with
  | nil => simp [entriesIntFree]
  | cons entry rest ih => simp [entriesIntFree, ih]

/-! ## Strings -/

theorem skipWhitespace_cons {c : Char} (notSpace : isWhitespace c = false) (rest : List Char) :
    skipWhitespace (c :: rest) = c :: rest := by
  simp [skipWhitespace, notSpace]

/-- A character other than a quote, a backslash or a control character is read as itself. -/
theorem parseCharsFrom_plain {c : Char} (quote : c ≠ '"') (backslash : c ≠ '\\')
    (control : 0x20 ≤ c.toNat) (rest : List Char) :
    parseCharsFrom none (c :: rest) =
      (parseCharsFrom none rest).map fun (s, rest) => (c :: s, rest) := by
  rw [parseCharsFrom.eq_5 none c rest quote (fun _ _ _ _ _ same _ => backslash same)
    (fun _ _ same _ => backslash same), if_neg (by omega)]
  rfl

theorem parseCharsFrom_letter {e c : Char} (letter : unescapeLetter e = some c)
    (rest : List Char) :
    parseCharsFrom none ('\\' :: e :: rest) =
      (parseCharsFrom none rest).map fun (s, rest) => (c :: s, rest) := by
  have notU : e ≠ 'u' := by rintro rfl; simp [unescapeLetter] at letter
  rw [parseCharsFrom.eq_4 none e rest (fun _ _ _ _ _ same _ => notU same), letter]
  rfl

/-- A `\uXXXX` below the surrogates is read as the character it names. -/
theorem parseCharsFrom_hex {a b c d : Char} {r : Nat} (hex : hex4 a b c d = some r)
    (below : r < 0xD800) (rest : List Char) :
    parseCharsFrom none ('\\' :: 'u' :: a :: b :: c :: d :: rest) =
      (parseCharsFrom none rest).map fun (s, rest) => (Char.ofNat r :: s, rest) := by
  rw [parseCharsFrom.eq_3, hex]
  simp [unpaired, isSurrogate, show ¬(0xD800 ≤ r ∧ r < 0xDC00) by omega, show ¬0xD800 ≤ r by omega]

theorem hexValue_hexDigit : ∀ n < 16, hexValue (hexDigit n) = some n := by
  decide

/-- The `\u00XX` escape of an ASCII character names it. -/
theorem hex4_ascii {n : Nat} (ascii : n < 0x80) :
    hex4 '0' '0' (hexDigit (n / 16)) (hexDigit (n % 16)) = some n := by
  simp only [hex4, hexValue_hexDigit (n / 16) (by omega), hexValue_hexDigit (n % 16) (by omega)]
  simp only [show hexValue '0' = some 0 from rfl, Option.bind_eq_bind, Option.some_bind,
    Option.pure_def, Option.some.injEq]
  omega

/-- Every character is read back from what `appendString` writes for it. -/
theorem parseChars_escapeChar (c : Char) (rest : List Char) :
    parseCharsFrom none (escapeChar c ++ rest) =
      (parseCharsFrom none rest).map fun (s, rest) => (c :: s, rest) := by
  unfold escapeChar
  by_cases ascii : c.toNat < 0x80
  · rw [if_pos ascii]
    by_cases safe : htmlSafe c
    · rw [if_pos safe]
      simp only [htmlSafe, Bool.and_eq_true, decide_eq_true_eq] at safe
      exact parseCharsFrom_plain safe.1.1.1.1.2 safe.1.1.1.2 (by simpa [Char.le_def] using safe.1.1.1.1.1) rest
    rw [if_neg safe]
    split_ifs with escaped backspace formFeed newline carriage tab
    · rcases escaped with rfl | rfl
      · exact @parseCharsFrom_letter '\\' '\\' rfl rest
      · exact @parseCharsFrom_letter '"' '"' rfl rest
    · subst backspace; exact @parseCharsFrom_letter 'b' '\x08' rfl rest
    · subst formFeed; exact @parseCharsFrom_letter 'f' '\x0c' rfl rest
    · subst newline; exact @parseCharsFrom_letter 'n' '\n' rfl rest
    · subst carriage; exact @parseCharsFrom_letter 'r' '\r' rfl rest
    · subst tab; exact @parseCharsFrom_letter 't' '\t' rfl rest
    · have read := parseCharsFrom_hex (hex4_ascii ascii) (by omega) rest
      rwa [Char.ofNat_toNat] at read
  · rw [if_neg ascii]
    split_ifs with separator
    · rcases separator with rfl | rfl
      · exact @parseCharsFrom_hex '2' '0' '2' '8' 0x2028 rfl (by decide) rest
      · exact @parseCharsFrom_hex '2' '0' '2' '9' 0x2029 rfl (by decide) rest
    · exact parseCharsFrom_plain (by rintro rfl; simp at ascii) (by rintro rfl; simp at ascii)
        (by omega) rest

/-- The characters `appendString` writes, then the closing quote, are read back. -/
theorem parseChars_appendString (s rest : List Char) :
    parseChars (s.flatMap escapeChar ++ '"' :: rest) = some (s, rest) := by
  induction s with
  | nil => simp [parseChars, parseCharsFrom, unpaired]
  | cons c s ih =>
    unfold parseChars at ih ⊢
    rw [List.flatMap_cons, List.append_assoc, parseChars_escapeChar, ih]
    rfl

/-! ## Arrays and objects -/

theorem intercalate_one (x : List Char) : [','].intercalate [x] = x := by
  simp [List.intercalate]

theorem intercalate_cons_cons (x y : List Char) (ys : List (List Char)) :
    [','].intercalate (x :: y :: ys) = x ++ ',' :: [','].intercalate (y :: ys) := by
  simp [List.intercalate, List.intersperse_cons_cons]

theorem parseValue_string (fuel : Nat) (rest : List Char) :
    parseValue (fuel + 1) ('"' :: rest) = (parseChars rest).map fun (s, rest) => (.string s, rest) :=
  rfl

theorem parseValue_array {c : Char} (notSpace : isWhitespace c = false) (notClose : c ≠ ']')
    (fuel : Nat) (rest : List Char) :
    parseValue (fuel + 1) ('[' :: c :: rest) = parseElements fuel (c :: rest) [] := by
  rw [parseValue.eq_2]
  show (match skipWhitespace (c :: rest) with
      | ']' :: rest => some (JsonValue.array [], rest)
      | rest => parseElements fuel rest []) = _
  rw [skipWhitespace_cons notSpace]
  split
  · rename_i same; cases same; contradiction
  · rfl

theorem parseValue_object {c : Char} (notSpace : isWhitespace c = false) (notClose : c ≠ '}')
    (fuel : Nat) (rest : List Char) :
    parseValue (fuel + 1) ('{' :: c :: rest) = parseMembers fuel (c :: rest) [] := by
  rw [parseValue.eq_2]
  show (match skipWhitespace (c :: rest) with
      | '}' :: rest => some (JsonValue.object [], rest)
      | rest => parseMembers fuel rest []) = _
  rw [skipWhitespace_cons notSpace]
  split
  · rename_i same; cases same; contradiction
  · rfl

/-- An element followed by a comma: the reader goes on to the next one. -/
theorem parseElements_comma {fuel : Nat} {text rest : List Char} {v : JsonValue}
    (value : parseValue fuel text = some (v, ',' :: rest)) (read : List JsonValue) :
    parseElements (fuel + 1) text read = parseElements fuel rest (read ++ [v]) := by
  rw [parseElements.eq_2, value]
  rfl

/-- An element followed by `]`: the array ends. -/
theorem parseElements_close {fuel : Nat} {text rest : List Char} {v : JsonValue}
    (value : parseValue fuel text = some (v, ']' :: rest)) (read : List JsonValue) :
    parseElements (fuel + 1) text read = some (.array (read ++ [v]), rest) := by
  rw [parseElements.eq_2, value]
  rfl

theorem member_text (key text rest : List Char) :
    appendString key ++ ':' :: text ++ rest =
      '"' :: (key.flatMap escapeChar ++ '"' :: ':' :: (text ++ rest)) := by
  simp [appendString]

/-- A member followed by a comma: the reader goes on to the next one. -/
theorem parseMembers_comma {fuel : Nat} {key text rest : List Char} {v : JsonValue}
    (value : parseValue fuel (text ++ ',' :: rest) = some (v, ',' :: rest))
    (read : List (List Char × JsonValue)) :
    parseMembers (fuel + 1) (appendString key ++ ':' :: text ++ ',' :: rest) read =
      parseMembers fuel rest (read ++ [(key, v)]) := by
  simp only [member_text, parseMembers.eq_2, skipWhitespace_cons (rfl : isWhitespace '"' = false),
    parseChars_appendString, skipWhitespace_cons (rfl : isWhitespace ':' = false), value,
    skipWhitespace_cons (rfl : isWhitespace ',' = false)]

/-- A member followed by `}`: the object ends. -/
theorem parseMembers_close {fuel : Nat} {key text rest : List Char} {v : JsonValue}
    (value : parseValue fuel (text ++ '}' :: rest) = some (v, '}' :: rest))
    (read : List (List Char × JsonValue)) :
    parseMembers (fuel + 1) (appendString key ++ ':' :: text ++ '}' :: rest) read =
      some (.object (read ++ [(key, v)]), rest) := by
  simp only [member_text, parseMembers.eq_2, skipWhitespace_cons (rfl : isWhitespace '"' = false),
    parseChars_appendString, skipWhitespace_cons (rfl : isWhitespace ':' = false), value,
    skipWhitespace_cons (rfl : isWhitespace '}' = false)]

/-- `text` is read as `json` by the value reader with as much fuel as it is long, whatever
delimiter follows it. -/
def Reads (text : List Char) (json : JsonValue) : Prop :=
  ∀ fuel, text.length ≤ fuel → ∀ rest, Delimited rest →
    parseValue fuel (text ++ rest) = some (json, rest)

theorem reads_appendString (s : List Char) : Reads (appendString s) (.string s) := by
  intro fuel long rest _
  obtain ⟨fuel, rfl⟩ : ∃ f, fuel = f + 1 := ⟨fuel - 1, by simp [appendString] at long; omega⟩
  rw [show appendString s ++ rest = '"' :: (s.flatMap escapeChar ++ '"' :: rest) by
    simp [appendString], parseValue_string, parseChars_appendString]
  rfl

/-- Values joined by commas, then `]`, are read as the rest of an array. -/
theorem parseElements_intercalate (rest : List Char) :
    ∀ (items : List (List Char × JsonValue)), items ≠ [] → (∀ p ∈ items, Reads p.1 p.2) →
      ∀ (read : List JsonValue) fuel, ([','].intercalate (items.map Prod.fst)).length < fuel →
        parseElements fuel ([','].intercalate (items.map Prod.fst) ++ ']' :: rest) read =
          some (.array (read ++ items.map Prod.snd), rest)
  | _, _, _, _, 0, long => absurd long (Nat.not_lt_zero _)
  | [], nonempty, _, _, _, _ => absurd rfl nonempty
  | [(text, json)], _, reads, read, fuel + 1, long => by
    rw [List.map_singleton, intercalate_one] at long ⊢
    exact parseElements_close
      (reads _ (List.mem_singleton_self _) fuel (by omega) _ (delimited_cons (by decide) _)) read
  | (text, json) :: next :: items, _, reads, read, fuel + 1, long => by
    rw [List.map_cons, List.map_cons, intercalate_cons_cons] at long ⊢
    rw [List.length_append, List.length_cons] at long
    have tail := parseElements_intercalate rest (next :: items) (List.cons_ne_nil _ _)
      (fun p mem => reads p (List.mem_cons_of_mem _ mem)) (read ++ [json]) fuel (by
        rw [List.map_cons]; omega)
    rw [List.map_cons] at tail
    rw [List.append_assoc, List.cons_append,
      parseElements_comma
        (reads _ (List.mem_cons_self _ _) fuel (by omega) _ (delimited_cons (by decide) _)), tail]
    simp

/-- `"key":value` members joined by commas, then `}`, are read as the rest of an object. -/
theorem parseMembers_intercalate (rest : List Char) :
    ∀ (members : List (List Char × List Char × JsonValue)), members ≠ [] →
      (∀ m ∈ members, Reads m.2.1 m.2.2) →
      ∀ (read : List (List Char × JsonValue)) fuel,
        ([','].intercalate (members.map fun m => appendString m.1 ++ ':' :: m.2.1)).length <
          fuel →
        parseMembers fuel
            ([','].intercalate (members.map fun m => appendString m.1 ++ ':' :: m.2.1) ++ '}' :: rest)
            read =
          some (.object (read ++ members.map fun m => (m.1, m.2.2)), rest)
  | _, _, _, _, 0, long => absurd long (Nat.not_lt_zero _)
  | [], nonempty, _, _, _, _ => absurd rfl nonempty
  | [(key, text, json)], _, reads, read, fuel + 1, long => by
    rw [List.map_singleton, intercalate_one] at long ⊢
    simp only [List.length_append, List.length_cons] at long
    exact parseMembers_close (reads _ (List.mem_singleton_self _) fuel
      (by show text.length ≤ fuel; omega) _ (delimited_cons (by decide) _)) read
  | (key, text, json) :: next :: members, _, reads, read, fuel + 1, long => by
    rw [List.map_cons, List.map_cons, intercalate_cons_cons] at long ⊢
    simp only [List.length_append, List.length_cons] at long
    have tail := parseMembers_intercalate rest (next :: members) (List.cons_ne_nil _ _)
      (fun m mem => reads m (List.mem_cons_of_mem _ mem)) (read ++ [(key, json)]) fuel (by
        rw [List.map_cons]; omega)
    rw [List.map_cons] at tail
    rw [List.append_assoc, List.cons_append,
      parseMembers_comma (reads _ (List.mem_cons_self _ _) fuel
        (by show text.length ≤ fuel; omega) _ (delimited_cons (by decide) _)),
      tail]
    simp

theorem length_le_intercalate {x : List Char} :
    ∀ {l : List (List Char)}, x ∈ l → x.length ≤ ([','].intercalate l).length
  | [_], mem => by rw [List.mem_singleton.mp mem, intercalate_one]
  | _ :: _ :: _, mem => by
    rw [intercalate_cons_cons, List.length_append, List.length_cons]
    rcases List.mem_cons.mp mem with rfl | mem
    · omega
    · have := length_le_intercalate mem
      omega

/-- An array is read back from its elements' texts. -/
theorem reads_array (items : List (List Char × JsonValue)) (reads : ∀ p ∈ items, Reads p.1 p.2)
    (head : ∀ text ∈ (items.map Prod.fst).head?, ∃ c rest, text = c :: rest ∧
      isWhitespace c = false ∧ c ≠ ']') :
    Reads ('[' :: [','].intercalate (items.map Prod.fst) ++ [']']) (.array (items.map Prod.snd)) := by
  intro fuel long rest _
  obtain ⟨fuel, rfl⟩ : ∃ f, fuel = f + 1 := ⟨fuel - 1, by simp at long; omega⟩
  simp only [List.length_cons, List.length_append, List.length_singleton] at long
  simp only [List.cons_append, List.append_assoc, List.singleton_append, List.nil_append]
  cases items with
  | nil => rfl
  | cons first others =>
    obtain ⟨c, text, first_eq, notSpace, notClose⟩ := head first.1 rfl
    have inner := parseElements_intercalate rest (first :: others) (List.cons_ne_nil _ _) reads []
      fuel (by omega)
    obtain ⟨tail, shape⟩ : ∃ tail,
        [','].intercalate ((first :: others).map Prod.fst) ++ ']' :: rest = c :: tail := by
      cases others <;> simp [intercalate_one, intercalate_cons_cons, first_eq]
    rw [shape, List.nil_append] at inner
    rw [shape, parseValue_array notSpace notClose, inner]

/-- An object is read back from its members' keys and the texts of their values. -/
theorem reads_object (members : List (List Char × List Char × JsonValue))
    (reads : ∀ m ∈ members, Reads m.2.1 m.2.2) :
    Reads (writeObject (members.map fun m => (m.1, m.2.1)))
      (.object (members.map fun m => (m.1, m.2.2))) := by
  intro fuel long rest _
  obtain ⟨fuel, rfl⟩ : ∃ f, fuel = f + 1 := ⟨fuel - 1, by simp [writeObject] at long; omega⟩
  simp only [writeObject, List.map_map, Function.comp_def, List.length_cons, List.length_append,
    List.length_singleton] at long ⊢
  simp only [List.cons_append, List.append_assoc, List.singleton_append, List.nil_append]
  cases members with
  | nil => rfl
  | cons first others =>
    have inner := parseMembers_intercalate rest (first :: others) (List.cons_ne_nil _ _) reads []
      fuel (by omega)
    obtain ⟨tail, shape⟩ : ∃ tail, [','].intercalate
        ((first :: others).map fun m => appendString m.1 ++ ':' :: m.2.1) ++ '}' :: rest =
        '"' :: tail := by
      cases others <;> simp [intercalate_one, intercalate_cons_cons, appendString]
    rw [shape, List.nil_append] at inner
    rw [shape, parseValue_object (rfl : isWhitespace '"' = false) (by decide), inner]

/-! ## Integers -/

/-- A minus or a digit is neither whitespace nor the end of an array. -/
theorem numeric_not_special {c : Char} (numeric : c = '-' ∨ isDigit c) :
    isWhitespace c = false ∧ c ≠ ']' := by
  rcases numeric with rfl | digit
  · decide
  · rcases isDigit_cases digit with rfl | rfl | rfl | rfl | rfl | rfl | rfl | rfl | rfl | rfl <;>
      decide

/-- A text starting with a minus or a digit is read as a number. -/
theorem parseValue_number {c : Char} (numeric : c = '-' ∨ isDigit c) (fuel : Nat)
    (rest : List Char) :
    parseValue (fuel + 1) (c :: rest) =
      (parseNumber (c :: rest)).map fun (literal, rest) => (.number literal, rest) := by
  rcases numeric with rfl | digit
  · rfl
  · rcases isDigit_cases digit with rfl | rfl | rfl | rfl | rfl | rfl | rfl | rfl | rfl | rfl <;> rfl

/-- The text of an `int` is read back as a number whose literal is that text. -/
theorem reads_int (n : Int) : Reads (toString n).toList (.number (toString n).toList) := by
  intro fuel long rest delimited
  obtain ⟨c, text, first, numeric⟩ := toString_int_head n
  obtain ⟨fuel, rfl⟩ : ∃ f, fuel = f + 1 := ⟨fuel - 1, by rw [first] at long; simp at long; omega⟩
  rw [first, List.cons_append, parseValue_number numeric, ← List.cons_append, ← first,
    parseNumber_toString n delimited]
  rfl

/-- The first character of the text of a value: a quote, `n`, `[`, `{`, a minus or a digit. -/
theorem encodeValue_head (v : GoValue) :
    ∃ c rest, encodeValue v = c :: rest ∧ isWhitespace c = false ∧ c ≠ ']' := by
  match v with
  | .string s => exact ⟨_, _, rfl, rfl, by decide⟩
  | .int n =>
    obtain ⟨c, text, first, numeric⟩ := toString_int_head n
    exact ⟨c, text, first, numeric_not_special numeric⟩
  | .slice none => exact ⟨_, _, rfl, rfl, by decide⟩
  | .slice (some _) => exact ⟨_, _, rfl, rfl, by decide⟩
  | .struct _ => exact ⟨_, _, rfl, rfl, by decide⟩
  | .map _ => exact ⟨_, _, rfl, rfl, by decide⟩

/-- The value reader reads the text `encodeValue` writes for a value back as the JSON value it
stands for. -/
theorem reads_encodeValue (v : GoValue) : Reads (encodeValue v) v.toJson := by
  obtain ⟨n, size⟩ : ∃ n, (encodeValue v).length = n := ⟨_, rfl⟩
  induction n using Nat.strong_induction_on generalizing v with
  | _ n ih =>
  have member {w : GoValue} {texts : List (List Char)} {text : List Char} (inTexts : text ∈ texts)
      (within : (encodeValue w).length ≤ text.length)
      (whole : ([','].intercalate texts).length + 2 ≤ n) :
      Reads (encodeValue w) w.toJson :=
    ih _ (by have := length_le_intercalate inTexts; omega) w rfl
  match v with
  | .string s => exact reads_appendString s
  | .int n => exact reads_int n
  | .slice none =>
    intro fuel long rest _
    obtain ⟨fuel, rfl⟩ : ∃ f, fuel = f + 1 := ⟨fuel - 1, by simp [encodeValue] at long; omega⟩
    rfl
  | .slice (some items) =>
    have shape := reads_array (items.map fun w => (encodeValue w, w.toJson)) (fun p mem => by
        obtain ⟨w, inItems, rfl⟩ := List.mem_map.mp mem
        exact member (List.mem_map_of_mem encodeValue inItems) le_rfl
          (by simp [← size, encodeValue, encodeItems_eq]))
      (fun text first => by
        cases items with
        | nil => simp at first
        | cons w _ =>
          simp only [List.map_cons, List.head?_cons, Option.mem_def, Option.some.injEq] at first
          exact first ▸ encodeValue_head w)
    simpa [encodeValue, GoValue.toJson, encodeItems_eq, toJsonItems_eq, Function.comp_def]
      using shape
  | .struct fields =>
    have shape := reads_object
      (fields.map fun (f : List Char × GoValue) => (f.1, encodeValue f.2, f.2.toJson))
      (fun m mem => by
        obtain ⟨f, inFields, rfl⟩ := List.mem_map.mp mem
        exact member (List.mem_map_of_mem (fun m => appendString m.1 ++ ':' :: m.2.1)
            (List.mem_map_of_mem (fun (f : List Char × GoValue) => (f.1, encodeValue f.2, f.2.toJson))
              inFields))
          (by simp only [List.length_append, List.length_cons]; omega)
          (by simp [← size, encodeValue, writeObject, encodeEntries_eq, Function.comp_def]))
    simpa [encodeValue, GoValue.toJson, encodeEntries_eq, toJsonEntries_eq, Function.comp_def]
      using shape
  | .map entries =>
    let triples := entries.map fun (e : List Char × GoValue) => (e.1, encodeValue e.2, e.2.toJson)
    let sorted := triples.insertionSort fun a b => charsLe a.1 b.1
    have texts : (encodeEntries entries).insertionSort (fun a b => charsLe a.1 b.1) =
        sorted.map fun m => (m.1, m.2.1) := by
      have encoded : encodeEntries entries = triples.map fun m => (m.1, m.2.1) := by
        simp [triples, encodeEntries_eq, Function.comp_def]
      rw [encoded]
      exact (List.map_insertionSort (fun a b : List Char × List Char × JsonValue => charsLe a.1 b.1)
        (fun a b : List Char × List Char => charsLe a.1 b.1) _ triples fun _ _ _ _ => Iff.rfl).symm
    have values : (toJsonEntries entries).insertionSort (fun a b => charsLe a.1 b.1) =
        sorted.map fun m => (m.1, m.2.2) := by
      have read : toJsonEntries entries = triples.map fun m => (m.1, m.2.2) := by
        simp [triples, toJsonEntries_eq, Function.comp_def]
      rw [read]
      exact (List.map_insertionSort (fun a b : List Char × List Char × JsonValue => charsLe a.1 b.1)
        (fun a b : List Char × JsonValue => charsLe a.1 b.1) _ triples fun _ _ _ _ => Iff.rfl).symm
    have shape := reads_object sorted (fun m inSorted => by
      obtain ⟨e, inEntries, rfl⟩ := List.mem_map.mp ((List.mem_insertionSort _).mp inSorted)
      exact member (List.mem_map_of_mem (fun m => appendString m.1 ++ ':' :: m.2.1) inSorted)
        (by simp only [List.length_append, List.length_cons]; omega)
        (by simp [← size, encodeValue, writeObject, texts, Function.comp_def]))
    rw [encodeValue, GoValue.toJson, texts, values]
    exact shape

/-- `parse` reads what `Encoder.Encode` writes for a value back as the JSON value it stands
for. -/
theorem encode_parses (v : GoValue) : parse (encode v) = some v.toJson := by
  rw [parse, encode, reads_encodeValue v _ (by simp only [List.length_append]; omega) ['\n']
    (delimited_cons (by decide) [])]
  rfl

/-- `parse` reads what `json.Marshal` writes for a value back as the JSON value it stands for. -/
theorem marshal_parses (v : GoValue) : parse (encodeValue v) = some v.toJson := by
  have read := reads_encodeValue v _ (Nat.le_succ _) [] fun _ none => nomatch none
  rw [List.append_nil] at read
  rw [parse, read]
  rfl

/-- `encode_parses` for a value with no `int`. -/
theorem parse_encode (v : GoValue) (_free : v.intFree) : parse (encode v) = some v.toJson :=
  encode_parses v

end DpApiClients.Json
