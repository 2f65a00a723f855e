import DpApiClients.Url.Escape
import Mathlib.Data.List.Sort

/-!
# `url.Values`: encoding a query and parsing it back

`Values.encode` is `Values.Encode`: the keys in sorted order, and for each key its values in
order, each pair written as `key=value` with both parts query-escaped, the pairs joined by
`&`. `parseQuery` is `url.ParseQuery`: the `&`-separated items in order, an item with a `;`
refused, an empty one skipped, each item cut at its first `=` and both parts
query-unescaped, the value appended to the key's list.

The main result, `parseQuery_encode`, is that parsing takes back what encoding wrote, for
every key and value whatever bytes they hold: escaping leaves no `&`, `=` or `;` in either.
-/

namespace DpApiClients.Url

/-- `url.Values`, a map from keys to lists of values. The entries keep the order in which
the keys were added; the map has none, and `Values.encode` sorts the keys. -/
structure Values where
  entries : List (List UInt8 × List (List UInt8))
  nodup : (entries.map Prod.fst).Nodup

/-- The errors `parseQuery` returns. -/
inductive QueryError where
  /-- `invalid semicolon separator in query` -/
  | semicolon
  | escape (err : EscapeError)
  deriving DecidableEq, Repr

/-- Go's ordering of strings: bytewise, a prefix first. -/
def bytesLe : List UInt8 → List UInt8 → Bool
  | [], _ => true
  | _ :: _, [] => false
  | a :: as, b :: bs => a < b || (a = b && bytesLe as bs)

namespace Values

def empty : Values := ⟨[], List.nodup_nil⟩

def keys (v : Values) : List (List UInt8) :=
  v.entries.map Prod.fst

/-- `v[key]`: the values of `key`, none if it is not in the map. -/
def get (v : Values) (key : List UInt8) : List (List UInt8) :=
  (v.entries.lookup key).getD []

/-- `v.Add(key, value)`, that is `v[key] = append(v[key], value)`. -/
def add (v : Values) (key value : List UInt8) : Values :=
  if present : key ∈ v.keys then
    ⟨v.entries.map fun (k, vs) => (k, if k = key then vs ++ [value] else vs), by
      simpa [Function.comp_def] using v.nodup⟩
  else
    ⟨v.entries ++ [(key, [value])], by
      simpa only [List.map_append, List.map_cons, List.map_nil] using
        v.nodup.append (List.nodup_singleton key) (List.disjoint_singleton.2 present)⟩

/-- `v.Encode()`. -/
def encode (v : Values) : List UInt8 :=
  ['&'.toUInt8].intercalate
    ((v.keys.insertionSort fun a b => bytesLe a b).flatMap fun key =>
      (v.get key).map fun value => queryEscape key ++ '='.toUInt8 :: queryEscape value)

end Values

/-- The loop of `parseQuery` over the `&`-separated items of a query, with the error it will
return: a semicolon error replaces an earlier error, an unescaping error is kept only if
there is none yet. Go's loop cuts the query at one `&` at a time and stops when nothing is
left, which visits the same items as `splitOn` bar a trailing empty one, and empty items are
skipped. -/
def parseItems (m : Values) (err : Option QueryError) :
    List (List UInt8) → Values × Option QueryError
  | [] => (m, err)
  | item :: items =>
    if ';'.toUInt8 ∈ item then parseItems m (some .semicolon) items
    else if item = [] then parseItems m err items
    else
      let (key, value, _) := Strings.cut item '='.toUInt8
      match queryUnescape key, queryUnescape value with
      | .ok key, .ok value => parseItems (m.add key value) err items
      | .error e, _ => parseItems m (err <|> some (.escape e)) items
      | .ok _, .error e => parseItems m (err <|> some (.escape e)) items

/-- `url.ParseQuery`: the values, and the error it returns with them. -/
def parseQuery (query : List UInt8) : Values × Option QueryError :=
  parseItems .empty none (query.splitOn '&'.toUInt8)

/-! ## Looking a key up -/

namespace Values

@[simp] theorem get_empty (key : List UInt8) : empty.get key = [] := rfl

theorem lookup_eq_none {entries : List (List UInt8 × List (List UInt8))} {key : List UInt8}
    (absent : key ∉ entries.map Prod.fst) : entries.lookup key = none := by
  induction entries with
  | nil => rfl
  | cons entry entries ih =>
    obtain ⟨k, vs⟩ := entry
    simp only [List.map_cons, List.mem_cons, not_or] at absent
    rw [List.lookup_cons, beq_false_of_ne absent.1]
    exact ih absent.2

theorem lookup_map_snd (entries : List (List UInt8 × List (List UInt8)))
    (f : List UInt8 → List (List UInt8) → List (List UInt8)) (key : List UInt8) :
    (entries.map fun (k, vs) => (k, f k vs)).lookup key = (entries.lookup key).map (f key) := by
  induction entries with
  | nil => rfl
  | cons entry entries ih =>
    obtain ⟨k, vs⟩ := entry
    by_cases here : key = k
    · subst here; simp
    · simp [List.lookup_cons, beq_false_of_ne here, ih]

theorem get_add (v : Values) (key value key' : List UInt8) :
    (v.add key value).get key' = if key' = key then v.get key ++ [value] else v.get key' := by
  unfold add get
  split
  · case isTrue present =>
    dsimp only
    rw [lookup_map_snd _ fun k vs => if k = key then vs ++ [value] else vs]
    by_cases here : key' = key
    · subst here
      obtain ⟨vs, found⟩ : ∃ vs, v.entries.lookup key' = some vs := Option.isSome_iff_exists.mp
        (List.lookup_isSome_iff.mpr (by simpa [keys] using present))
      simp [found]
    · cases v.entries.lookup key' <;> simp [here]
  · case isFalse absent =>
    by_cases here : key' = key
    · subst here
      simp [List.lookup_append, lookup_eq_none absent]
    · simp [List.lookup_append, here, List.lookup_cons, beq_false_of_ne here]

/-- Adding pairs one by one appends each value to its key's list. -/
theorem get_foldl_add (pairs : List (List UInt8 × List UInt8)) (m : Values) (key : List UInt8) :
    (pairs.foldl (fun m pair => m.add pair.1 pair.2) m).get key =
      m.get key ++ (pairs.filter (·.1 = key)).map Prod.snd := by
  induction pairs generalizing m with
  | nil => simp
  | cons pair pairs ih =>
    rw [List.foldl_cons, ih, get_add]
    by_cases here : pair.1 = key
    · simp [here]
    · simp [here, Ne.symm here]

end Values

/-! ## Parsing what `encode` wrote -/

/-- The item `Values.encode` writes for one key and one of its values. -/
def renderPair (pair : List UInt8 × List UInt8) : List UInt8 :=
  queryEscape pair.1 ++ '='.toUInt8 :: queryEscape pair.2

theorem not_mem_queryEscape {b : UInt8} (escaped : shouldEscape b .queryComponent = true)
    (notPercent : b ≠ '%'.toUInt8) (notPlus : b ≠ '+'.toUInt8) (s : List UInt8) :
    b ∉ queryEscape s :=
  not_mem_escape escaped notPercent (fun plus => absurd plus notPlus) s

theorem queryUnescape_queryEscape (s : List UInt8) : queryUnescape (queryEscape s) = .ok s := by
  simpa [queryUnescape, queryEscape, Except.map] using
    @unescape_escape .queryComponent trivial s []

theorem amp_not_mem_renderPair (pair : List UInt8 × List UInt8) : '&'.toUInt8 ∉ renderPair pair := by
  have := not_mem_queryEscape (b := '&'.toUInt8) (by decide) (by decide) (by decide)
  have notEquals : '&'.toUInt8 ≠ '='.toUInt8 := by decide
  simp [renderPair, this, notEquals]

/-- `parseQuery`'s loop over items each of which reads back as one pair, given with the item:
it adds the pairs in order and keeps the error it had. -/
theorem parseItems_reads (items : List (List UInt8 × (List UInt8 × List UInt8)))
    (reads : ∀ item ∈ items, ';'.toUInt8 ∉ item.1 ∧ item.1 ≠ [] ∧
      queryUnescape (Strings.cut item.1 '='.toUInt8).1 = .ok item.2.1 ∧
      queryUnescape (Strings.cut item.1 '='.toUInt8).2.1 = .ok item.2.2)
    (m : Values) (err : Option QueryError) :
    parseItems m err (items.map Prod.fst) =
      ((items.map Prod.snd).foldl (fun m pair => m.add pair.1 pair.2) m, err) := by
  induction items generalizing m with
  | nil => rfl
  | cons item items ih =>
    obtain ⟨noSemicolon, nonempty, key, value⟩ := reads item (List.mem_cons_self _ _)
    rw [List.map_cons, parseItems, if_neg noSemicolon, if_neg nonempty]
    rcases cut : Strings.cut item.1 '='.toUInt8 with ⟨k, v, found⟩
    rw [cut] at key value
    simp only [cut, key, value]
    exact ih (fun i mem => reads i (List.mem_cons_of_mem _ mem)) _

/-- An item `key=value` whose key has no `=` and neither part a `;` reads back as the two
parts decoded. -/
theorem reads_keyValue {key value : List UInt8} {pair : List UInt8 × List UInt8}
    (keyEq : '='.toUInt8 ∉ key) (keySemicolon : ';'.toUInt8 ∉ key)
    (valueSemicolon : ';'.toUInt8 ∉ value) (keyDecodes : queryUnescape key = .ok pair.1)
    (valueDecodes : queryUnescape value = .ok pair.2) :
    ';'.toUInt8 ∉ key ++ '='.toUInt8 :: value ∧ key ++ '='.toUInt8 :: value ≠ [] ∧
      queryUnescape (Strings.cut (key ++ '='.toUInt8 :: value) '='.toUInt8).1 = .ok pair.1 ∧
      queryUnescape (Strings.cut (key ++ '='.toUInt8 :: value) '='.toUInt8).2.1 = .ok pair.2 := by
  have semicolonNotEquals : ';'.toUInt8 ≠ '='.toUInt8 := by decide
  rw [Strings.cut_append_cons keyEq]
  exact ⟨by simp [keySemicolon, valueSemicolon, semicolonNotEquals], by simp, keyDecodes,
    valueDecodes⟩

/-- `parseQuery`'s loop reads each rendered pair back and adds it. -/
theorem parseItems_renderPair (pairs : List (List UInt8 × List UInt8)) (m : Values)
    (err : Option QueryError) :
    parseItems m err (pairs.map renderPair) =
      (pairs.foldl (fun m pair => m.add pair.1 pair.2) m, err) := by
  have noSemicolon := not_mem_queryEscape (b := ';'.toUInt8) (by decide) (by decide) (by decide)
  have reads := parseItems_reads (pairs.map fun pair => (renderPair pair, pair)) (fun item mem => by
    obtain ⟨pair, -, rfl⟩ := List.mem_map.mp mem
    exact reads_keyValue (not_mem_queryEscape (by decide) (by decide) (by decide) _)
      (noSemicolon _) (noSemicolon _) (queryUnescape_queryEscape _) (queryUnescape_queryEscape _))
    m err
  simpa [Function.comp_def] using reads

/-- The pairs `Values.encode` writes, in order. -/
def Values.pairs (v : Values) : List (List UInt8 × List UInt8) :=
  (v.keys.insertionSort fun a b => bytesLe a b).flatMap fun key => (v.get key).map (key, ·)

theorem Values.encode_eq (v : Values) : v.encode = ['&'.toUInt8].intercalate (v.pairs.map renderPair) := by
  simp [encode, pairs, List.map_flatMap, renderPair, Function.comp_def]

/-- Over keys none of which is repeated, picking out one key's values finds them once. -/
theorem flatMap_filter_key {keys : List (List UInt8)} (nodup : keys.Nodup)
    (values : List UInt8 → List (List UInt8)) (key : List UInt8) :
    ((keys.flatMap fun k => (values k).map (k, ·)).filter (·.1 = key)).map Prod.snd =
      if key ∈ keys then values key else [] := by
  induction keys with
  | nil => simp
  | cons k keys ih =>
    rw [List.nodup_cons] at nodup
    rw [List.flatMap_cons, List.filter_append, List.map_append, ih nodup.2]
    by_cases here : k = key
    · subst here
      simp [List.filter_map, Function.comp_def, nodup.1]
    · simp [List.filter_map, Function.comp_def, here, Ne.symm here]

/-- `url.ParseQuery` takes back what `Values.Encode` wrote: no error, and every key has the
values it had, in order, whatever bytes the keys and values hold. -/
theorem parseQuery_encode (v : Values) :
    (parseQuery v.encode).2 = none ∧ ∀ key, (parseQuery v.encode).1.get key = v.get key := by
  have parsed : parseQuery v.encode = (v.pairs.foldl (fun m pair => m.add pair.1 pair.2) .empty, none) := by
    rw [parseQuery, Values.encode_eq]
    by_cases empty : v.pairs = []
    · rw [empty]; rfl
    · have noAmp : ∀ item ∈ v.pairs.map renderPair, '&'.toUInt8 ∉ item := fun item mem => by
        obtain ⟨pair, -, rfl⟩ := List.mem_map.mp mem
        exact amp_not_mem_renderPair pair
      rw [List.splitOn_intercalate _ _ noAmp (by simpa using empty), parseItems_renderPair]
  refine ⟨by rw [parsed], fun key => ?_⟩
  have perm := List.perm_insertionSort (fun a b : List UInt8 => bytesLe a b = true) v.keys
  rw [parsed, Values.get_foldl_add, Values.get_empty, List.nil_append, Values.pairs,
    flatMap_filter_key (perm.nodup_iff.mpr v.nodup)]
  by_cases present : key ∈ v.keys
  · rw [if_pos (perm.mem_iff.mpr present)]
  · rw [if_neg (mt perm.mem_iff.mp present)]
    simp [Values.get, Values.lookup_eq_none present]

end DpApiClients.Url
