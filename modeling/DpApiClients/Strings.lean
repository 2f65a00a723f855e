import Mathlib.Data.List.Basic

/-!
# Go strings as bytes

A Go `string` is a sequence of bytes, so it is modelled as `List UInt8`; the literals of the
code are ASCII, and `ascii` writes them. The functions of package `strings` that the code and
`net/url` use are defined here on bytes, each with the lemmas that say what it does to an input
of a known shape. All separators in these calls are a single byte.
-/

namespace DpApiClients

/-- The bytes of a string literal of the code; all of them are ASCII. -/
def ascii (s : String) : List UInt8 :=
  s.data.map Char.toUInt8

namespace Strings

/-- `strings.Cut(s, sep)`: the bytes before the first `sep`, the bytes after it, and whether
there was one. -/
def cut (s : List UInt8) (sep : UInt8) : List UInt8 × List UInt8 × Bool :=
  match s with
  | [] => ([], [], false)
  | c :: rest =>
    if c = sep then ([], rest, true)
    else
      let (before, after, found) := cut rest sep
      (c :: before, after, found)

/-- The cut at the last `sep` (`strings.LastIndex` and the two slices around it), if any. -/
def cutLast (s : List UInt8) (sep : UInt8) : Option (List UInt8 × List UInt8) :=
  match cut s.reverse sep with
  | (after, before, true) => some (before.reverse, after.reverse)
  | _ => none

/-- `strings.HasSuffix(s, suffix)` for a one-byte suffix. -/
def hasSuffix (s : List UInt8) (c : UInt8) : Bool :=
  s.getLast? == some c

/-- `strings.ToLower` on ASCII bytes. -/
def toLower (s : List UInt8) : List UInt8 :=
  s.map fun c => if 65 ≤ c ∧ c ≤ 90 then c + 32 else c

/-! ## Cutting a string of known shape -/

variable {sep : UInt8}

@[simp] theorem cut_nil : cut [] sep = ([], [], false) := rfl

theorem cut_of_not_mem {s : List UInt8} (absent : sep ∉ s) : cut s sep = (s, [], false) := by
  induction s with
  | nil => rfl
  | cons c rest ih =>
    simp only [List.mem_cons, not_or] at absent
    simp [cut, Ne.symm absent.1, ih absent.2]

theorem cut_append_cons {before after : List UInt8} (absent : sep ∉ before) :
    cut (before ++ sep :: after) sep = (before, after, true) := by
  induction before with
  | nil => simp [cut]
  | cons c rest ih =>
    simp only [List.mem_cons, not_or] at absent
    simp [cut, Ne.symm absent.1, ih absent.2]

theorem cutLast_of_not_mem {s : List UInt8} (absent : sep ∉ s) : cutLast s sep = none := by
  rw [cutLast, cut_of_not_mem (by simpa using absent)]

theorem cutLast_append_cons {before after : List UInt8} (absent : sep ∉ after) :
    cutLast (before ++ sep :: after) sep = some (before, after) := by
  have reversed : (before ++ sep :: after).reverse = after.reverse ++ sep :: before.reverse := by
    simp
  rw [cutLast, reversed, cut_append_cons (by simpa using absent)]
  simp

theorem hasSuffix_append_singleton (s : List UInt8) (c : UInt8) : hasSuffix (s ++ [c]) c = true := by
  simp [hasSuffix]

/-- Only the last byte counts for a one-byte suffix. -/
theorem hasSuffix_append (s : List UInt8) {t : List UInt8} (nonempty : t ≠ []) (c : UInt8) :
    hasSuffix (s ++ t) c = hasSuffix t c := by
  obtain ⟨init, last, rfl⟩ := List.eq_nil_or_concat t |>.resolve_left nonempty
  simp [hasSuffix, ← List.append_assoc]

theorem mem_of_hasSuffix {s : List UInt8} {c : UInt8} (suffix : hasSuffix s c) : c ∈ s :=
  List.mem_of_getLast?_eq_some (beq_iff_eq.mp suffix)

/-- `strings.ToLower` leaves a string with no upper-case letter as it is. -/
theorem toLower_of_not_upper {s : List UInt8} (noUpper : ∀ c ∈ s, ¬(65 ≤ c ∧ c ≤ 90)) :
    toLower s = s :=
  (List.map_congr_left fun c mem => if_neg (noUpper c mem)).trans (List.map_id s)

/-! ## Splitting at every separator -/

/-- Splitting at every `sep` splits either side of one `sep` on its own. -/
theorem splitOn_append_cons (before after : List UInt8) :
    (before ++ sep :: after).splitOn sep = before.splitOn sep ++ after.splitOn sep := by
  induction before with
  | nil => simp [List.splitOn]
  | cons c rest ih =>
    have pieces := List.splitOnP_ne_nil (· == sep) rest
    obtain ⟨first, others, split⟩ := List.exists_cons_of_ne_nil pieces
    simp only [List.splitOn, List.cons_append, List.splitOnP_cons] at ih ⊢
    split
    · simp [ih]
    · rw [ih, split]
      rfl

theorem splitOn_of_not_mem {s : List UInt8} (absent : sep ∉ s) : s.splitOn sep = [s] :=
  List.splitOnP_eq_single _ _ fun c mem same => absent (by simpa using (beq_iff_eq.mp same) ▸ mem)

/-- Every byte of `intercalate [sep] pieces` is `sep` or a byte of one of the pieces. -/
theorem mem_intercalate {c : UInt8} {pieces : List (List UInt8)}
    (mem : c ∈ [sep].intercalate pieces) : c = sep ∨ ∃ piece ∈ pieces, c ∈ piece := by
  induction pieces with
  | nil => simp [List.intercalate] at mem
  | cons piece pieces ih =>
    cases pieces with
    | nil => exact .inr ⟨piece, List.mem_singleton_self _, by simpa [List.intercalate] using mem⟩
    | cons next rest =>
      simp only [List.intercalate, List.intersperse_cons_cons, List.flatten_cons,
        List.mem_append, List.mem_singleton] at mem ih
      rcases mem with inPiece | isSep | inRest
      · exact .inr ⟨piece, List.mem_cons_self _ _, inPiece⟩
      · exact .inl isSep
      · rcases ih inRest with isSep | ⟨other, mem, inOther⟩
        · exact .inl isSep
        · exact .inr ⟨other, List.mem_cons_of_mem _ mem, inOther⟩

/-- Pieces written after a first one, each behind a `sep`, split back into the pieces. -/
theorem splitOn_append_flatMap {first : List UInt8} (absent : sep ∉ first)
    (f : List UInt8 → List UInt8) {pieces : List (List UInt8)} (absentEach : ∀ p ∈ pieces, sep ∉ f p) :
    (first ++ pieces.flatMap fun p => sep :: f p).splitOn sep = first :: pieces.map f := by
  induction pieces generalizing first with
  | nil => simpa using splitOn_of_not_mem absent
  | cons p pieces ih =>
    rw [List.flatMap_cons, List.cons_append, splitOn_append_cons, splitOn_of_not_mem absent,
      ih (absentEach p (List.mem_cons_self p pieces)) fun q mem =>
        absentEach q (List.mem_cons_of_mem p mem)]
    rfl

end Strings

end DpApiClients
