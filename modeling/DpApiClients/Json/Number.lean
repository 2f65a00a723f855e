import Mathlib.Tactic.IntervalCases
import Mathlib.Tactic.Ring
import DpApiClients.Json.Decode

/-!
# Integers

`encoding/json` writes an `int` as `strconv.AppendInt(…, 10)` does: a minus for a negative
number, then its decimal digits with no leading zero. That is `toString n`, whose digits are
`Nat.toDigits 10` of the absolute value (`isDecimal_toString`, `toString_int_toList`).

`parseNumber_toString` says that the number reader takes that text back as one literal when
what follows it is one of the characters the encoder writes after a value, and
`parseInt_toString` that `strconv.ParseInt` reads the literal as `n` again when `n` is in the
range of a 64-bit `int`.
-/

namespace DpApiClients.Json

/-- What may follow a value the encoder writes: nothing, a comma, a closing bracket or brace,
or the newline of `Encode`. -/
def Delimited (rest : List Char) : Prop :=
  ∀ c ∈ rest.head?, c = ',' ∨ c = ']' ∨ c = '}' ∨ c = '\n'

theorem delimited_cons {c : Char} (delimiter : c = ',' ∨ c = ']' ∨ c = '}' ∨ c = '\n')
    (rest : List Char) : Delimited (c :: rest) :=
  fun _ head => Option.some.inj head ▸ delimiter

/-- Whether `n` is in the range of Go's 64-bit `int`, the range `parseInt` accepts. -/
def inIntRange (n : Int) : Bool :=
  -9223372036854775808 ≤ n && n < 9223372036854775808

/-- `ds` is the decimal text of `n` as `strconv` writes it: digits, at least one, of value `n`,
with no leading `0` other than in `0` itself. -/
structure IsDecimal (ds : List Char) (n : Nat) : Prop where
  nonempty : ds ≠ []
  digits : ∀ c ∈ ds, isDigit c
  value : digitsValue ds = n
  leading : ds.head? = some '0' → ds = ['0']

theorem foldl_digit (acc : Nat) (ds : List Char) :
    ds.foldl (fun n d => 10 * n + (d.toNat - '0'.toNat)) acc =
      acc * 10 ^ ds.length + digitsValue ds := by
  induction ds generalizing acc with
  | nil => simp [digitsValue]
  | cons d ds ih =>
    simp only [digitsValue, List.foldl_cons, List.length_cons] at ih ⊢
    rw [ih, ih (10 * 0 + _)]
    ring

theorem digitsValue_append (ds ds' : List Char) :
    digitsValue (ds ++ ds') = digitsValue ds * 10 ^ ds'.length + digitsValue ds' := by
  rw [digitsValue, List.foldl_append, foldl_digit]
  rfl

theorem digitChar_digit : ∀ k < 10,
    isDigit (Nat.digitChar k) ∧ (Nat.digitChar k).toNat - '0'.toNat = k ∧
      (Nat.digitChar k = '0' → k = 0) := by
  decide

/-- A digit is one of `0` to `9`. -/
theorem isDigit_cases {c : Char} (digit : isDigit c) :
    c = '0' ∨ c = '1' ∨ c = '2' ∨ c = '3' ∨ c = '4' ∨ c = '5' ∨ c = '6' ∨ c = '7' ∨
      c = '8' ∨ c = '9' := by
  have bounds : 48 ≤ c.toNat ∧ c.toNat ≤ 57 := by
    simpa [isDigit, Char.le_def] using digit
  rw [← Char.ofNat_toNat c]
  obtain ⟨low, high⟩ := bounds
  generalize c.toNat = k at low high
  interval_cases k <;> decide

/-- `Nat.toDigitsCore` with enough fuel puts the decimal text of `n` in front of `ds`. -/
theorem toDigitsCore_decimal : ∀ (fuel n : Nat) (ds : List Char), n < fuel →
    ∃ front, Nat.toDigitsCore 10 fuel n ds = front ++ ds ∧ IsDecimal front n
  | 0, _, _, small => absurd small (Nat.not_lt_zero _)
  | fuel + 1, n, ds, small => by
    obtain ⟨digit, value, zero⟩ := digitChar_digit (n % 10) (Nat.mod_lt _ (by decide))
    have unfolded : Nat.toDigitsCore 10 (fuel + 1) n ds =
        if n / 10 = 0 then Nat.digitChar (n % 10) :: ds
        else Nat.toDigitsCore 10 fuel (n / 10) (Nat.digitChar (n % 10) :: ds) := rfl
    rw [unfolded]
    by_cases last : n / 10 = 0
    · rw [if_pos last]
      refine ⟨[Nat.digitChar (n % 10)], rfl, ⟨by simp, by simpa using digit, ?_, by simp⟩⟩
      simp only [digitsValue, List.foldl_cons, List.foldl_nil, value]
      omega
    · rw [if_neg last]
      obtain ⟨front, eq, decimal⟩ :=
        toDigitsCore_decimal fuel (n / 10) (Nat.digitChar (n % 10) :: ds) (by omega)
      refine ⟨front ++ [Nat.digitChar (n % 10)], by simpa using eq, ⟨by simp, ?_, ?_, ?_⟩⟩
      · intro c mem
        rcases List.mem_append.mp mem with mem | mem
        exacts [decimal.digits c mem, List.mem_singleton.mp mem ▸ digit]
      · rw [digitsValue_append, decimal.value]
        simp only [digitsValue, List.length_singleton, pow_one, List.foldl_cons, List.foldl_nil,
          value]
        omega
      · obtain ⟨c, cs, rfl⟩ := List.exists_cons_of_ne_nil decimal.nonempty
        intro head
        have zeroText := decimal.leading (by simpa using head)
        have := decimal.value
        simp [zeroText, digitsValue] at this
        omega

/-- `toString` of a `Nat`, as `strconv.Itoa` writes a number that is not negative, is its
decimal text. -/
theorem isDecimal_toString (n : Nat) : IsDecimal (toString n).toList n := by
  obtain ⟨front, eq, decimal⟩ := toDigitsCore_decimal (n + 1) n [] (by omega)
  show IsDecimal (Nat.toDigitsCore 10 (n + 1) n []) n
  rwa [eq, List.append_nil]

/-- `toString` of an `Int`: a minus for a negative number, then the text of its absolute value. -/
theorem toString_int_toList (n : Int) :
    (toString n).toList = (if n < 0 then ['-'] else []) ++ (toString n.natAbs).toList := by
  cases n with
  | ofNat m => rw [if_neg (by rw [Int.ofNat_eq_coe]; omega)]; rfl
  | negSucc m => rw [if_pos (Int.negSucc_lt_zero m)]; rfl

/-- The text of an `int` starts with a minus or a digit. -/
theorem toString_int_head (n : Int) :
    ∃ c rest, (toString n).toList = c :: rest ∧ (c = '-' ∨ isDigit c) := by
  have decimal := isDecimal_toString n.natAbs
  obtain ⟨d, t, first⟩ := List.exists_cons_of_ne_nil decimal.nonempty
  rw [toString_int_toList]
  split_ifs
  · exact ⟨'-', _, rfl, .inl rfl⟩
  · exact ⟨d, t, by rw [List.nil_append, first],
      .inr (decimal.digits d (first ▸ List.mem_cons_self d t))⟩

/-- The digits at the start of `ds ++ rest`, when `rest` does not start with a digit, are `ds`. -/
theorem digits_append {ds rest : List Char} (nonempty : ds ≠ []) (all : ∀ c ∈ ds, isDigit c)
    (stop : ∀ c ∈ rest.head?, isDigit c = false) : digits (ds ++ rest) = some (ds, rest) := by
  have taken : rest.takeWhile isDigit = [] ∧ rest.dropWhile isDigit = rest := by
    cases rest with
    | nil => simp
    | cons c rest => simp [List.takeWhile_cons, List.dropWhile_cons, stop c rfl]
  obtain ⟨d, ds, rfl⟩ := List.exists_cons_of_ne_nil nonempty
  rw [digits, List.span_eq_take_drop, List.takeWhile_append_of_pos all,
    List.dropWhile_append_of_pos all, taken.1, taken.2, List.append_nil]

/-- The number reader reads a decimal text, with or without a minus, as one literal when a
delimiter follows it: the sign, then `0` or the digits, then no fraction and no exponent. -/
theorem parseNumber_decimal {ds rest : List Char} {n : Nat} (decimal : IsDecimal ds n)
    (delimited : Delimited rest) (sign : List Char) (signs : sign = [] ∨ sign = ['-']) :
    parseNumber (sign ++ ds ++ rest) = some (sign ++ ds, rest) := by
  have read := digits_append decimal.nonempty decimal.digits fun c mem => by
    rcases delimited c mem with rfl | rfl | rfl | rfl <;> rfl
  obtain ⟨d, t, rfl⟩ := List.exists_cons_of_ne_nil decimal.nonempty
  have notMinus : d ≠ '-' := by
    rintro rfl
    exact absurd (decimal.digits _ (List.mem_cons_self _ _)) (by decide)
  unfold parseNumber
  split
  rename_i signed afterSign signEq
  obtain ⟨rfl, rfl⟩ : signed = sign ∧ afterSign = d :: t ++ rest := by
    rcases signs with rfl | rfl <;> split at signEq <;> cases signEq <;> simp_all
  split <;> [
    (obtain ⟨rfl, rfl⟩ := List.cons.inj ‹_›
     obtain rfl : t = [] := by simpa using decimal.leading rfl);
    rw [read]]
  all_goals
    dsimp only [bind, Option.bind, List.append_eq, List.nil_append]
    split
    · exact absurd (delimited '.' (by simp [*])) (by decide)
    split
    · rename_i e _ _ same
      rw [if_neg (by rcases delimited e (by simp [same]) with rfl | rfl | rfl | rfl <;> decide)]
      simp [same]
    · simp [*]

/-- The text `encoding/json` writes for an `int` is read as one number literal, that text,
whatever delimiter follows it. -/
theorem parseNumber_toString (n : Int) {rest : List Char} (delimited : Delimited rest) :
    parseNumber ((toString n).toList ++ rest) = some ((toString n).toList, rest) := by
  rw [toString_int_toList]
  exact parseNumber_decimal (isDecimal_toString n.natAbs) delimited _
    (by split_ifs <;> simp)

/-- `strconv.ParseInt` reads the text of an `int` back as that `int`. -/
theorem parseInt_toString {n : Int} (range : inIntRange n) :
    parseInt (toString n).toList = some n := by
  obtain ⟨nonempty, digits, value, -⟩ := isDecimal_toString n.natAbs
  obtain ⟨d, t, decimal⟩ := List.exists_cons_of_ne_nil nonempty
  have notSign : d ≠ '-' ∧ d ≠ '+' := by
    have := digits d (decimal ▸ List.mem_cons_self d t)
    constructor <;> rintro rfl <;> exact absurd this (by decide)
  have wellFormed :
      ¬((toString n.natAbs).toList = [] ∨ !(toString n.natAbs).toList.all isDigit) := by
    rw [List.all_eq_true.mpr digits]
    simpa using nonempty
  simp only [inIntRange, Bool.and_eq_true, decide_eq_true_eq] at range
  rw [toString_int_toList]
  unfold parseInt
  split
  rename_i negative ds signEq
  obtain ⟨rfl, rfl⟩ : negative = decide (n < 0) ∧ ds = (toString n.natAbs).toList := by
    by_cases below : n < 0
    · rw [if_pos below] at signEq
      split at signEq <;> cases signEq <;> simp_all
    · rw [if_neg below, List.nil_append, decimal] at signEq
      split at signEq <;> cases signEq <;> simp_all
  have magnitude : (if decide (n < 0) = true then -(n.natAbs : Int) else n.natAbs) = n := by
    split_ifs with below <;> simp only [decide_eq_true_eq] at below <;> omega
  rw [if_neg wellFormed, value]
  dsimp only
  rw [magnitude, if_pos range]

end DpApiClients.Json
