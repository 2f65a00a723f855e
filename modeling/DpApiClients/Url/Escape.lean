import DpApiClients.Strings

/-!
# Percent-encoding in `net/url`

`shouldEscape`, `escape` and `unescape` are the three functions of `net/url` that every other
part of the package goes through: `QueryEscape`, `PathEscape`, the path and fragment of a
parsed URL, and the decoding of a query. They work byte by byte, under one of seven
encoding modes.

Go's `unescape` makes two passes: the first checks every `%` and, for a host, every byte,
and returns at the first problem from the left; the second decodes. `unescape` here makes
one pass from the left that fails at the same byte with the same error and otherwise
decodes the same way.

What a mode does to one byte is a finite table, so the facts about one byte below are
checked for all 256 bytes (`forall_byte`); the facts about strings follow by induction.
-/

namespace DpApiClients.Url

/-- The `encoding` modes of `net/url`. -/
inductive Encoding where
  | path
  | pathSegment
  | host
  | zone
  | userPassword
  | queryComponent
  | fragment
  deriving DecidableEq, Repr

/-- The errors of `unescape`: `EscapeError` and `InvalidHostError`, each with the bytes it
quotes in its message. -/
inductive EscapeError where
  /-- `invalid URL escape %q` -/
  | escape (s : List UInt8)
  /-- `invalid character %q in host name` -/
  | invalidHost (s : List UInt8)
  deriving DecidableEq, Repr

/-- `'a' <= c && c <= 'z' || 'A' <= c && c <= 'Z' || '0' <= c && c <= '9'` -/
def isAlnum (c : UInt8) : Bool :=
  ('a'.toUInt8 ≤ c && c ≤ 'z'.toUInt8) || ('A'.toUInt8 ≤ c && c ≤ 'Z'.toUInt8) ||
    ('0'.toUInt8 ≤ c && c ≤ '9'.toUInt8)

/-- Whether `c` must be percent-encoded in a part of a URL encoded under `mode`. -/
def shouldEscape (c : UInt8) (mode : Encoding) : Bool :=
  if isAlnum c then false
  else if (mode = .host ∨ mode = .zone) ∧ c ∈ ascii "!$&'()*+,;=:[]<>\"" then false
  else if c ∈ ascii "-_.~" then false
  else if c ∈ ascii "$&+,/:;=?@" then
    match mode with
    | .path => c = '?'.toUInt8
    | .pathSegment => c ∈ ascii "/;,?"
    | .userPassword => c ∈ ascii "@/?:"
    | .queryComponent => true
    | .fragment => false
    | .host | .zone => true
  else if mode = .fragment ∧ c ∈ ascii "!()*" then false
  else true

def ishex (c : UInt8) : Bool :=
  ('0'.toUInt8 ≤ c && c ≤ '9'.toUInt8) || ('a'.toUInt8 ≤ c && c ≤ 'f'.toUInt8) ||
    ('A'.toUInt8 ≤ c && c ≤ 'F'.toUInt8)

def unhex (c : UInt8) : UInt8 :=
  if '0'.toUInt8 ≤ c && c ≤ '9'.toUInt8 then c - '0'.toUInt8
  else if 'a'.toUInt8 ≤ c && c ≤ 'f'.toUInt8 then c - 'a'.toUInt8 + 10
  else if 'A'.toUInt8 ≤ c && c ≤ 'F'.toUInt8 then c - 'A'.toUInt8 + 10
  else 0

/-- `upperhex[n]`, for `n < 16`. -/
def upperhex (n : UInt8) : UInt8 :=
  (ascii "0123456789ABCDEF").getD n.toNat 0

/-- What `escape` writes for one byte. -/
def escapeByte (mode : Encoding) (c : UInt8) : List UInt8 :=
  if c = ' '.toUInt8 ∧ mode = .queryComponent then ['+'.toUInt8]
  else if shouldEscape c mode then ['%'.toUInt8, upperhex (c >>> 4), upperhex (c &&& 15)]
  else [c]

def escape (s : List UInt8) (mode : Encoding) : List UInt8 :=
  s.flatMap (escapeByte mode)

/-- The byte that `%` followed by `h1` and `h2` stands for. -/
def unhexPair (h1 h2 : UInt8) : UInt8 :=
  unhex h1 <<< 4 ||| unhex h2

/-- The percent-encoded bytes that `unescape` refuses in a host (other than `%25`, only
non-ASCII bytes may be encoded there) or in an IPv6 zone (only bytes a host may hold). -/
def escapeRefused (mode : Encoding) (h1 h2 : UInt8) : Bool :=
  let percent25 := h1 = '2'.toUInt8 ∧ h2 = '5'.toUInt8
  match mode with
  | .host => unhex h1 < 8 ∧ ¬percent25
  | .zone =>
    let v := unhexPair h1 h2
    ¬percent25 ∧ v ≠ ' '.toUInt8 ∧ shouldEscape v .host
  | _ => false

def unescape (mode : Encoding) : List UInt8 → Except EscapeError (List UInt8)
  | [] => .ok []
  | c :: rest =>
    if c = '%'.toUInt8 then
      match rest with
      | h1 :: h2 :: rest' =>
        if ishex h1 ∧ ishex h2 then
          if escapeRefused mode h1 h2 then .error (.escape [c, h1, h2])
          else (unescape mode rest').map (unhexPair h1 h2 :: ·)
        else .error (.escape [c, h1, h2])
      | _ => .error (.escape (c :: rest))
    else if c = '+'.toUInt8 then
      (unescape mode rest).map
        ((if mode = .queryComponent then ' '.toUInt8 else '+'.toUInt8) :: ·)
    else if (mode = .host ∨ mode = .zone) ∧ c < 0x80 ∧ shouldEscape c mode then
      .error (.invalidHost [c])
    else (unescape mode rest).map (c :: ·)

def queryEscape (s : List UInt8) : List UInt8 := escape s .queryComponent

def queryUnescape (s : List UInt8) : Except EscapeError (List UInt8) :=
  unescape .queryComponent s

def pathEscape (s : List UInt8) : List UInt8 := escape s .pathSegment

/-- Whether `s` is a valid encoding under `mode`: only the bytes that may stand unencoded in
it, and `%`. -/
def validEncoded (s : List UInt8) (mode : Encoding) : Bool :=
  s.all fun c => c ∈ ascii "!$&'()*+,;=:@[]%" || !shouldEscape c mode

/-! ## One byte at a time -/

/-- A property of one byte holds of every byte once it holds of the 256 of them. -/
theorem forall_byte {p : UInt8 → Prop} (all : ∀ n < 256, p (UInt8.ofNat n)) (c : UInt8) : p c := by
  have := all c.toNat c.toNat_lt_size
  rwa [show UInt8.ofNat c.toNat = c from UInt8.toNat.inj (by simp [UInt8.toNat, UInt8.ofNat])]
    at this

/-- The two digits `escape` writes for an escaped byte are alphanumeric hex digits, and they
decode back to the byte. -/
theorem unhexPair_upperhex (c : UInt8) :
    ishex (upperhex (c >>> 4)) ∧ ishex (upperhex (c &&& 15)) ∧
      unhexPair (upperhex (c >>> 4)) (upperhex (c &&& 15)) = c ∧
      isAlnum (upperhex (c >>> 4)) ∧ isAlnum (upperhex (c &&& 15)) := by
  set_option maxRecDepth 10000 in
  exact forall_byte (p := fun c => ishex (upperhex (c >>> 4)) ∧ ishex (upperhex (c &&& 15)) ∧
    unhexPair (upperhex (c >>> 4)) (upperhex (c &&& 15)) = c ∧
    isAlnum (upperhex (c >>> 4)) ∧ isAlnum (upperhex (c &&& 15))) (by decide!) c

/-! ## `unescape`, branch by branch -/

section Unescape

variable {mode : Encoding} {rest : List UInt8}

@[simp] theorem unescape_nil : unescape mode [] = .ok [] := rfl

theorem unescape_percent (h1 h2 : UInt8) (hex : ishex h1 ∧ ishex h2)
    (accepted : escapeRefused mode h1 h2 = false) :
    unescape mode ('%'.toUInt8 :: h1 :: h2 :: rest) =
      (unescape mode rest).map (unhexPair h1 h2 :: ·) := by
  rw [unescape.eq_def]
  simp [hex, accepted]

theorem unescape_plus :
    unescape mode ('+'.toUInt8 :: rest) =
      (unescape mode rest).map
        ((if mode = .queryComponent then ' '.toUInt8 else '+'.toUInt8) :: ·) := by
  have : '+'.toUInt8 ≠ '%'.toUInt8 := by decide
  rw [unescape.eq_def]
  simp only [this, if_false, if_true]

/-- A byte other than `%` and `+` decodes to itself, unless it is refused in a host. -/
theorem unescape_plain {c : UInt8} (notPercent : c ≠ '%'.toUInt8) (notPlus : c ≠ '+'.toUInt8)
    (allowed : mode = .host ∨ mode = .zone → c < 0x80 → shouldEscape c mode = false) :
    unescape mode (c :: rest) = (unescape mode rest).map (c :: ·) := by
  have notRefused : ¬((mode = .host ∨ mode = .zone) ∧ c < 0x80 ∧ shouldEscape c mode) :=
    fun ⟨host, ascii, escaped⟩ => by simp [allowed host ascii] at escaped
  rw [unescape.eq_def]
  simp only [notPercent, notPlus, if_false, notRefused]

end Unescape

/-- The encoding modes whose decoding takes back what `escape` wrote. -/
def Encoding.Decodable : Encoding → Prop
  | .host | .zone => False
  | _ => True

/-- `unescape` takes back what `escape` wrote for one byte. -/
theorem unescape_escapeByte {mode : Encoding} (decodable : mode.Decodable) (c : UInt8)
    (rest : List UInt8) :
    unescape mode (escapeByte mode c ++ rest) = (unescape mode rest).map (c :: ·) := by
  have notHost : mode ≠ .host ∧ mode ≠ .zone := by
    cases mode <;> simp_all [Encoding.Decodable]
  obtain ⟨hex1, hex2, pair, -⟩ := unhexPair_upperhex c
  unfold escapeByte
  split
  · case isTrue space =>
    obtain ⟨rfl, rfl⟩ := space
    simp [unescape_plus]
  · split
    · case isTrue escaped =>
      have refused : escapeRefused mode (upperhex (c >>> 4)) (upperhex (c &&& 15)) = false := by
        cases mode <;> simp_all [escapeRefused]
      rw [List.cons_append, List.cons_append, List.cons_append, List.nil_append,
        unescape_percent _ _ ⟨hex1, hex2⟩ refused, pair]
    · case isFalse plain =>
      have notPercent : c ≠ '%'.toUInt8 := by
        rintro rfl
        cases mode <;> exact plain (by decide)
      by_cases isPlus : c = '+'.toUInt8
      · have notQuery : mode ≠ .queryComponent := by
          rintro rfl
          subst isPlus
          exact plain (by decide)
        subst isPlus
        simp [unescape_plus, notQuery]
      · exact unescape_plain notPercent isPlus fun host => absurd host (by simp [notHost])

/-- `unescape` takes back what `escape` wrote. -/
theorem unescape_escape {mode : Encoding} (decodable : mode.Decodable) (s rest : List UInt8) :
    unescape mode (escape s mode ++ rest) = (unescape mode rest).map (s ++ ·) := by
  induction s with
  | nil => cases h : unescape mode rest <;> simp [escape, h, Except.map]
  | cons c s ih =>
    rw [escape, List.flatMap_cons, List.append_assoc, unescape_escapeByte decodable, ← escape, ih]
    cases unescape mode rest <;> rfl

/-! ## Decoding from the left -/

theorem map_cons_ne_nil {x : Except EscapeError (List UInt8)} {b : UInt8} :
    x.map (b :: ·) ≠ .ok [] := by
  cases x <;> simp [Except.map]

/-- Only the empty string decodes to the empty string: every token decodes to a byte. -/
theorem eq_nil_of_unescape {mode : Encoding} {s : List UInt8} (ok : unescape mode s = .ok []) :
    s = [] := by
  cases s with
  | nil => rfl
  | cons c rest =>
    rw [unescape.eq_def] at ok
    simp only at ok
    repeat' split at ok
    all_goals first | cases ok | exact absurd ok map_cons_ne_nil

section Tokens

variable {mode : Encoding} (pre : List UInt8) (b : UInt8)
  (token : ∀ x, unescape mode (pre ++ x) = (unescape mode x).map (b :: ·))
include token

/-- After a token that decodes to `b`, the rest decodes on its own. -/
theorem ok_of_token {x decoded : List UInt8} (ok : unescape mode (pre ++ x) = .ok decoded) :
    ∃ d, unescape mode x = .ok d ∧ decoded = b :: d := by
  rw [token] at ok
  cases restOk : unescape mode x with
  | error e => simp [restOk, Except.map] at ok
  | ok d => exact ⟨d, rfl, by simpa [restOk, Except.map] using ok.symm⟩

theorem unescape_append_token {rest t decoded : List UInt8}
    (ih : ∀ {d}, unescape mode rest = .ok d →
      unescape mode (rest ++ t) = (unescape mode t).map (d ++ ·))
    (ok : unescape mode (pre ++ rest) = .ok decoded) :
    unescape mode (pre ++ rest ++ t) = (unescape mode t).map (decoded ++ ·) := by
  obtain ⟨d, restOk, rfl⟩ := ok_of_token pre b token ok
  rw [List.append_assoc, token, ih restOk]
  cases unescape mode t <;> rfl

theorem unescape_split_token {sep : UInt8} {rest after decoded : List UInt8}
    (ih : ∀ {d}, unescape mode (rest ++ sep :: after) = .ok d →
      ∃ d1 d2, unescape mode rest = .ok d1 ∧ unescape mode after = .ok d2 ∧ d = d1 ++ sep :: d2)
    (ok : unescape mode (pre ++ rest ++ sep :: after) = .ok decoded) :
    ∃ d1 d2, unescape mode (pre ++ rest) = .ok d1 ∧ unescape mode after = .ok d2 ∧
      decoded = d1 ++ sep :: d2 := by
  rw [List.append_assoc] at ok
  obtain ⟨d, restOk, rfl⟩ := ok_of_token pre b token ok
  obtain ⟨d1, d2, first, second, rfl⟩ := ih restOk
  exact ⟨b :: d1, d2, by rw [token, first]; rfl, second, rfl⟩

theorem slash_end_token {rest decoded : List UInt8}
    (single : rest = [] → b = '/'.toUInt8 → ∃ dir, pre = dir ++ ['/'.toUInt8])
    (ih : ∀ {d}, unescape mode rest = .ok d → d.getLast? = some '/'.toUInt8 →
      ∃ dir, rest = dir ++ ['/'.toUInt8])
    (ok : unescape mode (pre ++ rest) = .ok decoded) (slashEnd : decoded.getLast? = some '/'.toUInt8) :
    ∃ dir, pre ++ rest = dir ++ ['/'.toUInt8] := by
  obtain ⟨d, restOk, rfl⟩ := ok_of_token pre b token ok
  rw [List.getLast?_cons] at slashEnd
  cases last : d.getLast? with
  | none =>
    obtain rfl := eq_nil_of_unescape (List.getLast?_eq_none_iff.mp last ▸ restOk)
    obtain ⟨dir, rfl⟩ := single rfl (by simpa [last] using slashEnd)
    exact ⟨dir, List.append_nil _⟩
  | some x =>
    obtain ⟨dir, rfl⟩ := ih restOk (by simpa [last] using slashEnd)
    exact ⟨pre ++ dir, (List.append_assoc _ _ _).symm⟩

end Tokens

/-- A string that decodes on its own decodes the same way whatever follows it. -/
theorem unescape_append {mode : Encoding} {s decoded : List UInt8}
    (ok : unescape mode s = .ok decoded) (t : List UInt8) :
    unescape mode (s ++ t) = (unescape mode t).map (decoded ++ ·) := by
  induction s using unescape.induct mode generalizing decoded with
  | case1 =>
    cases ok
    cases h : unescape mode t <;> simp [h, Except.map]
  | case3 h1 h2 rest hex accepted ih =>
    exact unescape_append_token ['%'.toUInt8, h1, h2] _
      (fun _ => unescape_percent h1 h2 hex (by simpa using accepted)) ih ok
  | case6 rest _ ih => exact unescape_append_token ['+'.toUInt8] _ (fun _ => unescape_plus) ih ok
  | case8 c rest notPercent notPlus allowed ih =>
    exact unescape_append_token [c] c (fun _ => unescape_plain notPercent notPlus
      fun host ascii => Bool.eq_false_iff.mpr fun escaped => allowed ⟨host, ascii, escaped⟩) ih ok
  | case4 h1 h2 rest notHex =>
    rw [unescape.eq_def] at ok
    simp [if_neg notHex] at ok
  | case2 | case5 | case7 =>
    rw [unescape.eq_def] at ok
    simp_all

/-- A byte that is no hex digit and decodes to itself splits a decoding in two: each side of
it decodes on its own. -/
theorem unescape_split {mode : Encoding} {sep : UInt8} (notHex : ishex sep = false)
    (sepToken : ∀ x, unescape mode (sep :: x) = (unescape mode x).map (sep :: ·))
    {before after decoded : List UInt8} (ok : unescape mode (before ++ sep :: after) = .ok decoded) :
    ∃ d1 d2, unescape mode before = .ok d1 ∧ unescape mode after = .ok d2 ∧
      decoded = d1 ++ sep :: d2 := by
  induction before using unescape.induct mode generalizing decoded with
  | case1 =>
    obtain ⟨d, afterOk, rfl⟩ := ok_of_token [sep] sep sepToken ok
    exact ⟨[], d, rfl, afterOk, rfl⟩
  | case3 h1 h2 rest hex accepted ih =>
    exact unescape_split_token ['%'.toUInt8, h1, h2] _
      (fun _ => unescape_percent h1 h2 hex (by simpa using accepted)) ih ok
  | case6 rest _ ih => exact unescape_split_token ['+'.toUInt8] _ (fun _ => unescape_plus) ih ok
  | case8 c rest notPercent notPlus allowed ih =>
    exact unescape_split_token [c] c (fun _ => unescape_plain notPercent notPlus
      fun host ascii => Bool.eq_false_iff.mpr fun escaped => allowed ⟨host, ascii, escaped⟩) ih ok
  | case4 h1 h2 rest notHex =>
    rw [List.cons_append, List.cons_append, List.cons_append, unescape.eq_def] at ok
    simp [if_neg notHex] at ok
  | case5 rest short =>
    rcases rest with _ | ⟨h1, _ | ⟨h2, rest⟩⟩
    · rcases after with _ | ⟨h2, after⟩ <;> rw [unescape.eq_def] at ok <;> simp_all
    · rw [unescape.eq_def] at ok
      simp_all
    · exact absurd rfl (short h1 h2 rest)
  | case2 | case7 =>
    rw [unescape.eq_def] at ok
    simp_all

/-- A decoding that ends in `/` comes from a string that ends in `/`, unless the string ends
with a percent-encoded `/`. -/
theorem slash_end_of_unescape {mode : Encoding} {raw decoded : List UInt8}
    (ok : unescape mode raw = .ok decoded) (slashEnd : decoded.getLast? = some '/'.toUInt8)
    (noEscapedSlash : ∀ before h1 h2, raw = before ++ ['%'.toUInt8, h1, h2] →
      unhexPair h1 h2 ≠ '/'.toUInt8) :
    ∃ dir, raw = dir ++ ['/'.toUInt8] := by
  induction raw using unescape.induct mode generalizing decoded with
  | case1 =>
    cases ok
    cases slashEnd
  | case3 h1 h2 rest hex accepted ih =>
    exact slash_end_token ['%'.toUInt8, h1, h2] _
      (fun _ => unescape_percent h1 h2 hex (by simpa using accepted))
      (fun empty slash => absurd slash (noEscapedSlash [] h1 h2 (by rw [empty]; rfl)))
      (fun restOk last => ih restOk last fun before h1' h2' eq =>
        noEscapedSlash ('%'.toUInt8 :: h1 :: h2 :: before) h1' h2' (by rw [eq]; rfl)) ok slashEnd
  | case6 rest _ ih =>
    exact slash_end_token ['+'.toUInt8] _ (fun _ => unescape_plus)
      (fun _ slash => absurd slash (by split <;> decide))
      (fun restOk last => ih restOk last fun before h1 h2 eq =>
        noEscapedSlash ('+'.toUInt8 :: before) h1 h2 (by rw [eq]; rfl)) ok slashEnd
  | case8 c rest notPercent notPlus allowed ih =>
    exact slash_end_token [c] c (fun _ => unescape_plain notPercent notPlus
      fun host ascii => Bool.eq_false_iff.mpr fun escaped => allowed ⟨host, ascii, escaped⟩)
      (fun _ slash => ⟨[], by rw [slash]; rfl⟩)
      (fun restOk last => ih restOk last fun before h1 h2 eq =>
        noEscapedSlash (c :: before) h1 h2 (by rw [eq]; rfl)) ok slashEnd
  | case4 h1 h2 rest notHex =>
    rw [unescape.eq_def] at ok
    simp [if_neg notHex] at ok
  | case2 | case5 | case7 =>
    rw [unescape.eq_def] at ok
    simp_all

/-- A string with no `%`, no `+` in a query, and in a host only bytes a host may hold, decodes
to itself. -/
theorem unescape_of_plain {mode : Encoding} {s : List UInt8}
    (plain : ∀ c ∈ s, c ≠ '%'.toUInt8 ∧ (c = '+'.toUInt8 → mode ≠ .queryComponent) ∧
      (mode = .host ∨ mode = .zone → c < 0x80 → shouldEscape c mode = false)) :
    unescape mode s = .ok s := by
  induction s with
  | nil => rfl
  | cons c s ih =>
    obtain ⟨notPercent, plusKept, allowed⟩ := plain c (List.mem_cons_self c s)
    have first : unescape mode (c :: s) = (unescape mode s).map (c :: ·) := by
      by_cases plus : c = '+'.toUInt8
      · subst plus
        rw [unescape_plus, if_neg (plusKept rfl)]
      · exact unescape_plain notPercent plus allowed
    rw [first, ih fun b mem => plain b (List.mem_cons_of_mem c mem)]
    rfl

/-! ## What `escape` writes -/

theorem shouldEscape_of_isAlnum {c : UInt8} (alnum : isAlnum c) (mode : Encoding) :
    shouldEscape c mode = false := by
  simp [shouldEscape, alnum]

/-- `escape` writes only bytes that need no escaping, `%`, and `+` for a space in a query. -/
theorem mem_escape {b : UInt8} {s : List UInt8} {mode : Encoding} (mem : b ∈ escape s mode) :
    shouldEscape b mode = false ∨ b = '%'.toUInt8 ∨
      (b = '+'.toUInt8 ∧ mode = .queryComponent) := by
  obtain ⟨c, -, written⟩ := List.mem_flatMap.mp mem
  obtain ⟨-, -, -, alnum1, alnum2⟩ := unhexPair_upperhex c
  unfold escapeByte at written
  split at written
  · case isTrue space => exact .inr (.inr ⟨List.mem_singleton.mp written, space.2⟩)
  · split at written
    · simp only [List.mem_cons, List.mem_singleton, List.not_mem_nil, or_false] at written
      rcases written with rfl | rfl | rfl
      · exact .inr (.inl rfl)
      · exact .inl (shouldEscape_of_isAlnum alnum1 mode)
      · exact .inl (shouldEscape_of_isAlnum alnum2 mode)
    · case isFalse plain =>
      rw [List.mem_singleton.mp written]
      exact .inl (by simpa using plain)

/-- A byte that must be escaped, other than `%` and the `+` of a query, is never written by
`escape`. -/
theorem not_mem_escape {b : UInt8} {mode : Encoding} (escaped : shouldEscape b mode = true)
    (notPercent : b ≠ '%'.toUInt8) (notPlus : b = '+'.toUInt8 → mode ≠ .queryComponent)
    (s : List UInt8) : b ∉ escape s mode := fun mem => by
  rcases mem_escape mem with plain | percent | ⟨plus, query⟩
  · simp [escaped] at plain
  · exact notPercent percent
  · exact notPlus plus query

theorem escape_append (s t : List UInt8) (mode : Encoding) :
    escape (s ++ t) mode = escape s mode ++ escape t mode :=
  List.flatMap_append ..

/-- Every byte is written as at least one byte, so only the empty string escapes to nothing. -/
theorem escape_ne_nil {s : List UInt8} (mode : Encoding) (nonempty : s ≠ []) :
    escape s mode ≠ [] := by
  obtain ⟨b, rest, rfl⟩ := List.exists_cons_of_ne_nil nonempty
  rw [escape, List.flatMap_cons]
  refine List.append_ne_nil_of_left_ne_nil ?_ _
  unfold escapeByte
  split_ifs <;> simp

/-- A byte that is neither escaped nor a space of a query is written as it is. -/
theorem escapeByte_of_plain {mode : Encoding} {c : UInt8} (notEscaped : shouldEscape c mode = false)
    (notSpace : ¬(c = ' '.toUInt8 ∧ mode = .queryComponent)) : escapeByte mode c = [c] := by
  simp [escapeByte, notEscaped, notSpace]

/-- `escape` changes nothing in a string each of whose bytes it writes as it is. -/
theorem escape_of_plain {mode : Encoding} {s : List UInt8} (plain : ∀ c ∈ s, escapeByte mode c = [c]) :
    escape s mode = s := by
  induction s with
  | nil => rfl
  | cons c s ih =>
    rw [escape, List.flatMap_cons, ← escape, plain c (List.mem_cons_self c s),
      ih fun b mem => plain b (List.mem_cons_of_mem c mem)]
    rfl

/-- A string that `escape` writes with no `%` and no `+` is the string it was given. -/
theorem eq_of_escape_eq {mode : Encoding} {s t : List UInt8} (escaped : escape s mode = t)
    (noPercent : '%'.toUInt8 ∉ t) (noPlus : '+'.toUInt8 ∉ t) : s = t := by
  induction s generalizing t with
  | nil => exact escaped
  | cons c s ih =>
    rw [escape, List.flatMap_cons, ← escape] at escaped
    subst escaped
    have plain : escapeByte mode c = [c] := by
      unfold escapeByte at noPercent noPlus ⊢
      split_ifs at noPercent noPlus ⊢ <;> simp_all
    rw [plain, List.singleton_append, List.mem_cons, not_or] at noPercent noPlus
    rw [plain, List.singleton_append]
    exact congrArg (c :: ·) (ih rfl noPercent.2 noPlus.2)

/-- The only bytes `escape` writes that it was not given are `%`, hex digits, and the `+` of
a space in a query. -/
theorem mem_of_mem_escape {mode : Encoding} {b : UInt8} {s : List UInt8} (mem : b ∈ escape s mode)
    (notPercent : b ≠ '%'.toUInt8) (notPlus : b ≠ '+'.toUInt8) (notAlnum : isAlnum b = false) :
    b ∈ s := by
  obtain ⟨c, given, written⟩ := List.mem_flatMap.mp mem
  obtain ⟨-, -, -, alnum1, alnum2⟩ := unhexPair_upperhex c
  unfold escapeByte at written
  split at written
  · exact absurd (List.mem_singleton.mp written) notPlus
  · split at written
    · simp only [List.mem_cons, List.mem_singleton, List.not_mem_nil, or_false] at written
      rcases written with rfl | rfl | rfl <;> simp_all
    · rwa [List.mem_singleton.mp written]

/-- What `escape` writes is a valid encoding under the same mode. -/
theorem validEncoded_escape (s : List UInt8) (mode : Encoding) : validEncoded (escape s mode) mode := by
  refine List.all_eq_true.mpr fun b mem => ?_
  rcases mem_escape mem with plain | rfl | ⟨rfl, -⟩
  all_goals simp only [Bool.or_eq_true, decide_eq_true_eq]
  · exact .inr (by simp [plain])
  · exact .inl (by decide)
  · exact .inl (by decide)

/-- `url.PathEscape` leaves `+` as it is, and a query reads `+` as a space; with no `+`, what
`PathEscape` writes is read back by `QueryUnescape`. -/
theorem queryUnescape_pathEscape {s : List UInt8} (noPlus : '+'.toUInt8 ∉ s) :
    queryUnescape (pathEscape s) = .ok s := by
  induction s with
  | nil => rfl
  | cons c s ih =>
    simp only [List.mem_cons, not_or] at noPlus
    have byte : ∀ rest, unescape .queryComponent (escapeByte .pathSegment c ++ rest) =
        (unescape .queryComponent rest).map (c :: ·) := fun rest => by
      obtain ⟨hex1, hex2, pair, -⟩ := unhexPair_upperhex c
      unfold escapeByte
      rw [if_neg (by simp)]
      split
      · rw [List.cons_append, List.cons_append, List.cons_append, List.nil_append,
          @unescape_percent .queryComponent rest _ _ ⟨hex1, hex2⟩ rfl, pair]
      · case isFalse plain =>
        have notPercent : c ≠ '%'.toUInt8 := by
          rintro rfl
          exact plain (by decide)
        exact unescape_plain notPercent (Ne.symm noPlus.1) (by simp)
    rw [queryUnescape, pathEscape, escape, List.flatMap_cons, ← escape, byte, ← pathEscape,
      ← queryUnescape, ih noPlus.2]
    rfl

end DpApiClients.Url
