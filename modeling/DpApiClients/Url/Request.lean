import DpApiClients.Url.Reference
import DpApiClients.Url.Values

/-!
# The URL of a request

`http.NewRequest` parses the URL it is given with `url.Parse` and strips an empty port from
the host (`removeEmptyPort`): `newRequestURL` is the URL of the request it makes. The clients of
this repository write the URLs they request as `scheme://host/path?query`, and
`newRequestURL_hostPath` says what a request to a string of that shape goes to: the scheme and
host as they are written, the path decoded, and the query as it is written. `URL.string_hostPath`
is the other direction, `(*URL).String` of a URL of that shape.

The host is a `HostPort`: a name of letters, digits, `-` and `.`, with an optional port. What
the code does to one byte of a host or of a scheme is again a finite table, checked for the 256
bytes.
-/

namespace DpApiClients.Url

/-! ## `http.NewRequest` -/

/-- `strings.LastIndex(s, c)`, `-1` when `c` is absent. -/
def lastIndex (s : List UInt8) (c : UInt8) : Int :=
  match Strings.cutLast s c with
  | some (before, _) => before.length
  | none => -1

/-- `hasPort(s)` of `net/http`: whether a colon stands after the last `]`. -/
def hasPort (s : List UInt8) : Bool :=
  lastIndex s ':'.toUInt8 > lastIndex s ']'.toUInt8

/-- `removeEmptyPort(host)`: `strings.TrimSuffix(host, ":")` when the host has a port. -/
def removeEmptyPort (host : List UInt8) : List UInt8 :=
  if hasPort host then
    if Strings.hasSuffix host ':'.toUInt8 then host.dropLast else host
  else host

/-- The URL of the request `http.NewRequest(method, url, body)` makes. -/
def newRequestURL (url : List UInt8) : Except Error URL :=
  (parse url).map fun u => { u with host := removeEmptyPort u.host }

/-! ## Hosts and schemes -/

def isLower (c : UInt8) : Bool :=
  'a'.toUInt8 ≤ c && c ≤ 'z'.toUInt8

/-- A byte of a host name: a letter, a digit, `-` or `.`. -/
def isNameByte (c : UInt8) : Bool :=
  isAlnum c || c = '-'.toUInt8 || c = '.'.toUInt8

/-- A host written as a name with an optional port; `port = []` is no port. -/
structure HostPort where
  name : List UInt8
  port : List UInt8
  nameNonempty : name ≠ []
  nameBytes : ∀ c ∈ name, isNameByte c
  portDigits : ∀ c ∈ port, isDigit c

namespace HostPort

/-- The host as it is written: `name` or `name:port`. -/
def bytes (h : HostPort) : List UInt8 :=
  if h.port = [] then h.name else h.name ++ ':'.toUInt8 :: h.port

theorem mem_bytes {h : HostPort} {c : UInt8} (mem : c ∈ h.bytes) :
    isNameByte c ∨ c = ':'.toUInt8 := by
  unfold bytes at mem
  split at mem
  · exact .inl (h.nameBytes c mem)
  · simp only [List.mem_append, List.mem_cons] at mem
    rcases mem with name | colon | port
    · exact .inl (h.nameBytes c name)
    · exact .inr colon
    · have digit := h.portDigits c port
      simp only [isDigit, Bool.and_eq_true, decide_eq_true_eq] at digit
      exact .inl (by simp [isNameByte, isAlnum, digit])

theorem bytes_ne_nil (h : HostPort) : h.bytes ≠ [] := by
  unfold bytes
  split
  · exact h.nameNonempty
  · simp

end HostPort

/-- The bytes of a host need no escaping in a host, and none of them is a delimiter of a URL
or a control byte. -/
theorem hostByte {c : UInt8} (host : isNameByte c ∨ c = ':'.toUInt8) :
    shouldEscape c .host = false ∧ isCTL c = false ∧ c ∉ ascii "/@[%+?#" := by
  set_option maxRecDepth 10000 in
  exact forall_byte (p := fun c => isNameByte c ∨ c = ':'.toUInt8 →
    shouldEscape c .host = false ∧ isCTL c = false ∧ c ∉ ascii "/@[%+?#") (by decide!) c host

/-- A lower-case letter is a letter that `strings.ToLower` keeps. -/
theorem lowerByte {c : UInt8} (lower : isLower c) :
    isLetter c ∧ ¬(65 ≤ c ∧ c ≤ 90) ∧ isCTL c = false ∧ c ≠ '#'.toUInt8 := by
  set_option maxRecDepth 10000 in
  exact forall_byte (p := fun c => isLower c →
    isLetter c ∧ ¬(65 ≤ c ∧ c ≤ 90) ∧ isCTL c = false ∧ c ≠ '#'.toUInt8) (by decide!) c lower

namespace HostPort

variable (host : HostPort)

theorem not_mem_bytes {b : UInt8} (delimiter : b ∈ ascii "/@[%+?#") : b ∉ host.bytes :=
  fun mem => (hostByte (host.mem_bytes mem)).2.2 delimiter

theorem colon_not_mem_name : ':'.toUInt8 ∉ host.name := fun mem =>
  absurd (host.nameBytes _ mem) (by decide)

theorem colon_not_mem_port : ':'.toUInt8 ∉ host.port := fun mem =>
  absurd (host.portDigits _ mem) (by decide)

theorem escape_bytes : escape host.bytes .host = host.bytes :=
  escape_of_plain fun _ mem =>
    escapeByte_of_plain (hostByte (host.mem_bytes mem)).1 fun ⟨_, host⟩ => by cases host

theorem unescape_bytes : unescape .host host.bytes = .ok host.bytes :=
  unescape_of_plain fun _ mem =>
    ⟨fun percent => host.not_mem_bytes (by decide) (percent ▸ mem),
      fun plus => absurd (plus ▸ mem) (host.not_mem_bytes (by decide)),
      fun _ _ => (hostByte (host.mem_bytes mem)).1⟩

end HostPort

/-! ## Parsing `scheme://host/path?query` -/

/-- `getScheme`'s loop reads a scheme of letters up to its colon. -/
theorem getSchemeLoop_letters (rawURL read : List UInt8) {scheme : List UInt8}
    (letters : ∀ c ∈ scheme, isLetter c) (nonempty : read ++ scheme ≠ []) (rest : List UInt8) :
    getSchemeLoop rawURL read (scheme ++ ':'.toUInt8 :: rest) = .ok (read ++ scheme, rest) := by
  induction scheme generalizing read with
  | nil =>
    rw [List.append_nil] at nonempty ⊢
    have colon : isLetter ':'.toUInt8 = false ∧ ¬(isDigit ':'.toUInt8 ∨ ':'.toUInt8 ∈ ascii "+-.") := by
      decide
    simp [getSchemeLoop, colon, nonempty]
  | cons c scheme ih =>
    rw [List.cons_append, getSchemeLoop, if_pos (letters c (List.mem_cons_self c scheme)),
      ih _ (fun b mem => letters b (List.mem_cons_of_mem c mem)) (by simp)]
    simp

/-- With no `?` before the query, the query is cut off as it is and `ForceQuery` is unset. -/
theorem splitQuery_append {before : List UInt8} (noMark : '?'.toUInt8 ∉ before) (query : List UInt8) :
    splitQuery (before ++ if query = [] then [] else '?'.toUInt8 :: query) = (before, false, query) := by
  have beforeCount : before.count '?'.toUInt8 = 0 := List.count_eq_zero.mpr noMark
  by_cases empty : query = []
  · subst empty
    simp [splitQuery, beforeCount, Strings.cut_of_not_mem noMark]
  · have notForced : ¬(Strings.hasSuffix (before ++ '?'.toUInt8 :: query) '?'.toUInt8 ∧
        (before ++ '?'.toUInt8 :: query).count '?'.toUInt8 = 1) := by
      rintro ⟨suffix, once⟩
      rw [List.count_append, beforeCount, List.count_cons_self] at once
      rw [← List.singleton_append, ← List.append_assoc, Strings.hasSuffix_append _ empty] at suffix
      exact absurd (List.count_pos_iff.mpr (Strings.mem_of_hasSuffix suffix)) (by omega)
    simp only [splitQuery, if_neg empty, if_neg notForced, Strings.cut_append_cons noMark]

theorem span_authority (host : HostPort) {path : List UInt8}
    (rooted : path = [] ∨ path.head? = some '/'.toUInt8) :
    (host.bytes ++ path).span (· ≠ '/'.toUInt8) = (host.bytes, path) := by
  have notSlash : ∀ c ∈ host.bytes, decide (c ≠ '/'.toUInt8) = true := fun c mem =>
    decide_eq_true fun slash => host.not_mem_bytes (by decide) (slash ▸ mem)
  rw [List.span_eq_take_drop, List.takeWhile_append_of_pos notSlash,
    List.dropWhile_append_of_pos notSlash]
  rcases rooted with rfl | head
  · simp
  · obtain _ | ⟨c, rest⟩ := path
    · cases head
    · obtain rfl : c = '/'.toUInt8 := Option.some.inj head
      simp

theorem parseHost_hostPort (host : HostPort) : parseHost host.bytes = .ok host.bytes := by
  have decodes : unescapeIn .host host.bytes = .ok host.bytes := by
    simp only [unescapeIn, host.unescape_bytes]
    rfl
  have notBracket : host.bytes.head? ≠ some '['.toUInt8 := fun head =>
    host.not_mem_bytes (by decide) (List.mem_of_mem_head? head)
  rw [parseHost, if_neg notBracket]
  by_cases noPort : host.port = []
  · have bytes : host.bytes = host.name := if_pos noPort
    rw [bytes, Strings.cutLast_of_not_mem host.colon_not_mem_name, ← bytes, decodes]
  · have bytes : host.bytes = host.name ++ ':'.toUInt8 :: host.port := if_neg noPort
    have valid : validOptionalPort (':'.toUInt8 :: host.port) := by
      simpa [validOptionalPort] using host.portDigits
    rw [bytes, Strings.cutLast_append_cons host.colon_not_mem_port]
    simp only [valid, Bool.not_true, ← bytes, decodes]
    rfl

theorem parseAuthority_hostPort (host : HostPort) :
    parseAuthority host.bytes = .ok (none, host.bytes) := by
  rw [parseAuthority, Strings.cutLast_of_not_mem (host.not_mem_bytes (by decide)),
    parseHost_hostPort]
  rfl

/-- After the scheme, `//`, a host and a rooted path give the host and the decoded path. -/
theorem parseAfterScheme_authority (url : URL) (host : HostPort) {path decoded : List UInt8}
    (scheme : url.scheme ≠ []) (rooted : path = [] ∨ path.head? = some '/'.toUInt8)
    (decodes : unescape .path path = .ok decoded) :
    parseAfterScheme url (ascii "//" ++ host.bytes ++ path) false =
      .ok { url with
        user := none, host := host.bytes, path := decoded,
        rawPath := if escape decoded .path = path then [] else path } := by
  have slashes : (ascii "//").isPrefixOf (ascii "//" ++ host.bytes ++ path) := by
    simp [ascii, List.isPrefixOf]
  rw [parseAfterScheme, if_pos ⟨.inl scheme, slashes⟩]
  have dropped : (ascii "//" ++ host.bytes ++ path).drop 2 = host.bytes ++ path := by
    simp [ascii]
  simp only [dropped, span_authority host rooted, parseAuthority_hostPort]
  exact URL.setPath_of_unescape _ decodes

/-- `http.NewRequest` keeps a host with no empty port as it is. -/
theorem removeEmptyPort_hostPort (host : HostPort) : removeEmptyPort host.bytes = host.bytes := by
  have noColonEnd : Strings.hasSuffix host.bytes ':'.toUInt8 = false := by
    refine Bool.eq_false_iff.mpr fun suffix => ?_
    unfold HostPort.bytes at suffix
    split at suffix
    · exact host.colon_not_mem_name (Strings.mem_of_hasSuffix suffix)
    · case isFalse port =>
      rw [← List.singleton_append, ← List.append_assoc, Strings.hasSuffix_append _ port] at suffix
      exact host.colon_not_mem_port (Strings.mem_of_hasSuffix suffix)
  simp [removeEmptyPort, noColonEnd]

section HostPath

variable {scheme : List UInt8} (host : HostPort) {path decoded query : List UInt8}
  (schemeLower : scheme ≠ [] ∧ ∀ c ∈ scheme, isLower c)
  (rooted : path = [] ∨ path.head? = some '/'.toUInt8)
  (pathBytes : ∀ c ∈ path, isCTL c = false ∧ c ≠ '?'.toUInt8 ∧ c ≠ '#'.toUInt8)
  (decodes : unescape .path path = .ok decoded)
  (queryBytes : ∀ c ∈ query, isCTL c = false ∧ c ≠ '#'.toUInt8)
include schemeLower rooted pathBytes decodes queryBytes

omit rooted decodes in
/-- No byte of `scheme://host/path?query` is a control byte or a `#`. -/
theorem hostPath_bytes :
    ∀ c ∈ scheme ++ ascii "://" ++ host.bytes ++ path ++
        (if query = [] then [] else '?'.toUInt8 :: query), isCTL c = false ∧ c ≠ '#'.toUInt8 := by
  intro c mem
  simp only [List.mem_append] at mem
  rcases mem with (((inScheme | inSep) | inHost) | inPath) | inTail
  · exact (lowerByte (schemeLower.2 c inScheme)).2.2
  · revert c; decide
  · have := (hostByte (host.mem_bytes inHost)).2
    exact ⟨this.1, fun hash => this.2 (hash ▸ by decide)⟩
  · exact ⟨(pathBytes c inPath).1, (pathBytes c inPath).2.2⟩
  · split at inTail
    · cases inTail
    · rcases List.mem_cons.mp inTail with rfl | inQuery
      · decide
      · exact queryBytes c inQuery

/-- Go's unexported `parse` of `scheme://host/path?query` with no fragment. -/
theorem parseReference_hostPath :
    parseReference (scheme ++ ascii "://" ++ host.bytes ++ path ++
        if query = [] then [] else '?'.toUInt8 :: query) false =
      .ok { scheme := scheme, host := host.bytes, path := decoded,
            rawPath := if escape decoded .path = path then [] else path, rawQuery := query } := by
  obtain ⟨nonempty, lower⟩ := schemeLower
  set tail := if query = [] then [] else '?'.toUInt8 :: query with tailDef
  have rawBytes := hostPath_bytes host ⟨nonempty, lower⟩ pathBytes queryBytes
  have shape : scheme ++ ascii "://" ++ host.bytes ++ path ++ tail =
      scheme ++ ':'.toUInt8 :: (ascii "//" ++ host.bytes ++ path ++ tail) := by
    simp only [List.append_assoc]
    rfl
  have noCTL : (scheme ++ ascii "://" ++ host.bytes ++ path ++ tail).any isCTL = false :=
    List.any_eq_false.mpr fun c mem => by simp [(rawBytes c mem).1]
  have notStar : ¬(scheme ++ ascii "://" ++ host.bytes ++ path ++ tail) = ascii "*" := fun star => by
    rw [shape] at star
    have colon : ':'.toUInt8 ∈ ascii "*" := star ▸ List.mem_append_right _ (List.mem_cons_self _ _)
    exact absurd colon (by decide)
  have noMark : '?'.toUInt8 ∉ ascii "//" ++ host.bytes ++ path := by
    simp only [List.mem_append, not_or]
    exact ⟨⟨by decide, host.not_mem_bytes (by decide)⟩, fun mem => (pathBytes _ mem).2.1 rfl⟩
  have lowered : Strings.toLower scheme = scheme :=
    Strings.toLower_of_not_upper fun c mem => (lowerByte (lower c mem)).2.1
  rw [parseReference, if_neg (by simp only [noCTL, Bool.false_eq_true, not_false_eq_true]),
    if_neg (by simp), if_neg notStar, getScheme, shape,
    getSchemeLoop_letters _ [] (fun c mem => (lowerByte (lower c mem)).1) (by simpa using nonempty)]
  simp only [List.nil_append, lowered, tailDef, splitQuery_append noMark]
  rw [if_neg (by simp [ascii])]
  exact parseAfterScheme_authority _ host nonempty rooted decodes

/-- `url.Parse` of `scheme://host/path?query`: the scheme and host as written, the path
decoded, and the query as it is written. -/
theorem parse_hostPath :
    parse (scheme ++ ascii "://" ++ host.bytes ++ path ++
        if query = [] then [] else '?'.toUInt8 :: query) =
      .ok { scheme := scheme, host := host.bytes, path := decoded,
            rawPath := if escape decoded .path = path then [] else path, rawQuery := query } := by
  have noFragment := fun hash => (hostPath_bytes host schemeLower pathBytes queryBytes _ hash).2 rfl
  rw [parse, Strings.cut_of_not_mem noFragment]
  simp only [parseReference_hostPath host schemeLower rooted pathBytes decodes queryBytes]
  rfl

/-- The request `http.NewRequest` makes to `scheme://host/path?query` goes to the scheme and
host as written, the decoded path, and the query as it is written. -/
theorem newRequestURL_hostPath :
    newRequestURL (scheme ++ ascii "://" ++ host.bytes ++ path ++
        if query = [] then [] else '?'.toUInt8 :: query) =
      .ok { scheme := scheme, host := host.bytes, path := decoded,
            rawPath := if escape decoded .path = path then [] else path, rawQuery := query } := by
  rw [newRequestURL, parse_hostPath host schemeLower rooted pathBytes decodes queryBytes]
  simp only [Except.map, removeEmptyPort_hostPort]

/-- With a fragment after it, the request goes to the same URL: the fragment, when it decodes,
stays on the client's side. -/
theorem newRequestURL_hostPath_fragment {frag decodedFrag : List UInt8}
    (fragDecodes : unescape .fragment frag = .ok decodedFrag) :
    ∃ url, newRequestURL (scheme ++ ascii "://" ++ host.bytes ++ path ++
        (if query = [] then [] else '?'.toUInt8 :: query) ++ '#'.toUInt8 :: frag) = .ok url ∧
      url.scheme = scheme ∧ url.host = host.bytes ∧ url.path = decoded ∧ url.rawQuery = query := by
  have noHash : '#'.toUInt8 ∉ scheme ++ ascii "://" ++ host.bytes ++ path ++
      if query = [] then [] else '?'.toUInt8 :: query :=
    fun hash => (hostPath_bytes host schemeLower pathBytes queryBytes _ hash).2 rfl
  rw [newRequestURL, parse, Strings.cut_append_cons noHash]
  simp only [parseReference_hostPath host schemeLower rooted pathBytes decodes queryBytes]
  by_cases empty : frag = []
  · exact ⟨_, by simp only [if_pos empty]; rfl, rfl, removeEmptyPort_hostPort host, rfl, rfl⟩
  · simp only [if_neg empty, URL.setFragment, unescapeIn, fragDecodes]
    exact ⟨_, rfl, rfl, removeEmptyPort_hostPort host, rfl, rfl⟩

end HostPath

/-! ## Writing `scheme://host/path?query` -/

/-- `(*URL).String` of a URL with a scheme, a host and a rooted path. -/
theorem URL.string_hostPath {scheme : List UInt8} (host : HostPort)
    {path rawPath escaped query : List UInt8} (nonempty : scheme ≠ [])
    (escapedEq : URL.escapedPath
      { scheme := scheme, host := host.bytes, path := path, rawPath := rawPath, rawQuery := query } =
        escaped)
    (rooted : escaped.head? = some '/'.toUInt8) :
    URL.string
      { scheme := scheme, host := host.bytes, path := path, rawPath := rawPath, rawQuery := query } =
      scheme ++ ascii "://" ++ host.bytes ++ escaped ++
        if query = [] then [] else '?'.toUInt8 :: query := by
  simp [URL.string, URL.authorityPart, escapedEq, nonempty, host.bytes_ne_nil, host.escape_bytes,
    rooted, ascii]

/-! ## Bytes a request URL may hold -/

/-- No byte of a valid path encoding is a control byte, a `?` or a `#`. -/
theorem validEncoded_path_bytes {p : List UInt8} (valid : validEncoded p .path) :
    ∀ c ∈ p, isCTL c = false ∧ c ≠ '?'.toUInt8 ∧ c ≠ '#'.toUInt8 := fun c mem => by
  have allowed := List.all_eq_true.mp valid c mem
  have refused : (isCTL c || c == '?'.toUInt8 || c == '#'.toUInt8) →
      (decide (c ∈ ascii "!$&'()*+,;=:@[]%") || !shouldEscape c .path) = false := by
    set_option maxRecDepth 10000 in
    exact forall_byte (p := fun c => (isCTL c || c == '?'.toUInt8 || c == '#'.toUInt8) →
      (decide (c ∈ ascii "!$&'()*+,;=:@[]%") || !shouldEscape c .path) = false) (by decide!) c
  have plain : (isCTL c || c == '?'.toUInt8 || c == '#'.toUInt8) = false :=
    Bool.eq_false_iff.mpr fun special => by simp [refused special] at allowed
  simpa [and_assoc] using plain

/-- Under a mode that escapes control bytes, `?` and `#`, `escape` writes none of them. -/
theorem escape_bytes {mode : Encoding}
    (escapes : ∀ c, (isCTL c || c == '?'.toUInt8 || c == '#'.toUInt8) → shouldEscape c mode)
    (s : List UInt8) :
    ∀ c ∈ escape s mode, isCTL c = false ∧ c ≠ '?'.toUInt8 ∧ c ≠ '#'.toUInt8 := fun c mem => by
  rcases mem_escape mem with plain | rfl | ⟨rfl, -⟩
  · have notSpecial : (isCTL c || c == '?'.toUInt8 || c == '#'.toUInt8) = false :=
      Bool.eq_false_iff.mpr fun special => by simp [escapes c special] at plain
    simpa [and_assoc] using notSpecial
  · decide
  · decide

theorem queryEscape_bytes (s : List UInt8) :
    ∀ c ∈ queryEscape s, isCTL c = false ∧ c ≠ '?'.toUInt8 ∧ c ≠ '#'.toUInt8 :=
  escape_bytes (fun c => by
    set_option maxRecDepth 10000 in
    exact forall_byte (p := fun c => (isCTL c || c == '?'.toUInt8 || c == '#'.toUInt8) →
      shouldEscape c .queryComponent) (by decide!) c) s

theorem pathEscape_bytes (s : List UInt8) :
    ∀ c ∈ pathEscape s, isCTL c = false ∧ c ≠ '?'.toUInt8 ∧ c ≠ '#'.toUInt8 :=
  escape_bytes (fun c => by
    set_option maxRecDepth 10000 in
    exact forall_byte (p := fun c => (isCTL c || c == '?'.toUInt8 || c == '#'.toUInt8) →
      shouldEscape c .pathSegment) (by decide!) c) s

/-- No byte that `Values.Encode` writes is a control byte, a `?` or a `#`. -/
theorem Values.encode_bytes (v : Values) :
    ∀ c ∈ v.encode, isCTL c = false ∧ c ≠ '?'.toUInt8 ∧ c ≠ '#'.toUInt8 := fun c mem => by
  rw [Values.encode_eq] at mem
  rcases Strings.mem_intercalate mem with rfl | ⟨piece, inPieces, inPiece⟩
  · decide
  · obtain ⟨pair, -, rfl⟩ := List.mem_map.mp inPieces
    simp only [renderPair, List.mem_append, List.mem_cons] at inPiece
    rcases inPiece with inKey | rfl | inValue
    · exact queryEscape_bytes _ c inKey
    · decide
    · exact queryEscape_bytes _ c inValue

end DpApiClients.Url
