import DpApiClients.Url.Parse

/-!
# Writing a URL and resolving a reference

`URL.string` is `(*URL).String`, with `EscapedPath` and `EscapedFragment`: a `RawPath` is
written as it is when it is a valid encoding of `Path`, and otherwise `Path` is escaped.
`resolvePath` and `URL.resolveReference` are RFC 3986 §5.2 as `net/url` implements it, and
`URL.parse` is the method `(*URL).Parse`, which parses a reference and resolves it against
the URL.

`resolvePath` walks the `/`-separated segments of the merged path. Go's loop cuts the path at
one `/` at a time; it visits the segments of `splitOn`, and `resolveSegment` is one turn of
it.
-/

namespace DpApiClients.Url

/-- Whether `s` decodes under `mode` without error to `target`. -/
def decodesTo (mode : Encoding) (s target : List UInt8) : Bool :=
  match unescape mode s with
  | .ok decoded => decoded = target
  | .error _ => false

namespace URL

/-- `u.EscapedPath()`. -/
def escapedPath (u : URL) : List UInt8 :=
  if u.rawPath ≠ [] ∧ validEncoded u.rawPath .path ∧ decodesTo .path u.rawPath u.path then
    u.rawPath
  else if u.path = ascii "*" then ascii "*"
  else escape u.path .path

/-- `u.EscapedFragment()`. -/
def escapedFragment (u : URL) : List UInt8 :=
  if u.rawFragment ≠ [] ∧ validEncoded u.rawFragment .fragment ∧
      decodesTo .fragment u.rawFragment u.fragment then
    u.rawFragment
  else escape u.fragment .fragment

end URL

/-- `(*Userinfo).String()`. -/
def Userinfo.string (ui : Userinfo) : List UInt8 :=
  escape ui.username .userPassword ++
    if ui.passwordSet then ':'.toUInt8 :: escape ui.password .userPassword else []

namespace URL

/-- What `String` writes between the scheme and the path: `//`, the userinfo and the host. -/
def authorityPart (u : URL) : List UInt8 :=
  if u.scheme ≠ [] ∨ u.host ≠ [] ∨ u.user.isSome then
    if u.omitHost ∧ u.host = [] ∧ u.user.isNone then []
    else
      (if u.host ≠ [] ∨ u.path ≠ [] ∨ u.user.isSome then ascii "//" else []) ++
        (match u.user with
          | some ui => ui.string ++ ['@'.toUInt8]
          | none => []) ++
        (if u.host ≠ [] then escape u.host .host else [])
  else []

/-- `u.String()`. -/
def string (u : URL) : List UInt8 :=
  let schemePart := if u.scheme ≠ [] then u.scheme ++ [':'.toUInt8] else []
  let body :=
    if u.opaquePart ≠ [] then u.opaquePart
    else
      let path := u.escapedPath
      let slash :=
        if path ≠ [] ∧ path.head? ≠ some '/'.toUInt8 ∧ u.host ≠ [] then ['/'.toUInt8] else []
      let written := schemePart ++ u.authorityPart ++ slash
      let dotSlash :=
        if written = [] ∧ ':'.toUInt8 ∈ (Strings.cut path '/'.toUInt8).1 then ascii "./" else []
      u.authorityPart ++ slash ++ dotSlash ++ path
  let query := if u.forceQuery ∨ u.rawQuery ≠ [] then '?'.toUInt8 :: u.rawQuery else []
  let fragment := if u.fragment ≠ [] then '#'.toUInt8 :: u.escapedFragment else []
  schemePart ++ body ++ query ++ fragment

end URL

/-- One turn of the loop of `resolvePath` over a segment `elem`: the path written so far,
which starts with `/`, and whether no segment has been written after it. -/
def resolveSegment (state : List UInt8 × Bool) (elem : List UInt8) : List UInt8 × Bool :=
  let (dst, first) := state
  if elem = ascii "." then (dst, false)
  else if elem = ascii ".." then
    match Strings.cutLast (dst.drop 1) '/'.toUInt8 with
    | none => (['/'.toUInt8], true)
    | some (before, _) => ('/'.toUInt8 :: before, first)
  else ((if first then dst else dst ++ ['/'.toUInt8]) ++ elem, false)

/-- The path `resolvePath` starts from: `ref` as it is if it is absolute, and otherwise
merged onto the directory of `base`. -/
def mergePath (base ref : List UInt8) : List UInt8 :=
  if ref = [] then base
  else if ref.head? ≠ some '/'.toUInt8 then
    (match Strings.cutLast base '/'.toUInt8 with
      | some (before, _) => before ++ ['/'.toUInt8]
      | none => []) ++ ref
  else ref

/-- The loop of `resolvePath` and what follows it: `full` with its dot segments removed. -/
def removeDotSegments (full : List UInt8) : List UInt8 :=
  if full = [] then []
  else
    let segments := full.splitOn '/'.toUInt8
    let last := segments.getLast?.getD []
    let (dst, _) := segments.foldl resolveSegment (['/'.toUInt8], true)
    let dst := if last = ascii "." ∨ last = ascii ".." then dst ++ ['/'.toUInt8] else dst
    if dst[1]? = some '/'.toUInt8 then dst.drop 1 else dst

/-- `resolvePath(base, ref)`: the merged path with its dot segments removed. -/
def resolvePath (base ref : List UInt8) : List UInt8 :=
  removeDotSegments (mergePath base ref)

namespace URL

/-- `url.setPath(p)` whose error is ignored: `ResolveReference` only passes escaped paths. -/
def setPathIgnoringError (u : URL) (p : List UInt8) : URL :=
  match u.setPath p with
  | .ok url => url
  | .error _ => u

/-- `u.ResolveReference(ref)`. -/
def resolveReference (u ref : URL) : URL :=
  let url := { ref with scheme := if ref.scheme = [] then u.scheme else ref.scheme }
  if ref.scheme ≠ [] ∨ ref.host ≠ [] ∨ ref.user.isSome then
    url.setPathIgnoringError (resolvePath ref.escapedPath [])
  else if ref.opaquePart ≠ [] then { url with user := none, host := [], path := [] }
  else
    let url :=
      if ref.path = [] ∧ ¬ref.forceQuery ∧ ref.rawQuery = [] then
        if ref.fragment = [] then
          { url with rawQuery := u.rawQuery, fragment := u.fragment, rawFragment := u.rawFragment }
        else { url with rawQuery := u.rawQuery }
      else url
    if ref.path = [] ∧ u.opaquePart ≠ [] then
      { url with opaquePart := u.opaquePart, user := none, host := [], path := [] }
    else
      { url with host := u.host, user := u.user }.setPathIgnoringError
        (resolvePath u.escapedPath ref.escapedPath)

/-- `u.Parse(ref)`. -/
def parse (u : URL) (ref : List UInt8) : Except Error URL :=
  (Url.parse ref).map u.resolveReference

end URL

/-! ## Paths with no dot segment -/

/-- No `/`-separated segment of `p` is `.` or `..`. -/
def NoDotSegments (p : List UInt8) : Prop :=
  ∀ seg ∈ p.splitOn '/'.toUInt8, seg ≠ ascii "." ∧ seg ≠ ascii ".."

instance : DecidablePred NoDotSegments := fun p =>
  inferInstanceAs (Decidable (∀ seg ∈ p.splitOn '/'.toUInt8, seg ≠ ascii "." ∧ seg ≠ ascii ".."))

theorem noDotSegments_append_cons {before after : List UInt8} :
    NoDotSegments (before ++ '/'.toUInt8 :: after) ↔ NoDotSegments before ∧ NoDotSegments after := by
  rw [NoDotSegments, Strings.splitOn_append_cons, List.forall_mem_append]
  rfl

theorem noDotSegments_of_not_mem {seg : List UInt8} (noSlash : '/'.toUInt8 ∉ seg) :
    NoDotSegments seg ↔ seg ≠ ascii "." ∧ seg ≠ ascii ".." := by
  simp [NoDotSegments, Strings.splitOn_of_not_mem noSlash]

/-- A segment other than `.` and `..` is written after a slash. -/
theorem resolveSegment_of_plain (dst : List UInt8) {seg : List UInt8}
    (plain : seg ≠ ascii "." ∧ seg ≠ ascii "..") :
    resolveSegment (dst, false) seg = (dst ++ '/'.toUInt8 :: seg, false) := by
  simp [resolveSegment, plain.1, plain.2]

theorem foldl_resolveSegment {segs : List (List UInt8)}
    (plain : ∀ seg ∈ segs, seg ≠ ascii "." ∧ seg ≠ ascii "..") (dst : List UInt8) :
    segs.foldl resolveSegment (dst, false) = (dst ++ segs.flatMap ('/'.toUInt8 :: ·), false) := by
  induction segs generalizing dst with
  | nil => simp
  | cons seg segs ih =>
    rw [List.foldl_cons, resolveSegment_of_plain dst (plain seg (List.mem_cons_self seg segs)),
      ih fun s mem => plain s (List.mem_cons_of_mem seg mem)]
    simp

/-- Writing each segment after a slash writes the path after a slash. -/
theorem flatMap_cons_splitOn (p : List UInt8) :
    (p.splitOn '/'.toUInt8).flatMap ('/'.toUInt8 :: ·) = '/'.toUInt8 :: p := by
  induction p with
  | nil => rfl
  | cons c p ih =>
    obtain ⟨first, others, split⟩ :=
      List.exists_cons_of_ne_nil (List.splitOnP_ne_nil (· == '/'.toUInt8) p)
    simp only [List.splitOn, List.splitOnP_cons] at ih ⊢
    split
    · case isTrue slash =>
      rw [beq_iff_eq.mp slash]
      simp [ih]
    · rw [split] at ih ⊢
      simp only [List.flatMap_cons, List.cons_append, List.cons.injEq] at ih
      simp [List.modifyHead, ih.2]

/-- A rooted path with no dot segment is left as it is. -/
theorem removeDotSegments_of_noDotSegments {rest : List UInt8}
    (plain : NoDotSegments ('/'.toUInt8 :: rest)) :
    removeDotSegments ('/'.toUInt8 :: rest) = '/'.toUInt8 :: rest := by
  have segments : ('/'.toUInt8 :: rest).splitOn '/'.toUInt8 = [] :: rest.splitOn '/'.toUInt8 :=
    Strings.splitOn_append_cons [] rest
  have restPlain : ∀ seg ∈ rest.splitOn '/'.toUInt8, seg ≠ ascii "." ∧ seg ≠ ascii ".." :=
    (@noDotSegments_append_cons [] rest |>.mp plain).2
  have lastPlain : ¬((rest.splitOn '/'.toUInt8).getLast?.getD [] = ascii "." ∨
      (rest.splitOn '/'.toUInt8).getLast?.getD [] = ascii "..") := by
    cases last : (rest.splitOn '/'.toUInt8).getLast? with
    | none => decide
    | some seg => simpa using restPlain seg (List.mem_of_getLast?_eq_some last)
  have first : resolveSegment (['/'.toUInt8], true) [] = (['/'.toUInt8], false) := by
    simp [resolveSegment, ascii]
  simp only [removeDotSegments, segments, List.foldl_cons, first, foldl_resolveSegment restPlain,
    flatMap_cons_splitOn, List.getLast?_cons, Option.getD_some, lastPlain]
  simp

/-- The default encoding of a path has the same segments, each encoded, so a dot segment appears
in it only where the path has one. -/
theorem noDotSegments_escape {d : List UInt8} (plain : NoDotSegments d) :
    NoDotSegments (escape d .path) := by
  obtain ⟨n, size⟩ : ∃ n, d.length = n := ⟨_, rfl⟩
  induction n using Nat.strong_induction_on generalizing d with
  | _ n ih =>
    by_cases slash : '/'.toUInt8 ∈ d
    · obtain ⟨before, after, rfl⟩ := List.append_of_mem slash
      have slashByte : escapeByte .path '/'.toUInt8 = ['/'.toUInt8] := by decide
      have escapeSlash : escape ('/'.toUInt8 :: after) .path = '/'.toUInt8 :: escape after .path := by
        simp [escape, slashByte]
      obtain ⟨plainBefore, plainAfter⟩ := noDotSegments_append_cons.mp plain
      rw [escape_append, escapeSlash]
      simp only [List.length_append, List.length_cons] at size
      exact noDotSegments_append_cons.mpr
        ⟨ih _ (by omega) plainBefore rfl, ih _ (by omega) plainAfter rfl⟩
    · have noSlash : '/'.toUInt8 ∉ escape d .path := fun mem =>
        slash (mem_of_mem_escape mem (by decide) (by decide) (by decide))
      rw [noDotSegments_of_not_mem slash] at plain
      rw [noDotSegments_of_not_mem noSlash]
      exact ⟨fun dot => plain.1 (eq_of_escape_eq dot (by decide) (by decide)),
        fun dots => plain.2 (eq_of_escape_eq dots (by decide) (by decide))⟩

/-- A raw path has a dot segment only where its decoding has one: its literal slashes are
slashes of the decoding. -/
theorem noDotSegments_of_unescape {raw decoded : List UInt8}
    (decodes : unescape .path raw = .ok decoded) (plain : NoDotSegments decoded) :
    NoDotSegments raw := by
  obtain ⟨n, size⟩ : ∃ n, raw.length = n := ⟨_, rfl⟩
  induction n using Nat.strong_induction_on generalizing raw decoded with
  | _ n ih =>
    by_cases slash : '/'.toUInt8 ∈ raw
    · obtain ⟨before, after, rfl⟩ := List.append_of_mem slash
      obtain ⟨d1, d2, first, second, rfl⟩ := unescape_split (by decide)
        (fun _ => unescape_plain (by decide) (by decide) (by decide)) decodes
      obtain ⟨plain1, plain2⟩ := noDotSegments_append_cons.mp plain
      simp only [List.length_append, List.length_cons] at size
      exact noDotSegments_append_cons.mpr
        ⟨ih _ (by omega) first plain1 rfl, ih _ (by omega) second plain2 rfl⟩
    · rw [noDotSegments_of_not_mem slash]
      constructor
      · rintro rfl
        obtain rfl : decoded = ascii "." := (Except.ok.inj decodes).symm
        exact absurd plain (by decide)
      · rintro rfl
        obtain rfl : decoded = ascii ".." := (Except.ok.inj decodes).symm
        exact absurd plain (by decide)

/-- A relative reference is merged onto the directory of a base path that ends in a slash. -/
theorem mergePath_of_dir (dir : List UInt8) {ref : List UInt8} (nonempty : ref ≠ [])
    (relative : ref.head? ≠ some '/'.toUInt8) :
    mergePath (dir ++ ['/'.toUInt8]) ref = dir ++ '/'.toUInt8 :: ref := by
  rw [mergePath, if_neg nonempty, if_pos relative, Strings.cutLast_append_cons (List.not_mem_nil _)]
  simp

/-! ## `EscapedPath` -/

/-- `EscapedPath` of a URL whose path was set from `p`: `p` itself when it is a valid encoding,
and otherwise the default encoding of the decoded path. -/
theorem escapedPath_setPath (u : URL) {p decoded : List UInt8}
    (decodes : unescape .path p = .ok decoded) (notStar : decoded ≠ ascii "*") :
    { u with path := decoded, rawPath := if escape decoded .path = p then [] else p }.escapedPath =
      if validEncoded p .path then p else escape decoded .path := by
  unfold URL.escapedPath
  by_cases same : escape decoded .path = p
  · subst same
    simp [validEncoded_escape, notStar]
  · have nonempty : p ≠ [] := by
      rintro rfl
      cases decodes
      exact same rfl
    have decodesTo : decodesTo .path p decoded := by simp [decodesTo, decodes]
    by_cases valid : validEncoded p .path <;> simp [same, nonempty, valid, decodesTo, notStar]

/-- `EscapedPath` falls back to the default encoding when the raw path does not decode to the
path. -/
theorem escapedPath_of_not_decodesTo (u : URL) (stale : decodesTo .path u.rawPath u.path = false)
    (notStar : u.path ≠ ascii "*") : u.escapedPath = escape u.path .path := by
  simp [URL.escapedPath, stale, notStar]

/-! ## Resolving one segment against a directory -/

/-- A path segment that is written and decoded as it is: no slash, no dot segment, no `%`
or `+`, and no byte that `escape` encodes in a path. -/
structure PlainSegment (seg : List UInt8) : Prop where
  nonempty : seg ≠ []
  plain : ∀ c ∈ seg, c ≠ '/'.toUInt8 ∧ c ≠ '%'.toUInt8 ∧ c ≠ '+'.toUInt8 ∧
    shouldEscape c .path = false
  notDot : seg ≠ ascii "." ∧ seg ≠ ascii ".."

/-- What resolving against a base needs of its escaped path: a rooted directory, validly
encoded, with no dot segment, that decodes to `decoded`. -/
structure EscapedDirectory (escaped decoded : List UInt8) : Prop where
  dir : ∃ dir, escaped = dir ++ ['/'.toUInt8]
  rooted : escaped.head? = some '/'.toUInt8
  valid : validEncoded escaped .path
  decodes : unescape .path escaped = .ok decoded
  noDots : NoDotSegments escaped

namespace PlainSegment

variable {seg : List UInt8} (segment : PlainSegment seg)
include segment

theorem escape_eq : escape seg .path = seg :=
  escape_of_plain fun c mem => escapeByte_of_plain (segment.plain c mem).2.2.2 fun ⟨_, query⟩ => by
    cases query

theorem unescape_eq : unescape .path seg = .ok seg :=
  unescape_of_plain fun c mem =>
    ⟨(segment.plain c mem).2.1, fun plus => absurd plus (segment.plain c mem).2.2.1,
      fun host => by cases host <;> contradiction⟩

theorem noDotSegments : NoDotSegments seg :=
  (noDotSegments_of_not_mem fun slash => (segment.plain _ slash).1 rfl).mpr segment.notDot

theorem head_ne_slash : seg.head? ≠ some '/'.toUInt8 := fun head =>
  (segment.plain _ (List.mem_of_mem_head? head)).1 rfl

/-- A path that ends with a plain segment is not `*`, the one path `EscapedPath` writes as it is. -/
theorem append_ne_star (dir : List UInt8) : dir ++ seg ≠ ascii "*" := fun star => by
  have starLast : (ascii "*").getLast? = some '*'.toUInt8 := rfl
  cases last : seg.getLast? with
  | none => exact segment.nonempty (List.getLast?_eq_none_iff.mp last)
  | some c =>
    have isStar : c = '*'.toUInt8 := by
      have lasts := congrArg List.getLast? star
      rw [List.getLast?_append, last, starLast] at lasts
      simpa using lasts
    exact absurd (segment.plain c (List.mem_of_getLast?_eq_some last)).2.2.2
      (by rw [isStar]; decide)

end PlainSegment

/-- A rooted raw path decodes to a rooted path. -/
theorem rooted_of_unescape {raw decoded : List UInt8}
    (rooted : raw = [] ∨ raw.head? = some '/'.toUInt8) (decodes : unescape .path raw = .ok decoded) :
    decoded = [] ∨ decoded.head? = some '/'.toUInt8 := by
  rcases rooted with rfl | head
  · exact .inl (Except.ok.inj decodes).symm
  · obtain _ | ⟨c, rest⟩ := raw
    · cases head
    · obtain rfl : c = '/'.toUInt8 := Option.some.inj head
      rw [unescape_plain (by decide) (by decide) (by decide)] at decodes
      cases restOk : unescape .path rest <;> simp [restOk, Except.map] at decodes
      exact .inr (by rw [← decodes]; rfl)

/-- The default encoding of a rooted directory path with no dot segment is an escaped
directory. -/
theorem EscapedDirectory.escape {dir : List UInt8} (rooted : dir = [] ∨ dir.head? = some '/'.toUInt8)
    (noDots : NoDotSegments dir) :
    EscapedDirectory (Url.escape (dir ++ ['/'.toUInt8]) .path) (dir ++ ['/'.toUInt8]) := by
  have slash : Url.escape ['/'.toUInt8] .path = ['/'.toUInt8] := by decide
  have escaped : Url.escape (dir ++ ['/'.toUInt8]) .path = Url.escape dir .path ++ ['/'.toUInt8] := by
    rw [escape_append, slash]
  refine ⟨⟨_, escaped⟩, ?_, validEncoded_escape _ _, ?_, ?_⟩
  · rcases rooted with rfl | head
    · rfl
    · obtain _ | ⟨c, rest⟩ := dir
      · cases head
      · obtain rfl : c = '/'.toUInt8 := Option.some.inj head
        rfl
  · simpa [Except.map] using @unescape_escape .path trivial (dir ++ ['/'.toUInt8]) []
  · exact noDotSegments_escape (noDotSegments_append_cons.mpr ⟨noDots, by decide⟩)

namespace EscapedDirectory

variable {escaped decoded seg : List UInt8} (directory : EscapedDirectory escaped decoded)
  (segment : PlainSegment seg)
include directory segment

/-- A segment merged onto a directory with no dot segment is appended to it. -/
theorem resolvePath_eq : resolvePath escaped seg = escaped ++ seg := by
  obtain ⟨dir, rfl⟩ := directory.dir
  rw [resolvePath, mergePath_of_dir dir segment.nonempty segment.head_ne_slash]
  have plain : NoDotSegments (dir ++ '/'.toUInt8 :: seg) :=
    noDotSegments_append_cons.mpr
      ⟨(noDotSegments_append_cons.mp directory.noDots).1, segment.noDotSegments⟩
  obtain ⟨rest, rooted⟩ : ∃ rest, dir ++ '/'.toUInt8 :: seg = '/'.toUInt8 :: rest := by
    have head := directory.rooted
    rcases dir with _ | ⟨c, dir⟩
    · exact ⟨seg, rfl⟩
    · obtain rfl : c = '/'.toUInt8 := Option.some.inj head
      exact ⟨dir ++ '/'.toUInt8 :: seg, rfl⟩
  rw [rooted] at plain ⊢
  rw [removeDotSegments_of_noDotSegments plain, ← rooted]
  simp

omit segment in
theorem head_append : (escaped ++ seg).head? = some '/'.toUInt8 := by
  cases escaped with
  | nil => exact absurd directory.rooted (by simp)
  | cons c rest => exact directory.rooted

theorem unescape_append : unescape .path (escaped ++ seg) = .ok (decoded ++ seg) := by
  rw [Url.unescape_append directory.decodes, segment.unescape_eq]
  rfl

theorem validEncoded_append : validEncoded (escaped ++ seg) .path := by
  simp only [validEncoded, List.all_append, Bool.and_eq_true]
  exact ⟨directory.valid, List.all_eq_true.mpr fun c mem => by simp [(segment.plain c mem).2.2.2]⟩

end EscapedDirectory

/-- `(*URL).Parse` of a plain segment against a base whose escaped path is a directory: the
base's scheme, userinfo and host, and the segment appended to the base's path. -/
theorem URL.resolveReference_segment (base : URL) {escaped decoded seg : List UInt8}
    (escapedEq : base.escapedPath = escaped) (directory : EscapedDirectory escaped decoded)
    (segment : PlainSegment seg) :
    base.resolveReference { path := seg } =
      { scheme := base.scheme, user := base.user, host := base.host, path := decoded ++ seg,
        rawPath := if escape (decoded ++ seg) .path = escaped ++ seg then [] else escaped ++ seg } := by
  have refEscaped : URL.escapedPath { path := seg } = seg := by
    simpa [segment.escape_eq] using
      escapedPath_setPath {} segment.unescape_eq fun star =>
        absurd (segment.plain _ (star ▸ (by decide : '*'.toUInt8 ∈ ascii "*"))).2.2.2 (by decide)
  simp [URL.resolveReference, URL.setPathIgnoringError, refEscaped, escapedEq, segment.nonempty,
    directory.resolvePath_eq segment, URL.setPath_of_unescape _ (directory.unescape_append segment)]

end DpApiClients.Url
