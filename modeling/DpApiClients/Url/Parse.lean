import DpApiClients.Url.Escape

/-!
# `url.URL` and `url.Parse`

The fields of `url.URL`, and `url.Parse` with every check it makes: control bytes, the
scheme, the query and `ForceQuery`, opaque URLs, a colon in the first segment of a relative
path, the authority with its userinfo, IPv6 literal, zone and port, and the percent-encoding
of each part. Each error is a constructor of `ParseError` carrying what its message quotes.

Go's `url.Parse` cuts the fragment off and calls the unexported `parse`, here
`parseReference`; both return the first error they meet, so they are written as nested
`if`s and `Except` binds in the order of the source.
-/

namespace DpApiClients.Url

/-- The errors `url.Parse` wraps in a `*url.Error`. -/
inductive ParseError where
  /-- `net/url: invalid control character in URL` -/
  | invalidControlCharacter
  /-- `empty url` -/
  | emptyUrl
  /-- `missing protocol scheme` -/
  | missingProtocolScheme
  /-- `invalid URI for request` -/
  | invalidRequestUri
  /-- `first path segment in URL cannot contain colon` -/
  | colonInFirstSegment
  /-- `missing ']' in host` -/
  | missingBracket
  /-- `invalid port %q after host` -/
  | invalidPort (port : List UInt8)
  /-- `net/url: invalid userinfo` -/
  | invalidUserinfo
  | escape (err : EscapeError)
  deriving DecidableEq, Repr

/-- `*url.Error`: the operation, the URL it was given, and the cause. -/
structure Error where
  op : String
  url : List UInt8
  err : ParseError
  deriving DecidableEq, Repr

/-- `url.Userinfo`. -/
structure Userinfo where
  username : List UInt8
  password : List UInt8
  passwordSet : Bool
  deriving DecidableEq, Repr

/-- `url.URL`. -/
structure URL where
  scheme : List UInt8 := []
  /-- `Opaque`, the encoded part after the scheme of a URL whose path does not start with a
  slash. -/
  opaquePart : List UInt8 := []
  user : Option Userinfo := none
  host : List UInt8 := []
  path : List UInt8 := []
  rawPath : List UInt8 := []
  omitHost : Bool := false
  forceQuery : Bool := false
  rawQuery : List UInt8 := []
  fragment : List UInt8 := []
  rawFragment : List UInt8 := []
  deriving DecidableEq, Repr

/-- A byte below a space, or DEL. -/
def isCTL (c : UInt8) : Bool :=
  c < ' '.toUInt8 || c = 0x7f

def isLetter (c : UInt8) : Bool :=
  ('a'.toUInt8 ≤ c && c ≤ 'z'.toUInt8) || ('A'.toUInt8 ≤ c && c ≤ 'Z'.toUInt8)

def isDigit (c : UInt8) : Bool :=
  '0'.toUInt8 ≤ c && c ≤ '9'.toUInt8

/-- The loop of `getScheme`: `read` holds the bytes before the current one. -/
def getSchemeLoop (rawURL : List UInt8) :
    List UInt8 → List UInt8 → Except ParseError (List UInt8 × List UInt8)
  | _, [] => .ok ([], rawURL)
  | read, c :: rest =>
    if isLetter c then getSchemeLoop rawURL (read ++ [c]) rest
    else if isDigit c ∨ c ∈ ascii "+-." then
      if read = [] then .ok ([], rawURL) else getSchemeLoop rawURL (read ++ [c]) rest
    else if c = ':'.toUInt8 then
      if read = [] then .error .missingProtocolScheme else .ok (read, rest)
    else .ok ([], rawURL)

/-- The scheme of `rawURL` and what follows its colon, or no scheme and all of `rawURL`. -/
def getScheme (rawURL : List UInt8) : Except ParseError (List UInt8 × List UInt8) :=
  getSchemeLoop rawURL [] rawURL

def validOptionalPort (port : List UInt8) : Bool :=
  match port with
  | [] => true
  | c :: digits => c = ':'.toUInt8 && digits.all isDigit

/-- `s` cut before the first occurrence of `sep`, as `strings.Index` finds it. -/
def cutBefore (s sep : List UInt8) : Option (List UInt8 × List UInt8) :=
  if sep.isPrefixOf s then some ([], s)
  else
    match s with
    | [] => none
    | c :: rest => (cutBefore rest sep).map fun (before, after) => (c :: before, after)

def unescapeIn (mode : Encoding) (s : List UInt8) : Except ParseError (List UInt8) :=
  (unescape mode s).mapError .escape

def parseHost (host : List UInt8) : Except ParseError (List UInt8) :=
  if host.head? = some '['.toUInt8 then
    match Strings.cutLast host ']'.toUInt8 with
    | none => .error .missingBracket
    | some (literal, colonPort) =>
      if !validOptionalPort colonPort then .error (.invalidPort colonPort)
      else
        match cutBefore literal (ascii "%25") with
        | some (beforeZone, zone) => do
          let host1 ← unescapeIn .host beforeZone
          let host2 ← unescapeIn .zone zone
          let host3 ← unescapeIn .host (']'.toUInt8 :: colonPort)
          pure (host1 ++ host2 ++ host3)
        | none => unescapeIn .host host
  else
    match Strings.cutLast host ':'.toUInt8 with
    | some (_, port) =>
      if !validOptionalPort (':'.toUInt8 :: port) then .error (.invalidPort (':'.toUInt8 :: port))
      else unescapeIn .host host
    | none => unescapeIn .host host

def validUserinfo (s : List UInt8) : Bool :=
  s.all fun c => isLetter c || isDigit c || c ∈ ascii "-._:~!$&'()*+,;=%@"

def parseAuthority (authority : List UInt8) : Except ParseError (Option Userinfo × List UInt8) :=
  match Strings.cutLast authority '@'.toUInt8 with
  | none => do
    let host ← parseHost authority
    pure (none, host)
  | some (userinfo, hostPart) => do
    let host ← parseHost hostPart
    if !validUserinfo userinfo then .error .invalidUserinfo
    else if ':'.toUInt8 ∉ userinfo then do
      let username ← unescapeIn .userPassword userinfo
      pure (some ⟨username, [], false⟩, host)
    else do
      let (username, password, _) := Strings.cut userinfo ':'.toUInt8
      let username ← unescapeIn .userPassword username
      let password ← unescapeIn .userPassword password
      pure (some ⟨username, password, true⟩, host)

/-- `u.setPath(p)`: the decoded path, and `p` as `RawPath` when the default encoding of the
decoded path is not `p`. -/
def URL.setPath (u : URL) (p : List UInt8) : Except ParseError URL := do
  let path ← unescapeIn .path p
  pure { u with path := path, rawPath := if escape path .path = p then [] else p }

theorem URL.setPath_of_unescape (u : URL) {p decoded : List UInt8}
    (decodes : unescape .path p = .ok decoded) :
    u.setPath p = .ok { u with path := decoded, rawPath := if escape decoded .path = p then [] else p } := by
  simp only [URL.setPath, unescapeIn, decodes]
  rfl

def URL.setFragment (u : URL) (f : List UInt8) : Except ParseError URL := do
  let frag ← unescapeIn .fragment f
  pure { u with fragment := frag, rawFragment := if escape frag .fragment = f then [] else f }

/-- The authority, userinfo and path of a URL once the scheme and query are cut off. -/
def parseAfterScheme (url : URL) (rest : List UInt8) (viaRequest : Bool) :
    Except ParseError URL :=
  if (url.scheme ≠ [] ∨ (!viaRequest ∧ ¬(ascii "///").isPrefixOf rest)) ∧
      (ascii "//").isPrefixOf rest then
    let (authority, rest) := (rest.drop 2).span (· ≠ '/'.toUInt8)
    match parseAuthority authority with
    | .error err => .error err
    | .ok (user, host) => { url with user := user, host := host }.setPath rest
  else if url.scheme ≠ [] ∧ rest.head? = some '/'.toUInt8 then
    { url with omitHost := true }.setPath rest
  else url.setPath rest

/-- The query cut off what follows the scheme: the rest, `ForceQuery` and `RawQuery`. A single
`?` at the end sets `ForceQuery` with an empty query. -/
def splitQuery (rest : List UInt8) : List UInt8 × Bool × List UInt8 :=
  if Strings.hasSuffix rest '?'.toUInt8 ∧ rest.count '?'.toUInt8 = 1 then (rest.dropLast, true, [])
  else
    let (rest, rawQuery, _) := Strings.cut rest '?'.toUInt8
    (rest, false, rawQuery)

/-- Go's unexported `parse(rawURL, viaRequest)`. -/
def parseReference (rawURL : List UInt8) (viaRequest : Bool) : Except ParseError URL :=
  if rawURL.any isCTL then .error .invalidControlCharacter
  else if rawURL = [] ∧ viaRequest then .error .emptyUrl
  else if rawURL = ascii "*" then .ok { path := ascii "*" }
  else
    match getScheme rawURL with
    | .error err => .error err
    | .ok (scheme, rest) =>
      let scheme := Strings.toLower scheme
      let (rest, forceQuery, rawQuery) := splitQuery rest
      let url : URL := { scheme := scheme, forceQuery := forceQuery, rawQuery := rawQuery }
      if rest.head? ≠ some '/'.toUInt8 then
        if scheme ≠ [] then .ok { url with opaquePart := rest }
        else if viaRequest then .error .invalidRequestUri
        else if ':'.toUInt8 ∈ (Strings.cut rest '/'.toUInt8).1 then .error .colonInFirstSegment
        else parseAfterScheme url rest viaRequest
      else parseAfterScheme url rest viaRequest

/-- `url.Parse`. -/
def parse (rawURL : List UInt8) : Except Error URL :=
  let (u, frag, _) := Strings.cut rawURL '#'.toUInt8
  match parseReference u false with
  | .error err => .error ⟨"parse", u, err⟩
  | .ok url =>
    if frag = [] then .ok url
    else
      match url.setFragment frag with
      | .error err => .error ⟨"parse", rawURL, err⟩
      | .ok url => .ok url

end DpApiClients.Url
