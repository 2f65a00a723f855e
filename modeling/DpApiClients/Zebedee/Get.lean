import DpApiClients.Zebedee.Request

/-!
# The status check of the zebedee client

`c.get` sends its request with the user's florence token and turns a status outside `200` to
`399` into `ErrInvalidZebedeeResponse`, which holds the status and `req.URL.Path`: the decoded
path of the request, with no query. `getBytes_invalidResponse` says that this is the only way
the error arises.

`GetDataset`, `GetFileSize`, `GetPageTitle` and `GetTimeseriesMainFigure` write their request
with `createRequestURL`, the page's `uri` in the query. So the error of each names only its route,
`/data` or `/filesize`, and the collection ID (`invalidResponse_route`): two requests for
different pages that fail with the same status fail with the same message, which does not say
which page it was about.

`GetBreadcrumb` writes its request by hand, `/parents?uri=` and the `uri` with nothing escaped, so
a `uri` holding a `#` is cut there and zebedee is asked about the part before it
(`getBreadcrumb_fragment`).

The zebedee server is a parameter: `api url token` is its answer to a GET of `url` with the
florence token `token`, or `none` when `Do` fails.
-/

namespace DpApiClients.Zebedee

open Url

/-- `ErrInvalidZebedeeResponse`. -/
structure ErrInvalidZebedeeResponse where
  actualCode : Nat
  uri : List UInt8
  deriving DecidableEq, Repr

/-- `(ErrInvalidZebedeeResponse).Error()`. -/
def ErrInvalidZebedeeResponse.error (e : ErrInvalidZebedeeResponse) : List UInt8 :=
  ascii "invalid response from zebedee - should be 2.x.x or 3.x.x, got: " ++
    ascii (toString e.actualCode) ++ ascii ", path: " ++ e.uri

/-- What `c.cli.Do` returns: the status and the body. -/
structure Response where
  status : Nat
  body : List UInt8
  deriving DecidableEq, Repr

/-- The errors of `c.get`: the request could not be made, `Do` failed, or the status was not
`2xx` or `3xx`. -/
inductive GetError where
  | request (err : Url.Error)
  | call
  | invalidResponse (err : ErrInvalidZebedeeResponse)
  deriving DecidableEq, Repr

/-- The bytes `c.get(ctx, userAccessToken, path)` returns. -/
def Client.getBytes (api : URL → List UInt8 → Option Response) (c : Client)
    (userAccessToken path : List UInt8) : Except GetError (List UInt8) :=
  match c.get path with
  | .error err => .error (.request err)
  | .ok url =>
    match api url userAccessToken with
    | none => .error .call
    | some resp =>
      if resp.status < 200 ∨ resp.status > 399 then
        .error (.invalidResponse ⟨resp.status, url.path⟩)
      else .ok resp.body

section Getters

variable (api : URL → List UInt8 → Option Response) (c : Client) (ctx : RequestContext)
  (userAccessToken uri : List UInt8)

/-- The bytes of `GetDataset`. -/
def Client.getDatasetBytes : Except GetError (List UInt8) :=
  c.getBytes api userAccessToken (createRequestURL ctx (ascii "/data") (ascii "uri=" ++ uri))

/-- The bytes of `GetFileSize`. -/
def Client.getFileSizeBytes : Except GetError (List UInt8) :=
  c.getBytes api userAccessToken (createRequestURL ctx (ascii "/filesize") (ascii "uri=" ++ uri))

/-- The bytes of `GetPageTitle`. -/
def Client.getPageTitleBytes : Except GetError (List UInt8) :=
  c.getBytes api userAccessToken
    (createRequestURL ctx (ascii "/data") (ascii "uri=" ++ uri ++ ascii "&title"))

/-- The request of `GetBreadcrumb`: `"/parents?uri="+uri`, with nothing escaped. -/
def Client.getBreadcrumb : Except Error URL :=
  c.get (ascii "/parents?uri=" ++ uri)

/-- The bytes of `GetBreadcrumb`. -/
def Client.getBreadcrumbBytes : Except GetError (List UInt8) :=
  c.getBytes api userAccessToken (ascii "/parents?uri=" ++ uri)

/-- The bytes of `GetTimeseriesMainFigure`. -/
def Client.getTimeseriesMainFigureBytes : Except GetError (List UInt8) :=
  c.getBytes api userAccessToken (createRequestURL ctx (ascii "/data") (ascii "uri=" ++ uri))

end Getters

variable {api : URL → List UInt8 → Option Response} {c : Client}
  {userAccessToken path : List UInt8}

/-- A status error of `c.get` comes only from a status outside `200` to `399`, and names it and
the decoded path of the request. -/
theorem getBytes_invalidResponse {e : ErrInvalidZebedeeResponse}
    (failed : c.getBytes api userAccessToken path = .error (.invalidResponse e)) :
    ∃ url resp, c.get path = .ok url ∧ api url userAccessToken = some resp ∧
      (resp.status < 200 ∨ 399 < resp.status) ∧ e = ⟨resp.status, url.path⟩ := by
  unfold Client.getBytes at failed
  split at failed
  · cases failed
  · rename_i url requested
    split at failed
    · cases failed
    · rename_i resp answered
      split at failed
      · rename_i outside
        cases failed
        exact ⟨url, resp, requested, answered, outside, rfl⟩
      · cases failed

section Route

variable {scheme : List UInt8} (host : HostPort)
  (schemeLower : scheme ≠ [] ∧ ∀ c ∈ scheme, isLower c) (ctx : RequestContext)
  (collectionPlain : ∀ id, ctx.collectionID = some id →
    ∀ b ∈ id, isCTL b = false ∧ b ≠ '?'.toUInt8 ∧ b ≠ '#'.toUInt8 ∧ b ≠ '%'.toUInt8)
  (localePlain : ∀ l, ctx.locale = some l → ∀ b ∈ l, isCTL b = false ∧ b ≠ '#'.toUInt8)
  {route : List UInt8} (rooted : route.head? = some '/'.toUInt8)
  (routePlain : ∀ b ∈ route,
    isCTL b = false ∧ b ≠ '?'.toUInt8 ∧ b ≠ '#'.toUInt8 ∧ b ≠ '%'.toUInt8)
  {query : List UInt8} (nonempty : query ≠ [])
include schemeLower collectionPlain localePlain rooted routePlain nonempty

/-- A request written by `createRequestURL` with a plain route goes to that route followed by the
collection ID, whatever its query. -/
theorem createRequestURL_get :
    ∃ url,
      Client.get ⟨scheme ++ ascii "://" ++ host.bytes⟩ (createRequestURL ctx route query) =
        .ok url ∧ url.path = route ++ ctx.collectionID.elim [] ('/'.toUInt8 :: ·) := by
  let path := route ++ ctx.collectionID.elim [] ('/'.toUInt8 :: ·)
  let fullQuery := pathEscape query ++ ctx.locale.elim [] (ascii "&lang=" ++ ·)
  have pathPlain : ∀ b ∈ path,
      isCTL b = false ∧ b ≠ '?'.toUInt8 ∧ b ≠ '#'.toUInt8 ∧ b ≠ '%'.toUInt8 := by
    intro b mem
    rcases List.mem_append.mp mem with inRoute | inCollection
    · exact routePlain b inRoute
    · cases collection : ctx.collectionID with
      | none => simp [collection] at inCollection
      | some id =>
        simp only [collection, Option.elim, List.mem_cons] at inCollection
        rcases inCollection with rfl | inId
        · decide
        · exact collectionPlain id collection b inId
  have queryBytes : ∀ b ∈ fullQuery, isCTL b = false ∧ b ≠ '#'.toUInt8 := by
    intro b mem
    rcases List.mem_append.mp mem with escaped | inLocale
    · exact ⟨(pathEscape_bytes query b escaped).1, (pathEscape_bytes query b escaped).2.2⟩
    · cases locale : ctx.locale with
      | none => simp [locale] at inLocale
      | some l =>
        simp only [locale, Option.elim, List.mem_append] at inLocale
        rcases inLocale with langKey | inL
        · exact (by decide : ∀ b ∈ ascii "&lang=", isCTL b = false ∧ b ≠ '#'.toUInt8) b
            langKey
        · exact localePlain l locale b inL
  have escapedNonempty : fullQuery ≠ [] :=
    List.append_ne_nil_of_left_ne_nil (escape_ne_nil .pathSegment nonempty) _
  have request :
      Client.get ⟨scheme ++ ascii "://" ++ host.bytes⟩ (createRequestURL ctx route query) =
      newRequestURL (scheme ++ ascii "://" ++ host.bytes ++ path ++
        if fullQuery = [] then [] else '?'.toUInt8 :: fullQuery) := by
    rw [if_neg escapedNonempty, Client.get, createRequestURL_eq]
    simp only [List.append_assoc, path, fullQuery]
  have pathRooted : path.head? = some '/'.toUInt8 := by
    rw [List.head?_append, rooted]
    rfl
  rw [request, newRequestURL_hostPath host schemeLower (.inr pathRooted)
    (fun b mem => ⟨(pathPlain b mem).1, (pathPlain b mem).2.1, (pathPlain b mem).2.2.1⟩)
    (unescape_of_plain fun b mem => ⟨(pathPlain b mem).2.2.2, fun _ => by decide,
      fun host => by rcases host with h | h <;> cases h⟩) queryBytes]
  exact ⟨_, rfl, rfl⟩

/-- A status error of a request written by `createRequestURL` names only its route and the
collection ID, whatever the query: the same status gives the same error for every page. -/
theorem invalidResponse_route {e : ErrInvalidZebedeeResponse}
    (failed : Client.getBytes api ⟨scheme ++ ascii "://" ++ host.bytes⟩ userAccessToken
      (createRequestURL ctx route query) = .error (.invalidResponse e)) :
    e = ⟨e.actualCode, route ++ ctx.collectionID.elim [] ('/'.toUInt8 :: ·)⟩ ∧
      (e.actualCode < 200 ∨ 399 < e.actualCode) := by
  obtain ⟨url, resp, requested, -, outside, rfl⟩ := getBytes_invalidResponse failed
  obtain ⟨url', requested', path⟩ :=
    createRequestURL_get host schemeLower ctx collectionPlain localePlain rooted routePlain nonempty
  cases requested.symm.trans requested'
  exact ⟨by rw [path], outside⟩

end Route

/-- `GetBreadcrumb` puts the page's `uri` in the query as it is, so a `uri` with a `#` is cut
there: the request goes to `/parents` with the query `uri=` and the part before the `#` only, and
the rest is a fragment, which is not sent. `GetPageTitle`, which escapes the `uri`, sends all of
it. -/
theorem getBreadcrumb_fragment {scheme : List UInt8} (host : HostPort)
    (schemeLower : scheme ≠ [] ∧ ∀ c ∈ scheme, isLower c) {pre post decodedPost : List UInt8}
    (prePlain : ∀ b ∈ pre, isCTL b = false ∧ b ≠ '#'.toUInt8)
    (postDecodes : unescape .fragment post = .ok decodedPost) :
    ∃ url, Client.getBreadcrumb ⟨scheme ++ ascii "://" ++ host.bytes⟩ (pre ++ '#'.toUInt8 :: post) =
        .ok url ∧
      url.scheme = scheme ∧ url.host = host.bytes ∧ url.path = ascii "/parents" ∧
      url.rawQuery = ascii "uri=" ++ pre := by
  have queryBytes : ∀ b ∈ ascii "uri=" ++ pre, isCTL b = false ∧ b ≠ '#'.toUInt8 := by
    intro b mem
    rcases List.mem_append.mp mem with key | inPre
    exacts [(by decide : ∀ b ∈ ascii "uri=", isCTL b = false ∧ b ≠ '#'.toUInt8) b key,
      prePlain b inPre]
  have shape : scheme ++ ascii "://" ++ host.bytes ++ ascii "/parents?uri=" ++
      (pre ++ '#'.toUInt8 :: post) = scheme ++ ascii "://" ++ host.bytes ++ ascii "/parents" ++
      (if ascii "uri=" ++ pre = [] then [] else '?'.toUInt8 :: (ascii "uri=" ++ pre)) ++
      '#'.toUInt8 :: post := by
    rw [if_neg (List.append_ne_nil_of_left_ne_nil (by decide) _)]
    simp only [List.append_assoc]
    rfl
  rw [Client.getBreadcrumb, Client.get, ← List.append_assoc, shape]
  exact newRequestURL_hostPath_fragment host schemeLower
    (.inr (show (ascii "/parents").head? = some '/'.toUInt8 from rfl)) (by decide)
    (show unescape .path (ascii "/parents") = .ok (ascii "/parents") from rfl) queryBytes
    postDecodes

theorem economy_section_breadcrumb :
    ∃ url, Client.getBreadcrumb ⟨ascii "http" ++ ascii "://" ++ localhost.bytes⟩
        (ascii "/economy" ++ '#'.toUInt8 :: ascii "section") = .ok url ∧
      url.scheme = ascii "http" ∧ url.host = localhost.bytes ∧ url.path = ascii "/parents" ∧
      url.rawQuery = ascii "uri=" ++ ascii "/economy" :=
  getBreadcrumb_fragment localhost (by decide) (by decide) rfl

/-- A zebedee that answers `404` to everything. -/
def notFound : URL → List UInt8 → Option Response :=
  fun _ _ => some ⟨404, []⟩

/-- A zebedee client at `http://localhost:8082`. -/
def localZebedee : Client :=
  ⟨ascii "http" ++ ascii "://" ++ localhost.bytes⟩

end DpApiClients.Zebedee
