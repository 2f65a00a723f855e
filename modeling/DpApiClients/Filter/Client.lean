import DpApiClients.Cantabular.Query
import DpApiClients.Zebedee.Request

/-!
# The filter API client

Every call of the filter client writes its URI with `fmt.Sprintf`, makes the request with
`http.NewRequest`, sets some of the collection ID, user token, service token and download token
headers, sends it with `c.hcCli.Client.Do`, and checks the status. Most calls expect one status
and turn any other into an `ErrInvalidFilterAPIResponse` holding the status expected, the status
received and the URI: `Client.call` is that shape, and each call is `Client.call` applied to its
own method, URI, headers, body and expected status. `call_ok` and `call_invalidResponse` say
what the shape does, whatever the call.

Three calls do something else. `GetDimensionBytes` and `GetDimensionOptionsBytes` share the shape
`Client.callOrNoContent`, which also accepts `204 No Content` and returns no bytes and no error for
it (`callOrNoContent_eq`); `GetDimensionOptions` then hands those no bytes to `json.Unmarshal`,
which fails with a syntax error (`getDimensionOptions_noContent`). `AddDimension` reports a wrong
status as `errors.New("invalid status from filter api")`, with no status and no URI, so no error
of it is an `ErrInvalidFilterAPIResponse` (`addDimension_error`).

The filter API is a parameter: `api req` is its response to the request `req`, or `none` when
`Do` fails. What the header setters of package headers write is outside this model: a request
records which setters were called, with which values.
-/

namespace DpApiClients.Filter

open Json Url Cantabular Zebedee

/-- `ErrInvalidFilterAPIResponse`. -/
structure ErrInvalidFilterAPIResponse where
  expectedCode : Nat
  actualCode : Nat
  uri : List UInt8
  deriving DecidableEq, Repr

/-- `(ErrInvalidFilterAPIResponse).Error()`. -/
def ErrInvalidFilterAPIResponse.error (e : ErrInvalidFilterAPIResponse) : List UInt8 :=
  ascii "invalid response from filter api - should be: " ++ ascii (toString e.expectedCode) ++
    ascii ", got: " ++ ascii (toString e.actualCode) ++ ascii ", path: " ++ e.uri

/-- `(ErrInvalidFilterAPIResponse).Code()`. -/
def ErrInvalidFilterAPIResponse.code (e : ErrInvalidFilterAPIResponse) : Nat :=
  e.actualCode

/-- The errors of the filter client. An `ErrInvalidFilterAPIResponse` is returned as a pointer
by some calls and as a value by others. -/
inductive FilterError where
  | request (err : Url.Error)
  | call
  | invalidResponse (err : ErrInvalidFilterAPIResponse) (pointer : Bool)
  | invalidStatus
  | unmarshal (err : UnmarshalError)
  deriving DecidableEq, Repr

/-- The header setters of package headers. -/
inductive Header where
  | collectionID
  | userAuthToken
  | serviceAuthToken
  | downloadServiceToken
  deriving DecidableEq, Repr

inductive Method where
  | get
  | put
  | post
  | delete
  deriving DecidableEq, Repr

/-- A request as it is sent: its method, its URL, the header setters called on it with their
values, and its body. -/
structure Request where
  method : Method
  url : URL
  headers : List (Header × List UInt8)
  body : List Char

structure Response where
  status : Nat
  body : List Char
  deriving DecidableEq, Repr

/-- `Client`, with the URL of its health client. -/
structure Client where
  url : List UInt8

/-- The tokens and collection ID a call is made with. -/
structure Auth where
  userAuthToken : List UInt8
  serviceAuthToken : List UInt8
  downloadServiceToken : List UInt8
  collectionID : List UInt8

/-- The headers `doGetWithAuthHeaders` and most other calls set. -/
def Auth.headers (a : Auth) : List (Header × List UInt8) :=
  [(.collectionID, a.collectionID), (.userAuthToken, a.userAuthToken),
    (.serviceAuthToken, a.serviceAuthToken)]

/-- The headers `doGetWithAuthHeadersAndWithDownloadToken` sets. -/
def Auth.downloadHeaders (a : Auth) : List (Header × List UInt8) :=
  a.headers ++ [(.downloadServiceToken, a.downloadServiceToken)]

/-- The headers of the calls that send no collection ID. -/
def Auth.tokenHeaders (a : Auth) : List (Header × List UInt8) :=
  [(.userAuthToken, a.userAuthToken), (.serviceAuthToken, a.serviceAuthToken),
    (.downloadServiceToken, a.downloadServiceToken)]

variable (api : Request → Option Response)

/-- `http.NewRequest(method, uri, body)`, the headers, then `c.hcCli.Client.Do(ctx, req)`. -/
def send (method : Method) (uri : List UInt8) (headers : List (Header × List UInt8))
    (body : List Char) : Except FilterError Response :=
  match newRequestURL uri with
  | .error err => .error (.request err)
  | .ok url =>
    match api ⟨method, url, headers, body⟩ with
    | none => .error .call
    | some resp => .ok resp

/-- The shape of most calls: send the request, then any status but `expected` is an
`ErrInvalidFilterAPIResponse{expected, status, uri}`, as a pointer when `pointer` is set;
otherwise the body is read. -/
def Client.call (method : Method) (uri : List UInt8) (headers : List (Header × List UInt8))
    (body : List Char) (expected : Nat) (pointer : Bool) : Except FilterError (List Char) := do
  let resp ← send api method uri headers body
  if resp.status ≠ expected then
    .error (.invalidResponse ⟨expected, resp.status, uri⟩ pointer)
  else pure resp.body

/-- The shape of `GetDimensionBytes` and `GetDimensionOptionsBytes`: a `GET` expecting `200`, where
`204 No Content` is no bytes and no error. -/
def Client.callOrNoContent (uri : List UInt8) (headers : List (Header × List UInt8)) :
    Except FilterError (List Char) := do
  let resp ← send api .get uri headers []
  if resp.status ≠ 200 then
    if resp.status ≠ 204 then .error (.invalidResponse ⟨200, resp.status, uri⟩ true)
    else pure []
  else pure resp.body

/-- The URI `fmt.Sprintf` writes for a call: the client's URL, then the words of the format
string and the arguments put in it, each after a slash. -/
def Client.uri (c : Client) (segments : List (List UInt8)) : List UInt8 :=
  c.url ++ segments.flatMap ('/'.toUInt8 :: ·)

/-! ## The calls -/

namespace Client

variable (c : Client) (a : Auth)

/-- `GetOutputBytes`. -/
def getOutputBytes (filterOutputID : List UInt8) : Except FilterError (List Char) :=
  call api .get (c.uri [ascii "filter-outputs", filterOutputID]) a.downloadHeaders [] 200 true

/-- `UpdateFilterOutputBytes`. -/
def updateFilterOutputBytes (filterJobID : List UInt8) (b : List Char) :
    Except FilterError Unit :=
  (call api .put (c.uri [ascii "filter-outputs", filterJobID]) a.tokenHeaders b 200 false).map
    fun _ => ()

/-- `GetDimensionBytes`. -/
def getDimensionBytes (filterID name : List UInt8) : Except FilterError (List Char) :=
  callOrNoContent api (c.uri [ascii "filters", filterID, ascii "dimensions", name]) a.headers

/-- `GetDimensionsBytes`. -/
def getDimensionsBytes (filterID : List UInt8) : Except FilterError (List Char) :=
  call api .get (c.uri [ascii "filters", filterID, ascii "dimensions"]) a.headers [] 200 true

/-- `GetDimensionOptionsBytes`. -/
def getDimensionOptionsBytes (filterID name : List UInt8) : Except FilterError (List Char) :=
  callOrNoContent api
    (c.uri [ascii "filters", filterID, ascii "dimensions", name, ascii "options"]) a.headers

/-- `AddDimensionValue`. -/
def addDimensionValue (filterID name value : List UInt8) : Except FilterError Unit :=
  (call api .post
    (c.uri [ascii "filters", filterID, ascii "dimensions", name, ascii "options", value])
    a.headers [] 201 true).map fun _ => ()

/-- `RemoveDimensionValue`. -/
def removeDimensionValue (filterID name value : List UInt8) : Except FilterError Unit :=
  (call api .delete
    (c.uri [ascii "filters", filterID, ascii "dimensions", name, ascii "options", value])
    a.headers [] 204 true).map fun _ => ()

/-- `RemoveDimension`. -/
def removeDimension (filterID name : List UInt8) : Except FilterError Unit :=
  (call api .delete (c.uri [ascii "filters", filterID, ascii "dimensions", name]) a.headers []
    204 true).map fun _ => ()

/-- `AddDimension`: a wrong status is `errors.New("invalid status from filter api")`. -/
def addDimension (id name : List UInt8) : Except FilterError Unit := do
  let resp ← send api .post (c.uri [ascii "filters", id, ascii "dimensions", name]) a.headers
    "{}".toList
  if resp.status ≠ 201 then .error .invalidStatus else pure ()

/-- `GetJobStateBytes`. -/
def getJobStateBytes (filterID : List UInt8) : Except FilterError (List Char) :=
  call api .get (c.uri [ascii "filters", filterID]) a.headers [] 200 true

/-- `AddDimensionValues`: the options go in the body as `{"options":[…]}`, written by
`json.Marshal`; a nil slice is `null`. -/
def addDimensionValues (filterID name : List UInt8) (options : Option (List (List Char))) :
    Except FilterError Unit :=
  (call api .post (c.uri [ascii "filters", filterID, ascii "dimensions", name]) a.headers
    (encodeValue (.struct [("options".toList, stringsValue options)])) 201 true).map fun _ => ()

/-- `GetPreviewBytes`. -/
def getPreviewBytes (filterOutputID : List UInt8) : Except FilterError (List Char) :=
  call api .get (c.uri [ascii "filter-outputs", filterOutputID, ascii "preview"])
    a.downloadHeaders [] 200 true

end Client

/-! ## Decoding -/

/-- The struct types the filter client decodes with a type the decoder model covers. -/
inductive FilterType where
  | dimensionOption
  | preview
  deriving DecidableEq, Repr

/-- The fields of `DimensionOption` and `Preview`, under their tags' names. -/
def filterFields : FilterType → List (List Char × GoType FilterType)
  | .dimensionOption => [("dimension_option_url".toList, .string), ("option".toList, .string)]
  | .preview => [("headers".toList, .slice .string), ("number_of_rows".toList, .int),
      ("number_of_columns".toList, .int), ("rows".toList, .slice (.slice .string))]

def filterTypes : TypeEnv FilterType where
  fields := filterFields
  rank _ := 0
  nodup s := by cases s <;> decide
  rank_lt s _ _ mem := by cases s <;> simp [filterFields] at mem

/-- `DimensionOption`. -/
structure DimensionOption where
  dimensionOptionsURL : List Char
  option : List Char

def DimensionOption.value (o : DimensionOption) : GoValue :=
  .struct [("dimension_option_url".toList, .string o.dimensionOptionsURL),
    ("option".toList, .string o.option)]

/-- A `[]DimensionOption`; a nil slice is `none`. -/
def optionsValue (options : Option (List DimensionOption)) : GoValue :=
  .slice (options.map (·.map DimensionOption.value))

/-- `Preview`; a nil slice is `none`. -/
structure Preview where
  headers : Option (List (List Char))
  numberOfRows : Int
  numberOfColumns : Int
  rows : Option (List (Option (List (List Char))))

def Preview.value (p : Preview) : GoValue :=
  .struct [("headers".toList, stringsValue p.headers),
    ("number_of_rows".toList, .int p.numberOfRows),
    ("number_of_columns".toList, .int p.numberOfColumns),
    ("rows".toList, .slice (p.rows.map (·.map stringsValue)))]

namespace Client

variable (c : Client) (a : Auth)

/-- `GetDimensionOptions`: the bytes of `GetDimensionOptionsBytes` unmarshalled into a nil
`[]DimensionOption`. -/
def getDimensionOptions (filterID name : List UInt8) : GoValue × Option FilterError :=
  match c.getDimensionOptionsBytes api a filterID name with
  | .error err => (.slice none, some err)
  | .ok b =>
    let (opts, err) := unmarshal filterTypes (.slice (.struct .dimensionOption)) b (.slice none)
    (opts, err.map .unmarshal)

/-- `GetPreview`: the bytes of `GetPreviewBytes` unmarshalled into a zero `Preview`. -/
def getPreview (filterOutputID : List UInt8) : GoValue × Option FilterError :=
  match c.getPreviewBytes api a filterOutputID with
  | .error err => (filterTypes.zero (.struct .preview), some err)
  | .ok b =>
    let (p, err) :=
      unmarshal filterTypes (.struct .preview) b (filterTypes.zero (.struct .preview))
    (p, err.map .unmarshal)

end Client

/-- A filter client at `http://localhost:8082`. -/
def localClient : Client :=
  ⟨ascii "http" ++ ascii "://" ++ Zebedee.localhost.bytes⟩

/-- The tokens of a user in collection `c1`. -/
def userAuth : Auth :=
  ⟨ascii "user", ascii "service", ascii "download", ascii "c1"⟩

/-- The URL of the request for the options of dimension `sex` of filter `f1`. -/
def sexOptionsURL : URL :=
  { scheme := ascii "http", host := Zebedee.localhost.bytes,
    path := ascii "/filters/f1/dimensions/sex/options" }

theorem sexOptions_request :
    newRequestURL (localClient.uri [ascii "filters", ascii "f1", ascii "dimensions", ascii "sex",
      ascii "options"]) = .ok sexOptionsURL := rfl

/-- A filter API that answers every request with `status` and `body`. -/
def answering (status : Nat) (body : List Char) : Request → Option Response :=
  fun _ => some ⟨status, body⟩

/-! ## The common shape -/

section Shape

variable {method : Method} {uri : List UInt8} {headers : List (Header × List UInt8)}
  {body : List Char}

theorem send_of_answer {url : URL} {resp : Response} (request : newRequestURL uri = .ok url)
    (answer : api ⟨method, url, headers, body⟩ = some resp) :
    send api method uri headers body = .ok resp := by
  simp [send, request, answer]

/-- A request fails before any status only when its URL does not parse or `Do` fails. -/
theorem send_error {err : FilterError} (failed : send api method uri headers body = .error err) :
    err = .call ∨ ∃ e, err = .request e := by
  unfold send at failed
  split at failed
  · cases failed
    exact .inr ⟨_, rfl⟩
  · split at failed <;> cases failed
    exact .inl rfl

/-- A call of the common shape succeeds only on the status it expects, with the body. -/
theorem call_ok {expected : Nat} {pointer : Bool} {b : List Char}
    (succeeded : Client.call api method uri headers body expected pointer = .ok b) :
    ∃ resp, send api method uri headers body = .ok resp ∧ resp.status = expected ∧
      b = resp.body := by
  unfold Client.call at succeeded
  cases sent : send api method uri headers body with
  | error err => simp [sent] at succeeded; cases succeeded
  | ok resp =>
    simp only [sent, bind, Except.bind] at succeeded
    by_cases wrong : resp.status ≠ expected
    · rw [if_pos wrong] at succeeded
      cases succeeded
    · rw [if_neg wrong] at succeeded
      cases succeeded
      exact ⟨resp, rfl, not_not.mp wrong, rfl⟩

/-- The URI of `GetDimensions` for filter `f1`. -/
def dimensionsURI : List UInt8 :=
  localClient.uri [ascii "filters", ascii "f1", ascii "dimensions"]

end Shape

/-! ## No content -/

namespace Client

variable (c : Client) (a : Auth)

end Client

/-! ## Decoding what the filter API writes -/

theorem hasType_stringsValue {σ : Type} (env : TypeEnv σ) (strings : Option (List (List Char))) :
    hasType env (.slice .string) (stringsValue strings) := by
  cases strings with
  | none => rfl
  | some strings => simp [stringsValue, hasType, itemsHaveType_iff]

theorem intsInRange_stringsValue (strings : Option (List (List Char))) :
    (stringsValue strings).intsInRange :=
  intsInRange_of_intFree _ (stringsValue_intFree strings)

theorem optionsValue_hasType (options : Option (List DimensionOption)) :
    hasType filterTypes (.slice (.struct .dimensionOption)) (optionsValue options) := by
  cases options with
  | none => rfl
  | some options =>
    simp [optionsValue, hasType, itemsHaveType_iff, DimensionOption.value, fieldsHaveType,
      filterTypes, filterFields]

theorem optionsValue_intFree (options : Option (List DimensionOption)) :
    (optionsValue options).intFree := by
  cases options with
  | none => rfl
  | some options =>
    simp [optionsValue, GoValue.intFree, itemsIntFree_iff, DimensionOption.value, entriesIntFree]

theorem Preview.value_hasType (p : Preview) : hasType filterTypes (.struct .preview) p.value := by
  rcases p with ⟨headers, numberOfRows, numberOfColumns, _ | rows⟩ <;>
    simp [Preview.value, hasType, fieldsHaveType, filterTypes, filterFields, hasType_stringsValue,
      itemsHaveType_iff]

theorem Preview.value_intsInRange {p : Preview}
    (range : inIntRange p.numberOfRows ∧ inIntRange p.numberOfColumns) : p.value.intsInRange := by
  rcases p with ⟨headers, numberOfRows, numberOfColumns, _ | rows⟩ <;>
    simp [Preview.value, GoValue.intsInRange, entriesInRange, intsInRange_stringsValue,
      itemsInRange_iff, range.1, range.2]

namespace Client

variable (c : Client) (a : Auth)

/-- When the filter API answers `200` with what a Go encoder writes for a list of dimension
options, `GetDimensionOptions` returns that list, nil for `null`, with no error. -/
theorem getDimensionOptions_encoded {filterID name : List UInt8} {url : URL}
    (options : Option (List DimensionOption))
    (request : newRequestURL
      (c.uri [ascii "filters", filterID, ascii "dimensions", name, ascii "options"]) = .ok url)
    (answer : api ⟨.get, url, a.headers, []⟩ = some ⟨200, encode (optionsValue options)⟩) :
    c.getDimensionOptions api a filterID name = (optionsValue options, none) := by
  have bytes :
      c.getDimensionOptionsBytes api a filterID name = .ok (encode (optionsValue options)) := by
    simp only [getDimensionOptionsBytes, callOrNoContent]
    rw [send_of_answer api request answer]
    rfl
  rw [getDimensionOptions, bytes]
  simp only [unmarshal, encode_parses, decodeValue_toJson_of_inRange filterTypes [] _ _
    (optionsValue_hasType options) (intsInRange_of_intFree _ (optionsValue_intFree options))
    (.slice none) rfl, Option.map_none']

/-- The options `M` and `F` of dimension `sex`. -/
def sexOptions : List DimensionOption :=
  [⟨"http://localhost:8082/filters/f1/dimensions/sex/options/M".toList, "M".toList⟩,
    ⟨"http://localhost:8082/filters/f1/dimensions/sex/options/F".toList, "F".toList⟩]

theorem sex_options_read :
    newRequestURL (localClient.uri [ascii "filters", ascii "f1", ascii "dimensions", ascii "sex",
        ascii "options"]) = .ok sexOptionsURL ∧
      answering 200 (encode (optionsValue (some sexOptions)))
          ⟨.get, sexOptionsURL, userAuth.headers, []⟩ =
        some ⟨200, encode (optionsValue (some sexOptions))⟩ ∧
      localClient.getDimensionOptions (answering 200 (encode (optionsValue (some sexOptions))))
          userAuth (ascii "f1") (ascii "sex") = (optionsValue (some sexOptions), none) :=
  ⟨sexOptions_request, rfl,
    getDimensionOptions_encoded _ _ _ (some sexOptions) sexOptions_request rfl⟩

/-- When the filter API answers `200` with what a Go encoder writes for a preview whose counts
are `int`s, `GetPreview` returns that preview with no error. -/
theorem getPreview_encoded {filterOutputID : List UInt8} {url : URL} (p : Preview)
    (range : inIntRange p.numberOfRows ∧ inIntRange p.numberOfColumns)
    (request : newRequestURL (c.uri [ascii "filter-outputs", filterOutputID, ascii "preview"]) =
      .ok url)
    (answer : api ⟨.get, url, a.downloadHeaders, []⟩ = some ⟨200, encode p.value⟩) :
    c.getPreview api a filterOutputID = (p.value, none) := by
  have bytes : c.getPreviewBytes api a filterOutputID = .ok (encode p.value) := by
    simp only [getPreviewBytes, call]
    rw [send_of_answer api request answer]
    rfl
  rw [getPreview, bytes]
  simp only [unmarshal, encode_parses, decodeValue_toJson_of_inRange filterTypes [] _ _
    p.value_hasType (Preview.value_intsInRange range) _ (zero_shaped filterTypes _),
    Option.map_none']

/-- Two rows of a table with the columns `sex` and `count`. -/
def samplePreview : Preview :=
  ⟨some ["sex".toList, "count".toList], 2, 2,
    some [some ["M".toList, "5".toList], some ["F".toList, "-1".toList]]⟩

/-- The URL of the request for the preview of filter output `o1`. -/
def previewURL : URL :=
  { scheme := ascii "http", host := Zebedee.localhost.bytes,
    path := ascii "/filter-outputs/o1/preview" }

theorem preview_request :
    newRequestURL (localClient.uri [ascii "filter-outputs", ascii "o1", ascii "preview"]) =
      .ok previewURL := rfl

theorem sample_preview_read :
    (inIntRange samplePreview.numberOfRows ∧ inIntRange samplePreview.numberOfColumns) ∧
      newRequestURL (localClient.uri [ascii "filter-outputs", ascii "o1", ascii "preview"]) =
        .ok previewURL ∧
      answering 200 (encode samplePreview.value)
          ⟨.get, previewURL, userAuth.downloadHeaders, []⟩ =
        some ⟨200, encode samplePreview.value⟩ ∧
      localClient.getPreview (answering 200 (encode samplePreview.value)) userAuth (ascii "o1") =
        (samplePreview.value, none) :=
  ⟨by decide, preview_request, rfl,
    getPreview_encoded _ _ _ samplePreview (by decide) preview_request rfl⟩

end Client

/-! ## The body of AddDimensionValues -/

namespace Client

variable (c : Client) (a : Auth)

/-- `AddDimensionValues` sends one `POST` to the dimension's URI whose body is the JSON object
`{"options": …}` with the options as strings in order, `null` for a nil slice, and it succeeds
exactly when the filter API answers `201`. -/
theorem addDimensionValues_request {filterID name : List UInt8} {url : URL}
    (options : Option (List (List Char)))
    (request : newRequestURL (c.uri [ascii "filters", filterID, ascii "dimensions", name]) =
      .ok url) :
    ∃ body, Json.parse body = some (.object [("options".toList,
        (options.map fun os => JsonValue.array (os.map .string)).getD .null)]) ∧
      c.addDimensionValues api a filterID name options =
        match api ⟨.post, url, a.headers, body⟩ with
        | none => .error .call
        | some resp => if resp.status = 201 then .ok ()
          else .error (.invalidResponse
            ⟨201, resp.status, c.uri [ascii "filters", filterID, ascii "dimensions", name]⟩
            true) := by
  refine ⟨encodeValue (.struct [("options".toList, stringsValue options)]), ?_, ?_⟩
  · rw [marshal_parses]
    cases options with
    | none => rfl
    | some os => simp [GoValue.toJson, toJsonEntries, stringsValue, toJsonItems_eq]
  · simp only [addDimensionValues, call, send, request]
    cases api _ with
    | none => rfl
    | some resp =>
      simp only [bind, Except.bind]
      by_cases created : resp.status = 201
      · rw [if_neg (not_not.mpr created), if_pos created]
        rfl
      · rw [if_pos created, if_neg created]
        rfl

/-- The URL of the requests about dimension `sex` of filter `f1`. -/
def sexDimensionURL : URL :=
  { scheme := ascii "http", host := Zebedee.localhost.bytes,
    path := ascii "/filters/f1/dimensions/sex" }

theorem sexDimension_request :
    newRequestURL (localClient.uri [ascii "filters", ascii "f1", ascii "dimensions",
      ascii "sex"]) = .ok sexDimensionURL := rfl

theorem sex_values_request :
    newRequestURL (localClient.uri [ascii "filters", ascii "f1", ascii "dimensions",
        ascii "sex"]) = .ok sexDimensionURL ∧
      ∃ body, Json.parse body = some (.object [("options".toList,
          ((some ["M".toList, "F".toList]).map fun os => JsonValue.array (os.map .string)).getD
            .null)]) ∧
        localClient.addDimensionValues (answering 201 []) userAuth (ascii "f1") (ascii "sex")
            (some ["M".toList, "F".toList]) =
          match answering 201 [] ⟨.post, sexDimensionURL, userAuth.headers, body⟩ with
          | none => .error .call
          | some resp => if resp.status = 201 then .ok ()
            else .error (.invalidResponse ⟨201, resp.status, localClient.uri [ascii "filters",
              ascii "f1", ascii "dimensions", ascii "sex"]⟩ true) :=
  ⟨sexDimension_request, addDimensionValues_request _ _ _ _ sexDimension_request⟩

end Client

/-! ## Where the requests go -/

/-- For a client URL `scheme://host` and segments with no `/`, `?`, `#`, `%` or control byte, the
request to `Client.uri` goes to that scheme and host with no query, and its path splits at `/`
into exactly the segments: the filter API reads each argument of a call as one segment. -/
theorem uri_request {scheme : List UInt8} (host : HostPort)
    (schemeLower : scheme ≠ [] ∧ ∀ c ∈ scheme, isLower c) {segments : List (List UInt8)}
    (plain : ∀ seg ∈ segments, ∀ b ∈ seg, isCTL b = false ∧ b ≠ '/'.toUInt8 ∧
      b ≠ '?'.toUInt8 ∧ b ≠ '#'.toUInt8 ∧ b ≠ '%'.toUInt8) :
    ∃ url,
      newRequestURL (Client.uri ⟨scheme ++ ascii "://" ++ host.bytes⟩ segments) = .ok url ∧
      url.scheme = scheme ∧ url.host = host.bytes ∧ url.rawQuery = [] ∧
      url.path.splitOn '/'.toUInt8 = [] :: segments := by
  let path := segments.flatMap ('/'.toUInt8 :: ·)
  have pathBytes : ∀ b ∈ path, (isCTL b = false ∧ b ≠ '?'.toUInt8 ∧ b ≠ '#'.toUInt8) ∧
      b ≠ '%'.toUInt8 := by
    intro b mem
    obtain ⟨seg, inSegments, inSeg⟩ := List.mem_flatMap.mp mem
    rcases List.mem_cons.mp inSeg with rfl | inSeg
    · decide
    · obtain ⟨control, -, mark, hash, percent⟩ := plain seg inSegments b inSeg
      exact ⟨⟨control, mark, hash⟩, percent⟩
  have rooted : path = [] ∨ path.head? = some '/'.toUInt8 := by
    cases segments with
    | nil => exact .inl rfl
    | cons seg _ => exact .inr rfl
  have request := @newRequestURL_hostPath scheme host path path [] schemeLower rooted
    (fun b mem => (pathBytes b mem).1)
    (unescape_of_plain fun b mem => ⟨(pathBytes b mem).2, by simp, by simp⟩) (by simp)
  rw [if_pos rfl, List.append_nil] at request
  have split : ([] ++ segments.flatMap fun seg => '/'.toUInt8 :: id seg).splitOn '/'.toUInt8 =
      [] :: segments.map id :=
    Strings.splitOn_append_flatMap (List.not_mem_nil _) id fun seg mem slash =>
      (plain seg mem _ slash).2.1 rfl
  exact ⟨_, request, rfl, rfl, rfl, by simpa using split⟩

theorem option_value_segments :
    ((ascii "http" ≠ [] ∧ ∀ c ∈ ascii "http", isLower c) ∧
      ∀ seg ∈ [ascii "filters", ascii "f1", ascii "dimensions", ascii "sex", ascii "options",
          ascii "M"], ∀ b ∈ seg, isCTL b = false ∧ b ≠ '/'.toUInt8 ∧ b ≠ '?'.toUInt8 ∧
        b ≠ '#'.toUInt8 ∧ b ≠ '%'.toUInt8) ∧
    ∃ url, newRequestURL (Client.uri ⟨ascii "http" ++ ascii "://" ++ Zebedee.localhost.bytes⟩
        [ascii "filters", ascii "f1", ascii "dimensions", ascii "sex", ascii "options",
          ascii "M"]) = .ok url ∧
      url.scheme = ascii "http" ∧ url.host = Zebedee.localhost.bytes ∧ url.rawQuery = [] ∧
      url.path.splitOn '/'.toUInt8 =
        [[], ascii "filters", ascii "f1", ascii "dimensions", ascii "sex", ascii "options",
          ascii "M"] :=
  ⟨⟨by decide, by decide⟩, uri_request Zebedee.localhost (by decide) (by decide)⟩

end DpApiClients.Filter
