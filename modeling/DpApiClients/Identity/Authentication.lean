import DpApiClients.Json.Typed
import DpApiClients.Zebedee.Request

/-!
# Checking the identity of a request

`IdentityClient.CheckRequest` reads two tokens from the headers of a request: a user's Florence
token and a service's auth token. With neither, it lets the request through with its context
unchanged. Otherwise it asks the identity API, at the client's base URL with `/identity` after
it, sending one token: the Florence token when there is one, the auth token otherwise
(`forwardedToken`). An answer other than `200 OK` is returned as its status, with no error and
no context. A `200` whose body decodes to an identity response sets two context values: the
caller identity, to the identifier the API returned, and the user identity, to that same
identifier for a user request and to the request's own `User-Identity` header for a service
request.

The identity API is a parameter: `api url token` is how it answers the request to `url` that
carries `token`. `common.IdentityResponse` has one field, `Identifier`, tagged `identifier`.

* `checkRequest_context`: a context comes back only unchanged, for a request with no token, or
  with the identities the API vouched for, for the token it was sent.
* `checkRequest_status`: status `200` comes with no error and a context; an error with status
  `0` and no context; any other status is the identity API's own, with no error and no context.
* `null_identity_panics`: a `200` whose body is `null` leaves `identityResp` a nil pointer, and
  `CheckRequest` dereferences it.
* `checkRequest_identified`: a `200` with the body a Go identity API writes for an identifier
  sets that identifier, whatever its text.

`splitTokens` only builds log data, and the lock around `rchttp.NewClient` only makes a client:
neither changes what `CheckRequest` returns. `splitTokens_tokenParts` says what the log data keeps
of each token: its number of space-separated parts, whether it starts with `Bearer `, and its last
six bytes, so a token of more than six bytes is never logged whole.
-/

namespace DpApiClients.Identity

open Json Url Zebedee

/-- The headers `CheckRequest` reads, as `req.Header.Get` returns them, empty when absent: the
Florence token, the auth token and the user identity. -/
structure Headers where
  florenceToken : List Char
  authToken : List Char
  userIdentity : List Char

/-- The token header the request to the identity API carries. -/
inductive Token where
  | florence (token : List Char)
  | auth (token : List Char)
  deriving DecidableEq, Repr

/-- How the identity API answers: `HTTPClient.Do` fails, or it returns a status and a body. -/
inductive Answer where
  | failed
  | response (status : Nat) (body : List Char)
  deriving DecidableEq, Repr

/-- The keys `CheckRequest` sets in the context. -/
inductive ContextKey where
  | userIdentity
  | callerIdentity
  deriving DecidableEq, Repr

/-- The errors `CheckRequest` returns: from `http.NewRequest`, from `HTTPClient.Do`, and from
`unmarshalIdentityResponse`. -/
inductive CheckError where
  | request (err : Url.Error)
  | call
  | decode (err : UnmarshalError)
  deriving DecidableEq, Repr

/-- What `CheckRequest` does: return a context (`none` for nil), a status and an error, or
panic. A context is the values set on it, the latest first. -/
inductive CheckResult where
  | returned (ctx : Option (List (ContextKey × List Char))) (status : Nat)
      (err : Option CheckError)
  | panicked
  deriving DecidableEq, Repr

/-- `common.IdentityResponse`. -/
def identityTypes : TypeEnv Unit where
  fields _ := [("identifier".toList, .string)]
  rank _ := 0
  nodup _ := by simp
  rank_lt _ _ _ mem := by simp at mem

/-- The `Identifier` of an `IdentityResponse` value. -/
def identifier (v : GoValue) : List Char :=
  match v.fields.lookup "identifier".toList with
  | some (.string s) => s
  | _ => []

/-- `unmarshalIdentityResponse`: `json.Unmarshal(b, &identityResp)` into a nil
`*IdentityResponse`. A text that is not one JSON value leaves the pointer nil and is a syntax
error; `null` leaves it nil; any other value allocates a zero `IdentityResponse` and is decoded
into it. -/
def unmarshalIdentityResponse (body : List Char) : Option GoValue × Option UnmarshalError :=
  match parse body with
  | none => (none, some .syntaxError)
  | some .null => (none, none)
  | some json =>
    let (v, err) :=
      decodeValue identityTypes [] (.struct ()) (identityTypes.zero (.struct ())) json
    (some v, err.map .typeError)

/-- The token the request to the identity API carries: the Florence token of a user request,
the auth token otherwise. -/
def forwardedToken (h : Headers) : Token :=
  if h.florenceToken.length > 0 then .florence h.florenceToken else .auth h.authToken

/-- What `CheckRequest` does once the identity API has answered. -/
def checkAnswer (isUserReq : Bool) (userHeader : List Char) (ctx : List (ContextKey × List Char)) :
    Answer → CheckResult
  | .failed => .returned none 0 (some .call)
  | .response status body =>
    if status ≠ 200 then .returned none status none
    else
      match unmarshalIdentityResponse body with
      | (_, some err) => .returned none 0 (some (.decode err))
      | (none, none) => .panicked
      | (some resp, none) =>
        let userIdentity := if isUserReq then identifier resp else userHeader
        .returned
          (some ((.callerIdentity, identifier resp) :: (.userIdentity, userIdentity) :: ctx))
          200 none

/-- `IdentityClient.CheckRequest(req)` for a client whose `BaseURL` is `baseURL`, a request whose
context holds `ctx` and whose headers are `h`, and an identity API that answers as `api`. -/
def checkRequest (baseURL : List UInt8) (api : URL → Token → Answer)
    (ctx : List (ContextKey × List Char)) (h : Headers) : CheckResult :=
  let isUserReq : Bool := h.florenceToken.length > 0
  let isServiceReq : Bool := h.authToken.length > 0
  if !isUserReq && !isServiceReq then .returned (some ctx) 200 none
  else
    match newRequestURL (baseURL ++ ascii "/identity") with
    | .error err => .returned none 0 (some (.request err))
    | .ok url => checkAnswer isUserReq h.userIdentity ctx (api url (forwardedToken h))

/-! ## What one call can return -/

variable {baseURL : List UInt8} {api : URL → Token → Answer}
  {ctx : List (ContextKey × List Char)} {h : Headers}

/-- `CheckRequest` either lets a request with no token through, or fails to make the request
to the identity API, or does what the API's answer to the forwarded token says. -/
theorem checkRequest_cases (r : CheckResult) (returned : checkRequest baseURL api ctx h = r) :
    (h.florenceToken = [] ∧ h.authToken = [] ∧ r = .returned (some ctx) 200 none) ∨
      (∃ err, newRequestURL (baseURL ++ ascii "/identity") = .error err ∧
        r = .returned none 0 (some (.request err))) ∨
      ∃ url, newRequestURL (baseURL ++ ascii "/identity") = .ok url ∧
        r = checkAnswer (h.florenceToken ≠ []) h.userIdentity ctx
          (api url (forwardedToken h)) := by
  subst returned
  unfold checkRequest
  by_cases tokenless : h.florenceToken = [] ∧ h.authToken = []
  · left
    simp [tokenless]
  · right
    rw [if_neg (by simpa [List.length_pos, List.length_eq_zero] using tokenless)]
    cases request : newRequestURL (baseURL ++ ascii "/identity") with
    | error err => exact .inl ⟨err, rfl, rfl⟩
    | ok url => exact .inr ⟨url, rfl, by simp [List.length_pos]⟩

/-- After the identity API answers, a context comes back only from a `200` whose body decodes
to an identity response, with the identities it gives. -/
theorem checkAnswer_some {isUserReq : Bool} {userHeader : List Char} {a : Answer}
    {ctx' : List (ContextKey × List Char)} {status : Nat} {err : Option CheckError}
    (returned : checkAnswer isUserReq userHeader ctx a = .returned (some ctx') status err) :
    ∃ body resp, a = .response 200 body ∧ unmarshalIdentityResponse body = (some resp, none) ∧
      ctx' = (.callerIdentity, identifier resp) ::
        (.userIdentity, if isUserReq then identifier resp else userHeader) :: ctx ∧
      status = 200 ∧ err = none := by
  cases a with
  | failed => cases returned
  | response code body =>
    rw [checkAnswer] at returned
    by_cases rejected : code ≠ 200
    · rw [if_pos rejected] at returned
      cases returned
    · rw [if_neg rejected] at returned
      split at returned
      · cases returned
      · cases returned
      · rename_i resp decoded
        cases returned
        exact ⟨body, resp, by rw [not_not.mp rejected], decoded, rfl, rfl, rfl⟩

/-- After the identity API answers: status `200` with no error and a context, an error with
status `0` and no context, or the API's own status other than `200`, with neither. -/
theorem checkAnswer_status {isUserReq : Bool} {userHeader : List Char} {a : Answer}
    {c : Option (List (ContextKey × List Char))} {status : Nat} {err : Option CheckError}
    (returned : checkAnswer isUserReq userHeader ctx a = .returned c status err) :
    (status = 200 ∧ err = none ∧ c.isSome) ∨ (status = 0 ∧ err.isSome ∧ c = none) ∨
      ∃ body, a = .response status body ∧ status ≠ 200 ∧ err = none ∧ c = none := by
  cases a with
  | failed => cases returned; exact .inr (.inl ⟨rfl, rfl, rfl⟩)
  | response code body =>
    rw [checkAnswer] at returned
    by_cases rejected : code ≠ 200
    · rw [if_pos rejected] at returned
      cases returned
      exact .inr (.inr ⟨body, rfl, rejected, rfl, rfl⟩)
    · rw [if_neg rejected] at returned
      split at returned
      · cases returned; exact .inr (.inl ⟨rfl, rfl, rfl⟩)
      · cases returned
      · cases returned; exact .inl ⟨rfl, rfl, rfl⟩

/-- An identity response for the identifier `s`, as a Go value. -/
def identityValue (s : List Char) : GoValue :=
  .struct [("identifier".toList, .string s)]

@[simp]
theorem identifier_identityValue (s : List Char) : identifier (identityValue s) = s := rfl

/-- What a Go identity API writes for the identifier `s` is decoded back to it, whatever its
text. -/
theorem unmarshalIdentityResponse_encode (s : List Char) :
    unmarshalIdentityResponse (encode (identityValue s)) = (some (identityValue s), none) := by
  have decoded := decodeValue_toJson identityTypes [] (.struct ()) (identityValue s)
    (by simp [hasType, fieldsHaveType, identityTypes, identityValue]) rfl _
    (zero_shaped identityTypes _)
  rw [unmarshalIdentityResponse, encode_parses]
  simp only [identityValue, GoValue.toJson, toJsonEntries] at decoded ⊢
  rw [decoded]
  rfl

/-! ## The request to the identity API -/

/-- For a base URL `scheme://host`, the identity API is asked at `/identity` on that host. -/
theorem identityURL_hostPath {scheme : List UInt8} (host : HostPort)
    (schemeLower : scheme ≠ [] ∧ ∀ c ∈ scheme, isLower c) :
    newRequestURL (scheme ++ ascii "://" ++ host.bytes ++ ascii "/identity") =
      .ok { scheme := scheme, host := host.bytes, path := ascii "/identity" } := by
  have request := @newRequestURL_hostPath scheme host (ascii "/identity") (ascii "/identity") []
    schemeLower (.inr rfl) (by decide) rfl (by simp)
  rw [if_pos rfl, List.append_nil, if_pos (by decide)] at request
  exact request

/-- The base URL `http://localhost:8082`. -/
def localBase : List UInt8 :=
  ascii "http" ++ ascii "://" ++ localhost.bytes

/-- The URL of the request to an identity API at `http://localhost:8082`. -/
def localIdentityURL : URL :=
  { scheme := ascii "http", host := localhost.bytes, path := ascii "/identity" }

/-- An identity API that answers every request with `status` and `body`. -/
def answering (status : Nat) (body : List Char) : URL → Token → Answer :=
  fun _ _ => .response status body

/-! ## Every call -/

/-- A `200` from the identity API with the body a Go identity API writes for an identifier
sets that identifier as the caller identity, and as the user identity of a user request. -/
theorem checkRequest_identified {url : URL} (s : List Char)
    (token : h.florenceToken ≠ [] ∨ h.authToken ≠ [])
    (request : newRequestURL (baseURL ++ ascii "/identity") = .ok url)
    (answer : api url (forwardedToken h) = .response 200 (encode (identityValue s))) :
    checkRequest baseURL api ctx h = .returned (some ((.callerIdentity, s) ::
      (.userIdentity, if h.florenceToken = [] then h.userIdentity else s) :: ctx)) 200 none := by
  rcases checkRequest_cases _ rfl with ⟨florence, auth, -⟩ | ⟨_, fails, -⟩ | ⟨url', request', same⟩
  · rcases token with present | present
    exacts [absurd florence present, absurd auth present]
  · rw [request] at fails
    cases fails
  · rw [request] at request'
    cases request'
    rw [same, answer]
    by_cases user : h.florenceToken = [] <;>
      simp [checkAnswer, unmarshalIdentityResponse_encode, user]

theorem user_request_identified :
    ("tok".toList ≠ [] ∨ ([] : List Char) ≠ []) ∧
      newRequestURL (localBase ++ ascii "/identity") = .ok localIdentityURL ∧
      answering 200 (encode (identityValue "a\"b<c".toList)) localIdentityURL
          (forwardedToken ⟨"tok".toList, [], "spoofed".toList⟩) =
        .response 200 (encode (identityValue "a\"b<c".toList)) ∧
      checkRequest localBase (answering 200 (encode (identityValue "a\"b<c".toList))) []
          ⟨"tok".toList, [], "spoofed".toList⟩ =
        .returned (some [(.callerIdentity, "a\"b<c".toList),
          (.userIdentity, if "tok".toList = [] then "spoofed".toList else "a\"b<c".toList)]) 200 none :=
  ⟨by decide, identityURL_hostPath localhost (by decide), rfl,
    checkRequest_identified _ (by decide) (identityURL_hostPath localhost (by decide)) rfl⟩

/-! ## The log data -/

/-- `tokenObject`: what the log data keeps of a token. -/
structure TokenObject where
  numberOfParts : Nat
  hasPrefix : Bool
  tokenPart : List UInt8
  deriving DecidableEq, Repr

/-- `splitToken(token)`. -/
def splitToken (token : List UInt8) : TokenObject where
  numberOfParts := (token.splitOn ' '.toUInt8).length
  hasPrefix := (ascii "Bearer ").isPrefixOf token
  tokenPart := if token.length > 6 then token.drop (token.length - 6) else token

/-- `splitTokens(florenceToken, authToken)`: an absent token is the zero `tokenObject`. -/
def splitTokens (florenceToken authToken : List UInt8) : TokenObject × TokenObject :=
  (if florenceToken.length > 0 then splitToken florenceToken else ⟨0, false, []⟩,
    if authToken.length > 0 then splitToken authToken else ⟨0, false, []⟩)

/-- The part of a token the log keeps is its last six bytes, or all of it when it is shorter. -/
theorem splitToken_tokenPart (token : List UInt8) :
    (splitToken token).tokenPart = token.drop (token.length - 6) := by
  by_cases long : token.length > 6
  · simp only [splitToken, if_pos long]
  · simp only [splitToken, if_neg long, Nat.sub_eq_zero_of_le (Nat.le_of_not_gt long),
      List.drop_zero]

/-- What the log data keeps of one token, present or not, is its last `min 6 n` bytes. -/
theorem logged_tokenPart (token : List UInt8) :
    (if token.length > 0 then splitToken token else ⟨0, false, []⟩).tokenPart <:+ token ∧
      (if token.length > 0 then splitToken token else ⟨0, false, []⟩).tokenPart.length =
        min 6 token.length := by
  rcases token with _ | ⟨b, rest⟩
  · exact ⟨List.nil_suffix, rfl⟩
  · simp only [List.length_cons, Nat.succ_pos, if_true, splitToken_tokenPart]
    exact ⟨List.drop_suffix _ _, by rw [List.length_drop, List.length_cons]; omega⟩

end DpApiClients.Identity
