import DpApiClients.Cantabular.Codebook
import DpApiClients.Json.Typed

/-!
# The response of the Cantabular codebook request

Once `c.httpGet` has answered, `GetCodebook` turns any status but `200` into
`c.errorResponse(res)`, reads the body, and unmarshals it into a zero `GetCodebookResponse`. An
empty body is first replaced by the text `[response body empty]`, so that the error logged
shows it; that text is not JSON, so an empty `200` answer always ends in the
`failed to unmarshal response body` error with status `500`, whatever the response type
(`codebookResponse_empty`). A body a Go encoder wrote for a value of the response type, with its
`int`s in range, is read back as that value (`codebookResponse_encoded`).

`GetCodebookResponse` is not in the repository: the response type is a parameter, any struct
type of a `TypeEnv`. So is the Cantabular server, `api url` being its answer to a GET of `url`,
or `none` when `httpGet` fails.
-/

namespace DpApiClients.Cantabular

open Json Url

/-- What `c.httpGet` returns: the status and the body. -/
structure Response where
  status : Nat
  body : List Char
  deriving DecidableEq, Repr

/-- The errors of `GetCodebook`: the request could not be made, `httpGet` failed (both
`failed to get response from Cantabular API`, status `500`), `errorResponse` of a status other
than `200`, or `failed to unmarshal response body`, status `500`. -/
inductive CodebookError where
  | request (err : ClientError)
  | call
  | errorResponse (status : Nat)
  | unmarshal (err : UnmarshalError)

/-- The text `GetCodebook` unmarshals in place of an empty body. -/
def emptyBody : List Char :=
  "[response body empty]".toList

section Response

variable {σ : Type} (env : TypeEnv σ) (t : GoType σ)

/-- `GetCodebook` from the answer of `httpGet` on. -/
def codebookResponse (res : Response) : Except CodebookError GoValue :=
  if res.status ≠ 200 then .error (.errorResponse res.status)
  else
    let b := if res.body.length = 0 then emptyBody else res.body
    match unmarshal env t b (env.zero t) with
    | (resp, none) => .ok resp
    | (_, some err) => .error (.unmarshal err)

/-- `GetCodebook`: the request, `httpGet`, then the answer. -/
def Client.getCodebookResult (api : URL → Option Response) (c : Client)
    (req : GetCodebookRequest) : Except CodebookError GoValue :=
  match c.getCodebook req with
  | .error err => .error (.request err)
  | .ok url =>
    match api url with
    | none => .error .call
    | some res => codebookResponse env t res

theorem parse_emptyBody : parse emptyBody = none := rfl

/-- An empty `200` answer is the syntax error of `json.Unmarshal` on `[response body empty]`,
whatever the response type. -/
theorem codebookResponse_empty :
    codebookResponse env t ⟨200, []⟩ = .error (.unmarshal .syntaxError) := by
  simp only [codebookResponse, unmarshal, parse_emptyBody]
  rfl

/-- A `200` answer whose body a Go encoder wrote for a value of the response type, with its
`int`s in range, is that value. -/
theorem codebookResponse_encoded (v : GoValue) (typed : hasType env t v)
    (range : v.intsInRange) : codebookResponse env t ⟨200, encode v⟩ = .ok v := by
  have nonempty : (encode v).length ≠ 0 := by simp [encode]
  simp only [codebookResponse, ne_eq, not_true_eq_false, if_false, nonempty, unmarshal,
    encode_parses, decodeValue_toJson_of_inRange env [] t v typed range _ (zero_shaped env t),
    Option.map_none']

variable {api : URL → Option Response} {c : Client} {req : GetCodebookRequest}

/-- A Cantabular client at `http://localhost:8082`. -/
def localCantabular : Client :=
  ⟨ascii "http" ++ ascii "://" ++ localhost.bytes⟩

/-- The codebook request for variable `city` of `Teaching-Dataset`, without categories. -/
def cityCodebookRequest : GetCodebookRequest :=
  ⟨ascii "Teaching-Dataset", [ascii "city"], false⟩

/-- The URL of `cityCodebookRequest`. -/
def cityCodebookURL : URL :=
  { scheme := ascii "http", host := localhost.bytes, path := ascii "/v8/codebook/Teaching-Dataset",
    rawQuery := ascii "cats=false&v=city" }

theorem cityCodebook_request :
    localCantabular.getCodebook cityCodebookRequest = .ok cityCodebookURL := rfl

/-- A codebook variable with a name, a label and a count, for a response of type
`[]Variable`. -/
def variableTypes : TypeEnv Unit where
  fields _ := [("name".toList, .string), ("label".toList, .string), ("len".toList, .int)]
  rank _ := 0
  nodup _ := by simp
  rank_lt _ _ _ mem := by simp at mem

/-- The codebook with the one variable `city` of three categories. -/
def cityCodebook : GoValue :=
  .slice (some [.struct [("name".toList, .string "city".toList),
    ("label".toList, .string "City".toList), ("len".toList, .int 3)]])

end Response

end DpApiClients.Cantabular
