import DpApiClients.Url.Request

/-!
# The URL of the Cantabular codebook request

`GetCodebook` writes its request URL with `fmt.Sprintf`: the host, `/v8/codebook/`, the dataset
name, `?cats=` and the categories flag, then `&v=` and a variable for each variable in turn.
Nothing is escaped, so a variable holding `&` adds a parameter
(`variable_ampersand_adds_parameter`). `c.httpGet` makes a GET request of that URL, which parses
it as `http.NewRequest` does.

For a dataset name with no control byte and none of `/`, `?`, `#` and `%`, and variables with no
control byte and none of `#`, `&`, `;`, `%` and `+`, `getCodebook_request` says that the request
goes to the client's scheme and host at `/v8/codebook/<DatasetName>`, the name one path segment,
and that its query decodes to exactly `cats` and the variables, in their order.
-/

namespace DpApiClients.Cantabular

open Url

/-- The fields of `GetCodebookRequest` that `GetCodebook` reads. -/
structure GetCodebookRequest where
  datasetName : List UInt8
  /-- `Variables`; the word is a keyword of Lean. -/
  variableNames : List (List UInt8)
  categories : Bool

/-- `Client`, with the host its requests go to. -/
structure Client where
  host : List UInt8

/-- `%v` of a `bool`. -/
def formatBool : Bool → List UInt8
  | true => ascii "true"
  | false => ascii "false"

/-- The URL `GetCodebook` requests. -/
def Client.getCodebookURL (c : Client) (req : GetCodebookRequest) : List UInt8 :=
  let vars := req.variableNames.foldl (fun vars v => vars ++ ascii "&v=" ++ v) []
  c.host ++ ascii "/v8/codebook/" ++ req.datasetName ++ ascii "?cats=" ++
    formatBool req.categories ++ vars

/-- The error `GetCodebook` returns when `httpGet` fails: the text in front of its cause and the
status `dperrors.New` gives it. -/
structure ClientError where
  message : String
  status : Nat
  cause : Url.Error

/-- The request `GetCodebook` sends. -/
def Client.getCodebook (c : Client) (req : GetCodebookRequest) : Except ClientError URL :=
  match newRequestURL (c.getCodebookURL req) with
  | .error err => .error ⟨"failed to get response from Cantabular API", 500, err⟩
  | .ok url => .ok url

/-- The loop that writes the variables appends one `&v=<variable>` for each of them. -/
theorem foldl_vars (vars : List (List UInt8)) (acc : List UInt8) :
    vars.foldl (fun vars v => vars ++ ascii "&v=" ++ v) acc =
      acc ++ vars.flatMap fun v => '&'.toUInt8 :: (ascii "v" ++ '='.toUInt8 :: v) := by
  induction vars generalizing acc with
  | nil => simp
  | cons v vars ih =>
    rw [List.foldl_cons, ih, List.flatMap_cons, List.append_assoc, List.append_assoc]
    rfl

theorem getCodebookURL_eq (c : Client) (req : GetCodebookRequest) :
    c.getCodebookURL req = c.host ++ (ascii "/v8/codebook/" ++ req.datasetName) ++ '?'.toUInt8 ::
      ((ascii "cats" ++ '='.toUInt8 :: formatBool req.categories) ++
        req.variableNames.flatMap fun v => '&'.toUInt8 :: (ascii "v" ++ '='.toUInt8 :: v)) := by
  rw [Client.getCodebookURL, foldl_vars, List.nil_append]
  simp only [List.append_assoc]
  rfl

/-- A variable `city&cats=true` with the flag off: the query holds `cats` twice, and the
variable is read as `city`. -/
theorem variable_ampersand_adds_parameter :
    ((Client.getCodebook ⟨ascii "http://h"⟩ ⟨ascii "d", [ascii "city&cats=true"], false⟩).toOption.map
      fun url => ((parseQuery url.rawQuery).1.get (ascii "cats"),
        (parseQuery url.rawQuery).1.get (ascii "v"))) =
      some ([ascii "false", ascii "true"], [ascii "city"]) := by
  decide

/-- With no `/` in the dataset name, the path has the segments `v8`, `codebook` and the name. -/
theorem splitOn_codebookPath {name : List UInt8} (noSlash : '/'.toUInt8 ∉ name) :
    (ascii "/v8/codebook/" ++ name).splitOn '/'.toUInt8 =
      [[], ascii "v8", ascii "codebook", name] := by
  have shape : ascii "/v8/codebook/" ++ name =
      [] ++ '/'.toUInt8 :: (ascii "v8" ++ '/'.toUInt8 :: (ascii "codebook" ++ '/'.toUInt8 :: name)) :=
    rfl
  rw [shape, Strings.splitOn_append_cons, Strings.splitOn_append_cons,
    Strings.splitOn_append_cons, Strings.splitOn_of_not_mem noSlash]
  rfl

/-- The parameters `GetCodebook` should send: the `cats` flag and a `v` for each variable. -/
def codebookParameters (req : GetCodebookRequest) : List (List UInt8 × List UInt8) :=
  (ascii "cats", formatBool req.categories) :: req.variableNames.map fun v => (ascii "v", v)

/-- The query of `GetCodebook`, for variables with none of `&`, `;`, `%` and `+`, decodes to
its parameters, with no error. -/
theorem parseQuery_codebook (req : GetCodebookRequest)
    (plain : ∀ v ∈ req.variableNames, ∀ b ∈ v,
      b ≠ '&'.toUInt8 ∧ b ≠ ';'.toUInt8 ∧ b ≠ '%'.toUInt8 ∧ b ≠ '+'.toUInt8) :
    parseQuery ((ascii "cats" ++ '='.toUInt8 :: formatBool req.categories) ++
        req.variableNames.flatMap fun v => '&'.toUInt8 :: (ascii "v" ++ '='.toUInt8 :: v)) =
      ((codebookParameters req).foldl (fun m pair => Values.add m pair.1 pair.2) Values.empty,
        none) := by
  have cats : '&'.toUInt8 ∉ ascii "cats" ++ '='.toUInt8 :: formatBool req.categories := by
    cases req.categories <;> decide
  have each : ∀ v ∈ req.variableNames, '&'.toUInt8 ∉ ascii "v" ++ '='.toUInt8 :: v := fun v mem => by
    simp only [List.mem_append, List.mem_cons, not_or]
    exact ⟨by decide, by decide, fun inV => (plain v mem _ inV).1 rfl⟩
  have catsItem := @reads_keyValue (ascii "cats") (formatBool req.categories)
    (ascii "cats", formatBool req.categories) (by decide) (by decide)
    (by cases req.categories <;> decide) rfl (by cases req.categories <;> rfl)
  have reads := parseItems_reads ((ascii "cats" ++ '='.toUInt8 :: formatBool req.categories,
      ascii "cats", formatBool req.categories) ::
      req.variableNames.map fun v => (ascii "v" ++ '='.toUInt8 :: v, ascii "v", v))
    (fun item mem => by
      rcases List.mem_cons.mp mem with rfl | inVariables
      · exact catsItem
      · obtain ⟨v, inV, rfl⟩ := List.mem_map.mp inVariables
        exact @reads_keyValue (ascii "v") v (ascii "v", v) (by decide) (by decide)
          (fun semicolon => (plain v inV _ semicolon).2.1 rfl) rfl
          (unescape_of_plain fun b mem => ⟨(plain v inV b mem).2.2.1,
            fun plus => absurd plus (plain v inV b mem).2.2.2,
            fun host => by rcases host with h | h <;> cases h⟩))
    Values.empty none
  rw [parseQuery, Strings.splitOn_append_flatMap cats _ each]
  simpa only [List.map_cons, List.map_map, Function.comp_def] using reads

theorem get_codebookParameters (req : GetCodebookRequest) (key : List UInt8) :
    ((codebookParameters req).foldl (fun m pair => Values.add m pair.1 pair.2)
      Values.empty).get key =
      if key = ascii "cats" then [formatBool req.categories]
      else if key = ascii "v" then req.variableNames else [] := by
  have distinct : ascii "v" ≠ ascii "cats" := by decide
  rw [Values.get_foldl_add, Values.get_empty, List.nil_append, codebookParameters]
  by_cases cats : key = ascii "cats"
  · subst cats
    simp [List.filter_cons, List.filter_map, Function.comp_def, distinct, distinct.symm]
  · by_cases v : key = ascii "v"
    · subst v
      simp [List.filter_cons, List.filter_map, Function.comp_def, distinct, distinct.symm]
    · simp [List.filter_map, Function.comp_def, cats, v, Ne.symm cats, Ne.symm v]

section Request

variable {scheme : List UInt8} (host : HostPort)
  (schemeLower : scheme ≠ [] ∧ ∀ c ∈ scheme, isLower c) (req : GetCodebookRequest)
  (namePlain : ∀ b ∈ req.datasetName, isCTL b = false ∧ b ≠ '?'.toUInt8 ∧ b ≠ '#'.toUInt8 ∧
    b ≠ '%'.toUInt8 ∧ b ≠ '/'.toUInt8)
  (variablesPlain : ∀ v ∈ req.variableNames, ∀ b ∈ v, isCTL b = false ∧ b ≠ '#'.toUInt8 ∧
    b ≠ '&'.toUInt8 ∧ b ≠ ';'.toUInt8 ∧ b ≠ '%'.toUInt8 ∧ b ≠ '+'.toUInt8)
include schemeLower namePlain variablesPlain

/-- For a dataset name and variables with no byte that ends a path segment or a parameter, the
request of `GetCodebook` goes to the client's scheme and host at `/v8/codebook/<DatasetName>`,
and its query decodes to exactly the `cats` flag and the variables, in their order. -/
theorem getCodebook_request :
    ∃ url, Client.getCodebook ⟨scheme ++ ascii "://" ++ host.bytes⟩ req = .ok url ∧
      url.scheme = scheme ∧ url.host = host.bytes ∧
      url.path = ascii "/v8/codebook/" ++ req.datasetName ∧
      url.path.splitOn '/'.toUInt8 = [[], ascii "v8", ascii "codebook", req.datasetName] ∧
      (parseQuery url.rawQuery).2 = none ∧
      ∀ key, (parseQuery url.rawQuery).1.get key =
        if key = ascii "cats" then [formatBool req.categories]
        else if key = ascii "v" then req.variableNames else [] := by
  let path := ascii "/v8/codebook/" ++ req.datasetName
  let query := (ascii "cats" ++ '='.toUInt8 :: formatBool req.categories) ++
    req.variableNames.flatMap fun v => '&'.toUInt8 :: (ascii "v" ++ '='.toUInt8 :: v)
  have pathPlain : ∀ c ∈ path,
      isCTL c = false ∧ c ≠ '?'.toUInt8 ∧ c ≠ '#'.toUInt8 ∧ c ≠ '%'.toUInt8 := by
    intro c mem
    simp only [path, List.mem_append] at mem
    rcases mem with codebook | inName
    · revert c; decide
    · exact ⟨(namePlain c inName).1, (namePlain c inName).2.1, (namePlain c inName).2.2.1,
        (namePlain c inName).2.2.2.1⟩
  have queryBytes : ∀ c ∈ query, isCTL c = false ∧ c ≠ '#'.toUInt8 := by
    intro c mem
    simp only [query, List.mem_append, List.mem_flatMap] at mem
    rcases mem with (catsKey | catsValue) | ⟨v, inVariables, inItem⟩
    · revert c; decide
    · revert c; cases req.categories <;> decide
    · simp only [List.mem_cons, List.mem_append] at inItem
      rcases inItem with rfl | vKey | rfl | inV
      · decide
      · revert c; decide
      · decide
      · exact ⟨(variablesPlain v inVariables c inV).1, (variablesPlain v inVariables c inV).2.1⟩
  have url : Client.getCodebookURL ⟨scheme ++ ascii "://" ++ host.bytes⟩ req =
      scheme ++ ascii "://" ++ host.bytes ++ path ++
        if query = [] then [] else '?'.toUInt8 :: query := by
    rw [if_neg (List.append_ne_nil_of_left_ne_nil (by simp) _), getCodebookURL_eq]
  have parsed := parseQuery_codebook req fun v mem b inV => (variablesPlain v mem b inV).2.2
  rw [Client.getCodebook, url, newRequestURL_hostPath host schemeLower
    (.inr (show path.head? = _ from rfl))
    (fun c mem => ⟨(pathPlain c mem).1, (pathPlain c mem).2.1, (pathPlain c mem).2.2.1⟩)
    (unescape_of_plain fun c mem => ⟨(pathPlain c mem).2.2.2, fun _ => by decide,
      fun host => by rcases host with h | h <;> cases h⟩) queryBytes]
  refine ⟨_, rfl, rfl, rfl, rfl,
    splitOn_codebookPath fun slash => (namePlain _ slash).2.2.2.2 rfl, ?_, fun key => ?_⟩
  · exact congrArg Prod.snd parsed
  · exact (congrArg (fun r => r.1.get key) parsed).trans (get_codebookParameters req key)

end Request

/-- The host `localhost:8491`. -/
def localhost : HostPort :=
  ⟨ascii "localhost", ascii "8491", by decide, by decide, by decide⟩

theorem teaching_dataset_codebook_request :
    ∃ url, Client.getCodebook ⟨ascii "http" ++ ascii "://" ++ localhost.bytes⟩
        ⟨ascii "Teaching-Dataset", [ascii "city", ascii "siblings"], true⟩ = .ok url ∧
      url.scheme = ascii "http" ∧ url.host = localhost.bytes ∧
      url.path = ascii "/v8/codebook/" ++ ascii "Teaching-Dataset" ∧
      url.path.splitOn '/'.toUInt8 =
        [[], ascii "v8", ascii "codebook", ascii "Teaching-Dataset"] ∧
      (parseQuery url.rawQuery).2 = none ∧
      ∀ key, (parseQuery url.rawQuery).1.get key =
        if key = ascii "cats" then [formatBool true]
        else if key = ascii "v" then [ascii "city", ascii "siblings"] else [] :=
  getCodebook_request localhost (by decide)
    ⟨ascii "Teaching-Dataset", [ascii "city", ascii "siblings"], true⟩ (by decide) (by decide)

end DpApiClients.Cantabular
