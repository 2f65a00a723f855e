import DpApiClients.Url.Request

/-!
# The URLs of the zebedee client

`createRequestURL` builds a request path by hand: the collection ID of the context, when set,
as one more path segment, then `?` and the query escaped by `url.PathEscape`, then the locale of
the context, when set, as a `lang` parameter. `Client.get` puts the client's URL in front and
makes the request; `Client.getPageTitle` is the request of `GetPageTitle`.

`url.PathEscape` escapes for one path segment: it leaves `&`, `=` and `+` as they are. In a
query `&` separates parameters and `+` is a space, so a `uri` holding an `&` adds parameters to
the request of `GetPageTitle` (`getPageTitle_ampersand_splits_uri`). For a `uri` with no `&` and
no `+`, `getPageTitle_request` says that the request goes to `/data` or `/data/<collectionID>`
and that its query decodes to exactly `uri`, `title` and, when the locale is set, `lang`.
-/

namespace DpApiClients.Zebedee

open Url

/-- What `createRequestURL` reads from the request context: the collection ID and the locale,
when they are set. A value that is not a string reads as the empty string, which is what Go's
failed type assertion leaves. -/
structure RequestContext where
  collectionID : Option (List UInt8)
  locale : Option (List UInt8)

/-- `createRequestURL(ctx, path, query)`. -/
def createRequestURL (ctx : RequestContext) (path query : List UInt8) : List UInt8 :=
  let path :=
    match ctx.collectionID with
    | some collectionID => path ++ '/'.toUInt8 :: collectionID
    | none => path
  let path := path ++ '?'.toUInt8 :: pathEscape query
  match ctx.locale with
  | some localeCode => path ++ ascii "&lang=" ++ localeCode
  | none => path

/-- The zebedee `Client`, with the URL its requests go to. -/
structure Client where
  url : List UInt8

/-- The URL of the request `c.get` makes for `path`. -/
def Client.get (c : Client) (path : List UInt8) : Except Error URL :=
  newRequestURL (c.url ++ path)

/-- The request `GetPageTitle` sends for `uri`. -/
def Client.getPageTitle (c : Client) (ctx : RequestContext) (uri : List UInt8) :
    Except Error URL :=
  c.get (createRequestURL ctx (ascii "/data") (ascii "uri=" ++ uri ++ ascii "&title"))

theorem createRequestURL_eq (ctx : RequestContext) (path query : List UInt8) :
    createRequestURL ctx path query =
      (path ++ ctx.collectionID.elim [] ('/'.toUInt8 :: ·)) ++ '?'.toUInt8 ::
        (pathEscape query ++ ctx.locale.elim [] (ascii "&lang=" ++ ·)) := by
  cases ctx with
  | mk collectionID locale => cases collectionID <;> cases locale <;> simp [createRequestURL]

/-- With no collection ID and no locale, a `uri` of `a&b=c` is read as the parameters `uri=a`,
`b=c` and `title`. -/
theorem getPageTitle_ampersand_splits_uri :
    ((Client.getPageTitle ⟨ascii "http://localhost:8082"⟩ ⟨none, none⟩ (ascii "a&b=c")).toOption.map
      fun req => ((parseQuery req.rawQuery).1.get (ascii "uri"),
        (parseQuery req.rawQuery).1.get (ascii "b"),
        (parseQuery req.rawQuery).1.get (ascii "title"))) =
      some ([ascii "a"], [ascii "c"], [[]]) := by
  decide

theorem pathEscape_pageTitle (uri : List UInt8) :
    pathEscape (ascii "uri=" ++ uri ++ ascii "&title") =
      ascii "uri=" ++ pathEscape uri ++ ascii "&title" := by
  rw [pathEscape, escape_append, escape_append]
  rfl

/-- The parameters `GetPageTitle` should send: `uri`, the `title` flag, and `lang` when a
locale is set. -/
def pageTitleParameters (uri : List UInt8) (locale : Option (List UInt8)) :
    List (List UInt8 × List UInt8) :=
  [(ascii "uri", uri), (ascii "title", [])] ++ locale.elim [] fun l => [(ascii "lang", l)]

/-- The query of `GetPageTitle`, for a `uri` with no `&` and no `+` and a locale with none of
`&`, `;`, `%` and `+`, decodes to its parameters, with no error. -/
theorem parseQuery_pageTitle {uri : List UInt8} (noAmp : '&'.toUInt8 ∉ uri)
    (noPlus : '+'.toUInt8 ∉ uri) (locale : Option (List UInt8))
    (localePlain : ∀ l, locale = some l → ∀ b ∈ l,
      b ≠ '&'.toUInt8 ∧ b ≠ ';'.toUInt8 ∧ b ≠ '%'.toUInt8 ∧ b ≠ '+'.toUInt8) :
    parseQuery (ascii "uri=" ++ pathEscape uri ++ ascii "&title" ++
        locale.elim [] (ascii "&lang=" ++ ·)) =
      ((pageTitleParameters uri locale).foldl (fun m pair => m.add pair.1 pair.2) .empty, none) := by
  have escapedNoAmp : '&'.toUInt8 ∉ pathEscape uri := fun mem =>
    noAmp (mem_of_mem_escape mem (by decide) (by decide) (by decide))
  have escapedNoSemicolon : ';'.toUInt8 ∉ pathEscape uri :=
    not_mem_escape (by decide) (by decide) (by decide) uri
  have uriItem := @reads_keyValue (ascii "uri") (pathEscape uri) (ascii "uri", uri) (by decide)
    (by decide) escapedNoSemicolon rfl (queryUnescape_pathEscape noPlus)
  have titleItem : ';'.toUInt8 ∉ ascii "title" ∧ ascii "title" ≠ [] ∧
      queryUnescape (Strings.cut (ascii "title") '='.toUInt8).1 = .ok (ascii "title") ∧
      queryUnescape (Strings.cut (ascii "title") '='.toUInt8).2.1 = .ok [] :=
    ⟨by decide, by decide, rfl, rfl⟩
  have first : '&'.toUInt8 ∉ ascii "uri" ++ '='.toUInt8 :: pathEscape uri := by
    simp only [List.mem_append, List.mem_cons, not_or]
    exact ⟨by decide, by decide, escapedNoAmp⟩
  cases locale with
  | none =>
    have shape : ascii "uri=" ++ pathEscape uri ++ ascii "&title" ++ none.elim [] (ascii "&lang=" ++ ·) =
        (ascii "uri" ++ '='.toUInt8 :: pathEscape uri) ++ '&'.toUInt8 :: ascii "title" := by
      simp only [Option.elim, List.append_nil, List.append_assoc]
      rfl
    rw [parseQuery, shape, Strings.splitOn_append_cons, Strings.splitOn_of_not_mem first,
      Strings.splitOn_of_not_mem (by decide)]
    refine parseItems_reads [(ascii "uri" ++ '='.toUInt8 :: pathEscape uri, ascii "uri", uri),
      (ascii "title", ascii "title", [])] (fun item mem => ?_) .empty none
    simp only [List.mem_cons, List.mem_singleton, List.not_mem_nil, or_false] at mem
    rcases mem with rfl | rfl
    · exact uriItem
    · exact titleItem
  | some l =>
    have plain := localePlain l rfl
    have langItem := @reads_keyValue (ascii "lang") l (ascii "lang", l) (by decide) (by decide)
      (fun mem => (plain _ mem).2.1 rfl) rfl
      (unescape_of_plain fun b mem => ⟨(plain b mem).2.2.1,
        fun plus => absurd plus (plain b mem).2.2.2, fun host => by cases host <;> contradiction⟩)
    have lang : '&'.toUInt8 ∉ ascii "lang" ++ '='.toUInt8 :: l := by
      simp only [List.mem_append, List.mem_cons, not_or]
      exact ⟨by decide, by decide, fun mem => (plain _ mem).1 rfl⟩
    have shape : ascii "uri=" ++ pathEscape uri ++ ascii "&title" ++
        (some l).elim [] (ascii "&lang=" ++ ·) =
        (ascii "uri" ++ '='.toUInt8 :: pathEscape uri) ++ '&'.toUInt8 ::
          (ascii "title" ++ '&'.toUInt8 :: (ascii "lang" ++ '='.toUInt8 :: l)) := by
      simp only [Option.elim, List.append_assoc]
      rfl
    rw [parseQuery, shape, Strings.splitOn_append_cons, Strings.splitOn_append_cons,
      Strings.splitOn_of_not_mem first, Strings.splitOn_of_not_mem (by decide),
      Strings.splitOn_of_not_mem lang]
    refine parseItems_reads [(ascii "uri" ++ '='.toUInt8 :: pathEscape uri, ascii "uri", uri),
      (ascii "title", ascii "title", []), (ascii "lang" ++ '='.toUInt8 :: l, ascii "lang", l)]
      (fun item mem => ?_) .empty none
    simp only [List.mem_cons, List.mem_singleton, List.not_mem_nil, or_false] at mem
    rcases mem with rfl | rfl | rfl
    · exact uriItem
    · exact titleItem
    · exact langItem

theorem get_pageTitleParameters (uri : List UInt8) (locale : Option (List UInt8))
    (key : List UInt8) :
    ((pageTitleParameters uri locale).foldl (fun m pair => Values.add m pair.1 pair.2)
      Values.empty).get key =
      if key = ascii "uri" then [uri]
      else if key = ascii "title" then [[]]
      else if key = ascii "lang" then locale.elim [] ([·]) else [] := by
  have distinct : ascii "title" ≠ ascii "uri" ∧ ascii "lang" ≠ ascii "uri" ∧
      ascii "lang" ≠ ascii "title" := by decide
  rw [Values.get_foldl_add, Values.get_empty, List.nil_append]
  by_cases u : key = ascii "uri"
  · subst u
    cases locale <;> simp [pageTitleParameters, List.filter, distinct.1, distinct.2.1]
  by_cases t : key = ascii "title"
  · subst t
    cases locale <;> simp [pageTitleParameters, List.filter, distinct.1.symm, distinct.2.2, u]
  by_cases l : key = ascii "lang"
  · subst l
    cases locale <;> simp [pageTitleParameters, List.filter, distinct.2.1.symm, distinct.2.2.symm, u, t]
  · cases locale <;> simp [pageTitleParameters, List.filter, u, t, l, Ne.symm u, Ne.symm t, Ne.symm l]

section PageTitle

variable {scheme : List UInt8} (host : HostPort)
  (schemeLower : scheme ≠ [] ∧ ∀ c ∈ scheme, isLower c) (ctx : RequestContext)
  (collectionPlain : ∀ id, ctx.collectionID = some id →
    ∀ b ∈ id, isCTL b = false ∧ b ≠ '?'.toUInt8 ∧ b ≠ '#'.toUInt8 ∧ b ≠ '%'.toUInt8)
  (localePlain : ∀ l, ctx.locale = some l → ∀ b ∈ l, isCTL b = false ∧ b ≠ '#'.toUInt8 ∧
    b ≠ '&'.toUInt8 ∧ b ≠ ';'.toUInt8 ∧ b ≠ '%'.toUInt8 ∧ b ≠ '+'.toUInt8)
  {uri : List UInt8} (noAmp : '&'.toUInt8 ∉ uri) (noPlus : '+'.toUInt8 ∉ uri)
include schemeLower collectionPlain localePlain noAmp noPlus

/-- For a `uri` with no `&` and no `+`, the request of `GetPageTitle` goes to the client's
scheme and host, at `/data` or `/data/<collectionID>`, and its query decodes to exactly `uri`,
the `title` flag, and `lang` when the locale is set. -/
theorem getPageTitle_request :
    ∃ req, Client.getPageTitle ⟨scheme ++ ascii "://" ++ host.bytes⟩ ctx uri = .ok req ∧
      req.scheme = scheme ∧ req.host = host.bytes ∧
      req.path = ascii "/data" ++ ctx.collectionID.elim [] ('/'.toUInt8 :: ·) ∧
      (parseQuery req.rawQuery).2 = none ∧
      ∀ key, (parseQuery req.rawQuery).1.get key =
        if key = ascii "uri" then [uri]
        else if key = ascii "title" then [[]]
        else if key = ascii "lang" then ctx.locale.elim [] ([·]) else [] := by
  let path := ascii "/data" ++ ctx.collectionID.elim [] ('/'.toUInt8 :: ·)
  let query := ascii "uri=" ++ pathEscape uri ++ ascii "&title" ++
    ctx.locale.elim [] (ascii "&lang=" ++ ·)
  have pathPlain : ∀ c ∈ path,
      isCTL c = false ∧ c ≠ '?'.toUInt8 ∧ c ≠ '#'.toUInt8 ∧ c ≠ '%'.toUInt8 := by
    intro c mem
    simp only [path, List.mem_append] at mem
    rcases mem with data | inCollection
    · revert c; decide
    · cases collection : ctx.collectionID with
      | none => simp [collection] at inCollection
      | some id =>
        simp only [collection, Option.elim, List.mem_cons] at inCollection
        rcases inCollection with rfl | inId
        · decide
        · exact collectionPlain id collection c inId
  have queryBytes : ∀ c ∈ query, isCTL c = false ∧ c ≠ '#'.toUInt8 := by
    intro c mem
    simp only [query, List.mem_append] at mem
    rcases mem with ((uriKey | escaped) | title) | inLocale
    · revert c; decide
    · exact ⟨(pathEscape_bytes uri c escaped).1, (pathEscape_bytes uri c escaped).2.2⟩
    · revert c; decide
    · cases locale : ctx.locale with
      | none => simp [locale] at inLocale
      | some l =>
        simp only [locale, Option.elim, List.mem_append] at inLocale
        rcases inLocale with langKey | inL
        · revert c; decide
        · exact ⟨(localePlain l locale c inL).1, (localePlain l locale c inL).2.1⟩
  have request : Client.getPageTitle ⟨scheme ++ ascii "://" ++ host.bytes⟩ ctx uri =
      newRequestURL (scheme ++ ascii "://" ++ host.bytes ++ path ++
        if query = [] then [] else '?'.toUInt8 :: query) := by
    rw [if_neg (List.append_ne_nil_of_left_ne_nil (List.append_ne_nil_of_left_ne_nil
      (List.append_ne_nil_of_left_ne_nil (by decide) _) _) _)]
    rw [Client.getPageTitle, Client.get, createRequestURL_eq, pathEscape_pageTitle]
    simp only [List.append_assoc, List.cons_append, path, query]
  rw [request, newRequestURL_hostPath host schemeLower (.inr (show path.head? = _ from rfl))
    (fun c mem => ⟨(pathPlain c mem).1, (pathPlain c mem).2.1, (pathPlain c mem).2.2.1⟩)
    (unescape_of_plain fun c mem => ⟨(pathPlain c mem).2.2.2, fun _ => by decide,
      fun host => by rcases host with h | h <;> cases h⟩) queryBytes]
  have parsed := parseQuery_pageTitle noAmp noPlus ctx.locale fun l locale b mem =>
    (localePlain l locale b mem).2.2
  refine ⟨_, rfl, rfl, rfl, rfl, ?_, fun key => ?_⟩
  · exact congrArg Prod.snd parsed
  · exact (congrArg (fun r => r.1.get key) parsed).trans (get_pageTitleParameters uri ctx.locale key)

end PageTitle

/-- The host `localhost:8082`. -/
def localhost : HostPort :=
  ⟨ascii "localhost", ascii "8082", by decide, by decide, by decide⟩

theorem collection_page_title_request :
    ∃ req, Client.getPageTitle ⟨ascii "http" ++ ascii "://" ++ localhost.bytes⟩
        ⟨some (ascii "c1"), some (ascii "cy")⟩ (ascii "/economy") = .ok req ∧
      req.scheme = ascii "http" ∧ req.host = localhost.bytes ∧
      req.path = ascii "/data" ++ (some (ascii "c1")).elim [] ('/'.toUInt8 :: ·) ∧
      (parseQuery req.rawQuery).2 = none ∧
      ∀ key, (parseQuery req.rawQuery).1.get key =
        if key = ascii "uri" then [ascii "/economy"]
        else if key = ascii "title" then [[]]
        else if key = ascii "lang" then (some (ascii "cy")).elim [] ([·]) else [] :=
  getPageTitle_request localhost (by decide) ⟨some (ascii "c1"), some (ascii "cy")⟩
    (fun _ eq => by cases Option.some.inj eq; decide) (fun _ eq => by cases Option.some.inj eq; decide)
    (by decide) (by decide)

end DpApiClients.Zebedee
