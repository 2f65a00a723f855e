import DpApiClients.Json.Select

/-!
# The responses of the catalog queries

Five GraphQL queries of package cantabular read the variables of a dataset. The response of each
holds a `dataset` object that its caller decodes, through `queryUnmarshal` and `json.Unmarshal`,
into a struct of package gql: `gql.DatasetVariables` for `QueryDimensions`,
`QueryDimensionsByName` and `QueryDimensionsSearch`, `gql.DatasetRuleBase` for
`QueryGeographyDimensions` and `QueryAreasByArea`. The gql structs all have tags, so every key
goes into the field of its own name.

`catalog_response_decodes` says that for each query and every `dataset` object that follows the
query's selection set, with every `totalCount` in the range of `int`, the decoder returns no
error and every non-null value the query selects is read back at its path, with two exceptions
(`CatalogQuery.dropped`, computed by `catalog_gap`): `Variables` has no `TotalCount` for the
`totalCount` that `QueryDimensionsSearch` selects under `mapFrom`, and `Variable` has no
`MapFrom` for the `mapFrom` that `QueryAreasByArea` selects under `variable`. The decoder skips
those two without an error.
-/

namespace DpApiClients.Cantabular

open Json

/-- The struct types of package gql. -/
inductive GqlType where
  | datasetRuleBase
  | datasetVariables
  | ruleBase
  | variables
  | search
  | edge
  | node
  | categories
  | variable
  deriving DecidableEq, Repr

/-- The fields of each gql struct, under their tags' names. -/
def gqlFields : GqlType → List (List Char × GoType GqlType)
  | .datasetRuleBase => [("ruleBase".toList, .struct .ruleBase)]
  | .datasetVariables => [("variables".toList, .struct .variables)]
  | .ruleBase => [("isSourceOf".toList, .struct .variables), ("name".toList, .string)]
  | .variables => [("edges".toList, .slice (.struct .edge)), ("search".toList, .struct .search),
      ("categorySearch".toList, .struct .search)]
  | .search => [("edges".toList, .slice (.struct .edge))]
  | .edge => [("node".toList, .struct .node)]
  | .node => [("name".toList, .string), ("code".toList, .string), ("label".toList, .string),
      ("categories".toList, .struct .categories), ("mapFrom".toList, .slice (.struct .variables)),
      ("filterOnly".toList, .string), ("variable".toList, .struct .variable)]
  | .categories => [("totalCount".toList, .int), ("edges".toList, .slice (.struct .edge))]
  | .variable => [("name".toList, .string)]

/-- How deep a gql struct holds other structs other than through a slice. -/
def gqlRank : GqlType → Nat
  | .search | .categories | .variable => 0
  | .node | .variables => 1
  | .edge | .ruleBase | .datasetVariables => 2
  | .datasetRuleBase => 3

/-- The struct types of package gql. -/
def gqlTypes : TypeEnv GqlType where
  fields := gqlFields
  rank := gqlRank
  nodup s := by cases s <;> decide
  rank_lt s _ s' mem := by
    cases s <;> simp [gqlFields] at mem <;>
      (first | rw [mem.2] | rcases mem with one | other <;> [rw [one.2]; rw [other.2]]) <;> decide

/-- `edges { node { … } }`: a list of edges, each with a node of the given selection. -/
def edgesOf (node : Selection) : Selection :=
  .list (.object [("node".toList, node)])

/-- What `QueryDimensions`, `QueryDimensionsByName` and `QueryGeographyDimensions` select under
each variable's `node`. -/
def dimensionNode : Selection :=
  .object [("name".toList, .string),
    ("mapFrom".toList, .list (.object [("edges".toList, edgesOf (.object [
      ("filterOnly".toList, .string), ("label".toList, .string), ("name".toList, .string)]))])),
    ("label".toList, .string),
    ("categories".toList, .object [("totalCount".toList, .int)])]

/-- The selection set of `QueryDimensions` under `dataset`. -/
def queryDimensions : Selection :=
  .object [("variables".toList, .object [("edges".toList, edgesOf dimensionNode)])]

/-- The selection set of `QueryDimensionsByName` under `dataset`. -/
def queryDimensionsByName : Selection :=
  .object [("variables".toList, .object [("edges".toList, edgesOf dimensionNode)])]

/-- The selection set of `QueryGeographyDimensions` under `dataset`. -/
def queryGeographyDimensions : Selection :=
  .object [("ruleBase".toList, .object [("name".toList, .string),
    ("isSourceOf".toList, .object [("edges".toList, edgesOf dimensionNode)])])]

/-- The selection set of `QueryDimensionsSearch` under `dataset`. -/
def queryDimensionsSearch : Selection :=
  .object [("variables".toList, .object [("search".toList, .object [("edges".toList, edgesOf
    (.object [("name".toList, .string), ("label".toList, .string),
      ("mapFrom".toList, .list (.object [("totalCount".toList, .int),
        ("edges".toList, edgesOf (.object [("name".toList, .string),
          ("label".toList, .string)]))]))]))])])]

/-- The selection set of `QueryAreasByArea` under `dataset`. -/
def queryAreasByArea : Selection :=
  .object [("ruleBase".toList, .object [("isSourceOf".toList, .object [("categorySearch".toList,
    .object [("edges".toList, edgesOf (.object [("code".toList, .string),
      ("label".toList, .string),
      ("variable".toList, .object [
        ("mapFrom".toList, .list (.object [("edges".toList, edgesOf (.object [
          ("name".toList, .string), ("label".toList, .string)]))])),
        ("name".toList, .string)])]))])])])]

/-- The catalog queries whose `dataset` object is decoded into a gql struct. -/
inductive CatalogQuery where
  | dimensions
  | dimensionsByName
  | geographyDimensions
  | dimensionsSearch
  | areasByArea
  deriving DecidableEq, Repr

def CatalogQuery.selection : CatalogQuery → Selection
  | .dimensions => queryDimensions
  | .dimensionsByName => queryDimensionsByName
  | .geographyDimensions => queryGeographyDimensions
  | .dimensionsSearch => queryDimensionsSearch
  | .areasByArea => queryAreasByArea

/-- The gql struct a query's `dataset` object is decoded into. -/
def CatalogQuery.target : CatalogQuery → GqlType
  | .dimensions | .dimensionsByName | .dimensionsSearch => .datasetVariables
  | .geographyDimensions | .areasByArea => .datasetRuleBase

/-- Every member a catalog query selects goes into the gql field of its name or is skipped, and
each kind goes into a field that holds it. -/
theorem catalog_fits (q : CatalogQuery) :
    fits gqlTypes (.struct q.target) q.selection := by
  cases q <;> decide

/-- What a catalog query selects that its gql struct has no field for: the `totalCount` of each
`mapFrom` entry under `QueryDimensionsSearch`, where `Variables` has no `TotalCount`, and the
`mapFrom` of each node's `variable` under `QueryAreasByArea`, where `Variable` has only `Name`. -/
def CatalogQuery.dropped : CatalogQuery → Option Gap
  | .dimensionsSearch => some (.object [("variables".toList, .object [("search".toList,
      .object [("edges".toList, .list (.object [("node".toList, .object [("mapFrom".toList,
        .list (.object [("totalCount".toList, .missing)]))])]))])])])
  | .areasByArea => some (.object [("ruleBase".toList, .object [("isSourceOf".toList,
      .object [("categorySearch".toList, .object [("edges".toList, .list (.object [("node".toList,
        .object [("variable".toList, .object [("mapFrom".toList, .missing)])])]))])])])])
  | _ => none

theorem catalog_gap (q : CatalogQuery) :
    gap gqlTypes (.struct q.target) q.selection = q.dropped := by
  cases q <;> rfl

/-- The `dataset` object of each catalog query's response decodes into its gql struct with no
error when it follows the query's selection set and its integers are `int`s, and every non-null
value in it is read back at its path, but for those the query's gql struct has no field for. -/
theorem catalog_response_decodes (q : CatalogQuery) (json : JsonValue)
    (conform : conforms q.selection json) (small : intsFit json) :
    ∃ v, decodeValue gqlTypes [] (.struct q.target) (gqlTypes.zero (.struct q.target)) json =
        (v, none) ∧
      ∀ path j, json.read path = some j → j ≠ .null →
        (∀ g, q.dropped = some g → g.contains path = false) →
        ∃ w, v.read path = some w ∧ Matches j w := by
  obtain ⟨v, decodes, -, readsBack⟩ := decodeValue_conforms gqlTypes q.selection _ json
    (catalog_fits q) conform small [] _ (zero_shaped gqlTypes _)
  refine ⟨v, decodes, fun path j found notNull kept => readsBack path j found notNull ?_⟩
  rcases reaches_or_gap gqlTypes path _ _ json j (catalog_fits q) conform found with
    reach | ⟨g, atGap, inside⟩
  · exact reach
  · rw [catalog_gap] at atGap
    simp [kept g atGap] at inside

/-- A response of `QueryDimensionsSearch` with one variable, `region`, mapped from `country`
with a `totalCount` of 2. -/
def regionSearchResponse : JsonValue :=
  .object [("variables".toList, .object [("search".toList, .object [("edges".toList, .array [
    .object [("node".toList, .object [("name".toList, .string "region".toList),
      ("label".toList, .string "Region".toList),
      ("mapFrom".toList, .array [.object [("totalCount".toList, .number "2".toList),
        ("edges".toList, .array [.object [("node".toList, .object [
          ("name".toList, .string "country".toList),
          ("label".toList, .string "Country".toList)])]])]])])]])])])]

theorem region_search_decodes :
    conforms queryDimensionsSearch regionSearchResponse ∧ intsFit regionSearchResponse ∧
      ∃ v, decodeValue gqlTypes [] (.struct .datasetVariables)
          (gqlTypes.zero (.struct .datasetVariables)) regionSearchResponse = (v, none) ∧
        ∀ path j, regionSearchResponse.read path = some j → j ≠ .null →
          (∀ g, CatalogQuery.dimensionsSearch.dropped = some g → g.contains path = false) →
          ∃ w, v.read path = some w ∧ Matches j w :=
  ⟨by decide, by decide,
    catalog_response_decodes .dimensionsSearch regionSearchResponse (by decide) (by decide)⟩

end DpApiClients.Cantabular
