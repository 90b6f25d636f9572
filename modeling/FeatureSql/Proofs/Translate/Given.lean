import FeatureSql.Proofs.Translate.RoundTrip

/-! What a request adds to a query: a filter that is given, and answers without geometries. -/

set_option autoImplicit false

namespace FeatureSql

namespace Feature.Query

/-- A query with the filter that is given, if there is one, in place of its own. -/
def filteredBy (query : Query) : Option SpatialFilter → Outcome Query
  | some filter => query.setFilter filter
  | none => .ok query

/-- A query whose answers come without geometries, if those are excluded. -/
def excluding (query : Query) (exclude : Bool) : Query :=
  { query with returnGeometry := if exclude then some false else query.returnGeometry }

end Feature.Query

namespace Sql.Query

/-- The clauses behind the condition do not touch the filter, nor the filter them. -/
theorem filteredBy_withClauses (fs : Feature.Query) (given : Option SpatialFilter) (query : Query) :
    (fs.withClauses query).filteredBy given =
      (fs.filteredBy given).map fun fs => fs.withClauses query := by
  cases given with
  | none => rfl
  | some filter =>
    rw [Feature.Query.filteredBy, Feature.Query.filteredBy, Feature.Query.setFilter_eq,
      Feature.Query.setFilter_eq]
    cases Geometry.rings filter.geometry <;> rfl

/-- The parameters of a query's own clauses, before a filter is given. -/
def conditioned (query : Query) : Outcome Feature.Query := do
  query.validate
  if query.isDelete then throw .deleteNotExpressible
  let selected ← addSelect .standard query.select { tableName := query.table? }
  match query.filter with
  | some condition => addCondition .standard condition selected
  | none => pure selected

theorem toFeature_conditioned (query : Query) (given : Option SpatialFilter) (exclude : Bool) :
    query.toFeature .standard given exclude =
      (query.conditioned >>= fun fs => fs.filteredBy given).map
        fun fs => (fs.withClauses query).excluding exclude := by
  unfold toFeature conditioned
  cases query.validate with
  | error error => rfl
  | ok _ =>
    cases query.isDelete with
    | true => rfl
    | false =>
      change (addSelect .standard query.select { tableName := query.table? } >>= _) =
        Except.map _ ((addSelect .standard query.select { tableName := query.table? } >>= _) >>= _)
      cases addSelect .standard query.select { tableName := query.table? } with
      | error error => rfl
      | ok selected =>
        have hgiven : ∀ fs : Feature.Query, (do
            let result ← match given with
              | some filter => fs.setFilter filter
              | none => pure fs
            pure ((result.withClauses query).excluding exclude) : Outcome Feature.Query) =
            (fs.filteredBy given).map fun fs => (fs.withClauses query).excluding exclude := by
          intro fs
          cases given with
          | none => rfl
          | some filter =>
            change (fs.setFilter filter >>= _) = (fs.setFilter filter).map _
            cases fs.setFilter filter <;> rfl
        cases query.filter with
        | none => exact hgiven selected
        | some condition =>
          change (addCondition .standard condition selected >>= _) =
            Except.map _ (addCondition .standard condition selected >>= _)
          cases addCondition .standard condition selected with
          | error error => rfl
          | ok fs => exact hgiven fs

/-- The filter and the exclusion are applied to the parameters that the query has without them. -/
theorem toFeature_given (query : Query) (given : Option SpatialFilter) (exclude : Bool) :
    query.toFeature .standard given exclude =
      (query.toFeature .standard none false >>= fun fs => fs.filteredBy given).map
        fun fs => fs.excluding exclude := by
  rw [toFeature_conditioned, toFeature_conditioned]
  cases query.conditioned with
  | error error => rfl
  | ok fs =>
    have hclauses := filteredBy_withClauses fs given query
    change (fs.filteredBy given).map _ = ((fs.withClauses query).filteredBy given).map _
    rw [hclauses]
    cases fs.filteredBy given <;> rfl

end Sql.Query

end FeatureSql
