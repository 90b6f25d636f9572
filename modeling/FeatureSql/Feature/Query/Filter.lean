import FeatureSql.Feature.Query.Codec
import FeatureSql.Spatial.Geometry
import FeatureSql.Spatial.Predicate

/-! The spatial filter of a feature service query, spread over four of its parameters. -/

set_option autoImplicit false

namespace FeatureSql.Feature.Query

/-- A query with this filter in place of its own. -/
def setFilter (query : Query) (filter : SpatialFilter) : Outcome Query := do
  let esri ← Geometry.toEsri filter.geometry
  pure { query with
    geometry := some esri.compact
    geometryType := some "esriGeometryPolygon"
    spatialRel := some "esriSpatialRelIntersects"
    inSR := some (SpatialReference.toJson filter.srid).compact }

/-- The geometry of a value with rings, or else of a GeoJSON value. -/
def geometryOf (json : Json) : Outcome Json :=
  if (json.get? "rings").isSome then Geometry.ofEsri json else Geometry.first json

/-- The filter of a query, if it has a geometry. -/
def filter? (query : Query) : Outcome (Option SpatialFilter) :=
  match given? query.geometry with
  | none => .ok none
  | some raw =>
    match Json.parse? raw with
    | none => .error .json
    | some json => do
      let geometry ← geometryOf json
      let srid ← SpatialReference.ofText query.inSR
      pure (some { geometry, srid })

end FeatureSql.Feature.Query
