import FeatureSql.Feature.Query.Codec
import FeatureSql.Spatial.Predicate

/-! What callers ask for: a query in one form, and where the geometry of a filter comes from. -/

set_option autoImplicit false

namespace FeatureSql

open Json

/-- Where a filter's geometry comes from: a stored geometry, or else a GeoJSON value. -/
structure GeometrySource where
  geostore : Option String := none
  geoJson : Option Json := none
  deriving Repr

def GeometrySource.ofMembers? (members : Members) : Option GeometrySource := do
  let geostore ← members.optional "geostore" str?
  let geoJson ← members.optional "geojson" fun json => some json.settle
  pure { geostore, geoJson }

namespace Request

/-- A feature service query that is wanted as SQL. -/
structure ToSql where
  query : Feature.Query
  source : GeometrySource := {}

/-- The parameters of the query and the source stand side by side. -/
def ToSql.ofJson? (json : Json) : Option ToSql := do
  let members ← json.members?
  let query ← Feature.Query.ofMembers? members
  let source ← GeometrySource.ofMembers? members
  pure { query, source }

/-- SQL that is wanted as a feature service query. -/
structure ToFeature where
  sql : String
  source : GeometrySource := {}
  excludeGeometries : Bool := false

def ToFeature.ofJson? (json : Json) : Option ToFeature := do
  let members ← json.members?
  let sql ← members.field "sql" str?
  let source ← GeometrySource.ofMembers? members
  let excludeGeometries ← members.fieldOr "excludeGeometries" false bool?
  pure { sql, source, excludeGeometries }

/-- SQL that is wanted with a spatial filter. -/
structure Filtered where
  sql : String
  source : GeometrySource := {}
  raster : Bool := false
  experimental : Bool := false

def Filtered.ofJson? (json : Json) : Option Filtered := do
  let members ← json.members?
  let sql ← members.field "sql" str?
  let source ← GeometrySource.ofMembers? members
  let raster ← members.fieldOr "raster" false bool?
  let experimental ← members.fieldOr "experimental" false bool?
  pure { sql, source, raster, experimental }

end Request

def SpatialColumn.ofRaster (raster : Bool) : SpatialColumn := if raster then .raster else .vector

end FeatureSql
