import FeatureSql.Request
import FeatureSql.Sql.Query.Codec
import FeatureSql.Translate.ToFeature
import FeatureSql.Translate.ToSql

/-! Conversions: the query that comes out, with the tree it was written from. -/

set_option autoImplicit false

namespace FeatureSql

structure Conversion where
  /-- SQL, or the query string of a feature service. -/
  query : String
  feature : Option Feature.Query := none
  tree : Sql.Query

namespace Conversion

open Sql (Dialect Query)

def toJson (conversion : Conversion) : Json :=
  .obj ([("query", .str conversion.query)] ++
    Json.optionalMember "fs" Feature.Query.toJson conversion.feature ++
    [("jsonSql", conversion.tree.toJson)])

/-- A valid query, written as SQL. -/
def ofQuery (dialect : Dialect) (tree : Query) : Outcome Conversion := do
  tree.validate
  pure { query := tree.render dialect, tree }

def ofFeature (dialect : Dialect) (query : Feature.Query) (filter : Option SpatialFilter) :
    Outcome Conversion := do
  ofQuery dialect (← query.toSql filter)

def toFeature (dialect : Dialect) (tree : Query) (filter : Option SpatialFilter)
    (excludeGeometries : Bool) : Outcome Conversion := do
  let feature ← tree.toFeature dialect filter excludeGeometries
  pure { query := feature.queryString, feature := some feature, tree }

def filtered (dialect : Dialect) (tree : Query) (filter : Option SpatialFilter)
    (column : SpatialColumn) : Outcome Conversion :=
  match filter with
  | some filter => ofQuery dialect (Spatial.inject tree filter column)
  | none => ofQuery dialect tree

/-- The JSON text that answers a caller. -/
def answer : Outcome Conversion → String
  | .ok conversion => conversion.toJson.compact
  | .error error => error.toJson.compact

end Conversion

/-- A converter writes one dialect and looks stored geometries up in one place. -/
structure Converter where
  geostore : Geostore := Geostore.disabled
  dialect : Sql.Dialect := Sql.Dialect.standard

namespace Converter

open Sql (Query Mode)

def parse (mode : Mode) (sql : String) : Outcome Query := parsed (Query.parse mode sql)

/-- The filter of a source. A stored geometry wins over a GeoJSON value. -/
def resolve (converter : Converter) (source : GeometrySource) : Outcome (Option SpatialFilter) :=
  match source.geostore, source.geoJson with
  | some id, _ =>
    match converter.geostore id with
    | .ok json => (Geometry.first json).map fun geometry => some { geometry }
    | .error failure => .error (.lookup failure)
  | none, some json => (Geometry.first json).map fun geometry => some { geometry }
  | none, none => .ok none

def toSql (converter : Converter) (request : Request.ToSql) : Outcome Conversion := do
  let filter ← converter.resolve request.source
  Conversion.ofFeature converter.dialect request.query filter

def toFeature (converter : Converter) (request : Request.ToFeature) : Outcome Conversion := do
  let tree ← parse .standard request.sql
  let filter ← converter.resolve request.source
  Conversion.toFeature converter.dialect tree filter request.excludeGeometries

def filtered (converter : Converter) (request : Request.Filtered) : Outcome Conversion := do
  let tree ← parse (.ofExperimental request.experimental) request.sql
  let filter ← converter.resolve request.source
  Conversion.filtered converter.dialect tree filter (.ofRaster request.raster)

/-- Reads, validates and writes SQL. -/
def check (converter : Converter) (sql : String) : Outcome Conversion := do
  Conversion.ofQuery converter.dialect (← parse .standard sql)

/-- Validates and writes a query tree. -/
def write (converter : Converter) (tree : Query) : Outcome Conversion :=
  Conversion.ofQuery converter.dialect tree

end Converter

/-- A value of a JSON text, read by a decoder. -/
def decode {α : Type} (read : Json → Option α) (text : String) : Outcome α :=
  match Json.ofText? text >>= read with
  | some a => .ok a
  | none => .error .json

/-- SQL to the parameters of a feature service, answered in JSON text as the next two are. -/
def sqlToFeatureText (sql : String) : String :=
  Conversion.answer (Converter.toFeature {} { sql })

def featureToSqlText (json : String) : String :=
  Conversion.answer (do
    Converter.toSql {} { query := ← decode Feature.Query.ofJson? json })

def checkSqlText (sql : String) : String := Conversion.answer (Converter.check {} sql)

end FeatureSql
