import FeatureSql.Spatial.Reference
import FeatureSql.Sql.Query.Basic

/-! Spatial predicates: calls of `ST_INTERSECTS` that hold a geometry, among the leaves of a
condition's `AND` and `OR` nodes. -/

set_option autoImplicit false

namespace FeatureSql

/-- A GeoJSON geometry and the number of the coordinate system it uses. -/
structure SpatialFilter where
  geometry : Json
  srid : Int64 := defaultWkid
  deriving Repr

/-- The kind of column that a filter is tested against. -/
inductive SpatialColumn where
  | vector
  | raster
  deriving DecidableEq, Repr

namespace Spatial

open Sql (Expr Logical)

def numberExpr (n : Int64) : Expr := .number n.toInt.repr

def columnExpr : SpatialColumn → Expr
  | .vector => .name "the_geom"
  | .raster => .call "ST_Transform" [.name "the_raster_webmercator", numberExpr defaultWkid]

mutual

/-- The first text literal that holds a JSON object, in a literal or a call's arguments. -/
def geometryIn : Expr → Option Json
  | .text value => (Json.parse? value).filter Json.isObject
  | .call _ arguments => geometryAmong arguments
  | _ => none

def geometryAmong : List Expr → Option Json
  | [] => none
  | e :: es => geometryIn e <|> geometryAmong es

end

mutual

/-- The first number literal that holds a 64-bit integer. -/
def sridIn : Expr → Option Int64
  | .number value => readInt64? value
  | .call _ arguments => sridAmong arguments
  | _ => none

def sridAmong : List Expr → Option Int64
  | [] => none
  | e :: es => sridIn e <|> sridAmong es

end

def isIntersects (function : String) : Bool :=
  Sql.lower function.toList == "st_intersects".toList

/-- The filter that an expression stands for by itself. -/
def filterOf? : Expr → Option SpatialFilter
  | .call function arguments =>
    if isIntersects function then
      (geometryAmong arguments).map fun geometry =>
        { geometry, srid := (sridAmong arguments).getD defaultWkid }
    else none
  | _ => none

/-- The filter of the first spatial predicate among the leaves. -/
def find? : Expr → Option SpatialFilter
  | .logical _ left right => find? left <|> find? right
  | e => filterOf? e

/-- An operator with both operands, or what is left where one of them is gone. -/
def rejoin (operator : Logical) : Option Expr → Option Expr → Option Expr
  | some left, some right => some (.logical operator left right)
  | some e, none | none, some e => some e
  | none, none => none

/-- What is left when the first spatial predicate is taken out; nothing where there is none. -/
def takeOut? : Expr → Option (Option Expr)
  | .logical operator left right =>
    match takeOut? left with
    | some left => some (rejoin operator left (some right))
    | none => (takeOut? right).map fun right => rejoin operator (some left) right
  | e => if (filterOf? e).isSome then some none else none

/-- An expression without its first spatial predicate; none if it was just that. -/
def remove (e : Expr) : Option Expr := (takeOut? e).getD (some e)

/-- The predicate that a column meets a filter. -/
def predicate (filter : SpatialFilter) (column : SpatialColumn) : Expr :=
  .call "ST_INTERSECTS" [
    .call "ST_SetSRID" [
      .call "ST_GeomFromGeoJSON" [.text filter.geometry.compact],
      numberExpr filter.srid],
    columnExpr column]

/-- A predicate in front of a condition that may be there. -/
def inFrontOf (condition : Option Expr) (predicate : Expr) : Expr :=
  match condition with
  | some prior => predicate.and prior
  | none => predicate

/-- A query that also has to meet a filter. -/
def inject (query : Sql.Query) (filter : SpatialFilter) (column : SpatialColumn) : Sql.Query :=
  { query with filter := some (inFrontOf query.filter (predicate filter column)) }

end Spatial
end FeatureSql
