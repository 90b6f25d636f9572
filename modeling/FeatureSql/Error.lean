import FeatureSql.Geostore
import FeatureSql.Json.Writer

/-! Why a conversion is refused, what is said about it, and the HTTP status that fits. What is wrong
with a text that is no JSON is not told. -/

set_option autoImplicit false

namespace FeatureSql

inductive ConversionError where
  /-- The text is no query, or the query lacks a table or a selection. -/
  | malformedQuery
  | tableNameMissing
  | statementNotAllowed (keyword : String)
  | joinsNotAllowed
  | countWithColumns
  | distinctNotPlain
  | statisticNotSupported (name : String)
  | deleteNotExpressible
  | lookup (failure : Geostore.Failure)
  /-- The type of a geometry that has no rings. -/
  | geometryType (type : Option String)
  /-- The type of a value that is no GeoJSON. -/
  | geoJsonType (type : Option String)
  | ringsMissing
  | emptyCollection
  | invalidWkid (wkid : Json)
  /-- A text is not JSON, or not of the expected form. -/
  | json
  deriving Repr

namespace ConversionError

inductive Kind where
  | malformedQuery
  | unsupportedQueryShape
  | queryNotValid
  | geostoreNotFound
  | geostoreLookupFailed
  | invalidGeometry
  | json
  deriving DecidableEq, Repr

def kind : ConversionError → Kind
  | .malformedQuery | .tableNameMissing => .malformedQuery
  | .statementNotAllowed _ | .joinsNotAllowed => .unsupportedQueryShape
  | .countWithColumns | .distinctNotPlain | .statisticNotSupported _ | .deleteNotExpressible =>
    .queryNotValid
  | .lookup (.notFound _) => .geostoreNotFound
  | .lookup (.status _) | .lookup .unavailable => .geostoreLookupFailed
  | .geometryType _ | .geoJsonType _ | .ringsMissing | .emptyCollection | .invalidWkid _ =>
    .invalidGeometry
  | .json => .json

def geometryMessage (cause : String) : String := "Invalid geometry: " ++ cause

def typeMessage (what : String) (type : Option String) : String :=
  geometryMessage (what ++ " type " ++ type.getD "unknown" ++ " not supported")

def lookupMessage (cause : String) : String := "Geostore lookup failed: " ++ cause

def message : ConversionError → String
  | .malformedQuery => "Malformed query"
  | .tableNameMissing => "tableName is required"
  | .statementNotAllowed keyword => "Type " ++ keyword ++ " not allowed"
  | .joinsNotAllowed => "Joins not allowed"
  | .countWithColumns => "ArcGis does not support count(*) with more columns"
  | .distinctNotPlain => "returnDistinctValues needs plain outFields"
  | .statisticNotSupported name => "Statistic type " ++ name ++ " not supported"
  | .deleteNotExpressible => "Delete statements can not be expressed as a FeatureServer query"
  | .lookup (.notFound id) => "Geostore " ++ id ++ " not found"
  | .lookup (.status code) =>
    lookupMessage
      ("Geostore responded with HTTP " ++ code.repr ++ " " ++ Geostore.reasonPhrase code)
  | .lookup .unavailable => lookupMessage "No geostore service configured"
  | .geometryType type => typeMessage "Geometry" type
  | .geoJsonType type => typeMessage "GeoJSON" type
  | .ringsMissing => geometryMessage "Esri geometry without rings"
  | .emptyCollection => geometryMessage "Empty FeatureCollection"
  | .invalidWkid wkid => geometryMessage ("Invalid inSR wkid " ++ wkid.compact)
  | .json => "Invalid JSON"

def status (error : ConversionError) : Nat :=
  match error.kind with
  | .geostoreNotFound => 404
  | .geostoreLookupFailed => 502
  | _ => 400

/-- What a caller gets in place of a conversion. -/
def toJson (error : ConversionError) : Json :=
  .obj [("error", .bool true), ("message", .str error.message)]

end ConversionError

/-- What a conversion comes to. -/
abbrev Outcome (α : Type) := Except ConversionError α

end FeatureSql
