import FeatureSql.Error
import FeatureSql.Sql.Word

/-! Geometries, as GeoJSON values and as the rings that a feature service takes. -/

set_option autoImplicit false

namespace FeatureSql.Geometry

def typeOf (json : Json) : Option String := json.get? "type" >>= Json.str?

/-- The member, or an empty list in its place. -/
def listOf (member : Option Json) : Json := member.getD (.arr [])

/-- The rings of a polygon, or of the first polygon of a multipolygon. -/
def rings (geoJson : Json) : Outcome Json :=
  let coordinates := listOf (geoJson.get? "coordinates")
  let type := typeOf geoJson
  let folded := type.map fun name => String.ofList (Sql.lower name.toList)
  if folded = some "polygon" then .ok coordinates
  else if folded = some "multipolygon" then .ok (listOf (coordinates.index? 0))
  else .error (.geometryType type)

/-- The Esri form of rings. -/
def esri (rings : Json) : Json := .obj [("type", .str "polygon"), ("rings", rings)]

def toEsri (geoJson : Json) : Outcome Json := (rings geoJson).map esri

def polygon (coordinates : Json) : Json :=
  .obj [("type", .str "Polygon"), ("coordinates", coordinates)]

/-- The GeoJSON polygon of an Esri geometry with rings. -/
def ofEsri (esri : Json) : Outcome Json :=
  match esri.get? "rings" with
  | some rings => .ok (polygon rings)
  | none => .error .ringsMissing

def geometryTypes : List String :=
  ["Point", "MultiPoint", "LineString", "MultiLineString", "Polygon", "MultiPolygon",
   "GeometryCollection"]

def featureOf (geometry : Json) : Json :=
  .obj [("type", .str "Feature"), ("properties", .obj []), ("geometry", geometry)]

def collectionOf (features : List Json) : Json :=
  .obj [("type", .str "FeatureCollection"), ("features", .arr features)]

/-- A feature collection stays as it is; a feature or a geometry becomes its only feature. -/
def toFeatureCollection (json : Json) : Outcome Json :=
  match typeOf json with
  | some type =>
    if type = "FeatureCollection" then .ok json
    else if type = "Feature" then .ok (collectionOf [json])
    else if type ∈ geometryTypes then .ok (collectionOf [featureOf json])
    else .error (.geoJsonType (some type))
  | none => .error (.geoJsonType none)

/-- The geometry of the first feature of a collection. -/
def firstOf? (collection : Json) : Option Json := do
  let features ← collection.get? "features"
  let feature ← features.index? 0
  let geometry ← feature.get? "geometry"
  if geometry.isNull then none else some geometry

/-- The geometry of the first feature of any GeoJSON value. -/
def first (json : Json) : Outcome Json := do
  match firstOf? (← toFeatureCollection json) with
  | some geometry => pure geometry
  | none => throw .emptyCollection

end FeatureSql.Geometry
