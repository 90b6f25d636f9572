import FeatureSql.Error
import FeatureSql.Json.Reader
import FeatureSql.Text.Blank

/-! Spatial references: the number of a coordinate system, bare or as `wkid` of an object. -/

set_option autoImplicit false

namespace FeatureSql

/-- Longitude and latitude on the WGS 84 ellipsoid. -/
def defaultWkid : Int64 := 4326

/-- A signed 64-bit integer in decimal digits, with at most one sign in front. -/
def readInt64? (text : String) : Option Int64 :=
  let (negative, digits) := match text.toList with
    | '-' :: digits => (true, digits)
    | '+' :: digits => (false, digits)
    | digits => (false, digits)
  if digits.isEmpty || !digits.all Char.isDigit then none
  else
    let n : Int := natOfDigits digits
    (Json.int (if negative then -n else n)).int64?

namespace SpatialReference

/-- The number that a text or an object gives, or the default if it gives none. -/
def ofText (text : Option String) : Outcome Int64 :=
  let raw := trim (text.getD "")
  if raw.isEmpty then .ok defaultWkid
  else match readInt64? raw with
    | some wkid => .ok wkid
    | none =>
      match Json.parse? raw with
      | none => .error .json
      | some json =>
        match json.get? "wkid" with
        | none => .ok defaultWkid
        | some wkid =>
          match wkid.int64? with
          | some wkid => .ok wkid
          | none => .error (.invalidWkid wkid)

def toJson (wkid : Int64) : Json := .obj [("wkid", .int wkid.toInt)]

end SpatialReference
end FeatureSql
