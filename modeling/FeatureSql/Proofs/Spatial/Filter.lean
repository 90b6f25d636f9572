import FeatureSql.Feature.Query.Filter
import FeatureSql.Proofs.Json.Sound
import FeatureSql.Proofs.Spatial.Predicate
import FeatureSql.Proofs.Trim

/-! The filter of a feature service query is read back from the parameters it is spread over. -/

set_option autoImplicit false

namespace FeatureSql

open Spatial (IsReadable)

theorem Json.solid_obj (members : List (String × Json)) : Solid (Json.obj members).compact.toList := by
  have hsolid : Solid ('\x7b' :: ((",".intercalate (members.map memberText)).toList ++ ['\x7d'])) :=
    Solid.ends rfl rfl _
  rw [← List.append_nil (Json.obj members).compact.toList, chars_obj]
  exact hsolid

theorem Feature.given?_eq_some {parameter : Option String} {text : String} :
    given? parameter = some text ↔ (∃ raw, parameter = some raw ∧ trim raw = text) ∧ text ≠ "" := by
  simp [given?, Option.filter_eq_some_iff]

theorem Feature.given?_of_trim {text : String} (h : trim text = text) (hne : text ≠ "") :
    given? (some text) = some text := by
  have hempty : text.isEmpty = false := by simpa using hne
  rw [given?, Option.map_some, h, Option.filter_some, hempty]
  rfl

theorem Feature.given?_of_solid {text : String} (h : Solid text.toList) :
    given? (some text) = some text :=
  given?_of_trim (trim_of_bounded h.bounded) (by simpa using h.ne_nil)

namespace SpatialReference

theorem isExact_toJson (wkid : Int64) : Json.IsExactAt Json.maxDepth (toJson wkid) := by
  refine .obj (by simp) ?_
  simp only [List.forall_mem_singleton]
  have hlow := wkid.minValue_le_toInt
  have hhigh := wkid.toInt_le
  have hsize : Int64.maxValue.toInt < UInt64.size := by decide
  exact .int _ hlow (by omega)

section Text
variable {text : Option String}

theorem ofText_of_blank (h : Feature.given? text = none) : ofText text = .ok 4326 := by
  have hempty : (trim (text.getD "")).isEmpty = true := by
    cases text with
    | none => rfl
    | some raw => simpa [Feature.given?] using h
  unfold ofText
  exact if_pos hempty

variable {raw : String} (h : Feature.given? text = some raw)
include h

/-- A text that is given comes to the integer that it is, or else to what is found in its value. -/
theorem ofText_of_given : ofText text = (readInt64? raw).elim
    ((Json.parse? raw).elim (.error .json) fun json =>
      (json.get? "wkid").elim (.ok 4326) fun value =>
        value.int64?.elim (.error (.invalidWkid value)) .ok) .ok := by
  obtain ⟨⟨whole, rfl, rfl⟩, hne⟩ := Feature.given?_eq_some.mp h
  have hempty : (trim whole).isEmpty = false := by simpa using hne
  unfold ofText
  simp only [Option.getD_some, hempty]
  cases readInt64? (trim whole) with
  | some wkid => rfl
  | none =>
    cases Json.parse? (trim whole) with
    | none => rfl
    | some json =>
      cases hmember : json.get? "wkid" with
      | none => simp [hmember, defaultWkid]
      | some value => cases hvalue : value.int64? <;> simp [hmember, hvalue]

theorem ofText_of_integer {wkid : Int64} (hinteger : readInt64? raw = some wkid) :
    ofText text = .ok wkid := by
  rw [ofText_of_given h, hinteger]
  rfl

variable (hinteger : readInt64? raw = none)
include hinteger

theorem ofText_of_malformed (hjson : Json.parse? raw = none) : ofText text = .error .json := by
  rw [ofText_of_given h, hinteger, hjson]
  rfl

variable {json : Json} (hjson : Json.parse? raw = some json)
include hjson

theorem ofText_of_no_member (hmember : json.get? "wkid" = none) : ofText text = .ok 4326 := by
  simp [ofText_of_given h, hinteger, hjson, hmember]

variable {value : Json} (hmember : json.get? "wkid" = some value)
include hmember

theorem ofText_of_member {wkid : Int64} (hvalue : value.int64? = some wkid) :
    ofText text = .ok wkid := by
  simp [ofText_of_given h, hinteger, hjson, hmember, hvalue]

theorem ofText_of_invalid (hvalue : value.int64? = none) :
    ofText text = .error (.invalidWkid value) := by
  simp [ofText_of_given h, hinteger, hjson, hmember, hvalue]

end Text

theorem ofText_toJson (wkid : Int64) : ofText (some (toJson wkid).compact) = .ok wkid := by
  have hgiven : Feature.given? (some (toJson wkid).compact) = some (toJson wkid).compact :=
    Feature.given?_of_solid (Json.solid_obj _)
  have hinteger : readInt64? (toJson wkid).compact = none := by
    unfold readInt64?
    rw [toJson, ← List.append_nil (Json.obj _).compact.toList, Json.chars_obj]
    rfl
  exact ofText_of_member hgiven hinteger (Json.parse?_compact (isExact_toJson wkid)) rfl
    (int64?_toInt wkid)

end SpatialReference

namespace Geometry

open Json (NestedOver IsExactAt IsLegibleAt)

section Rings
variable {P : Json.Number → Prop} {depth : Nat} {geometry rings : Json}

theorem nested_listOf {member : Option Json} (h : ∀ json ∈ member, NestedOver P (depth + 1) json) :
    NestedOver P (depth + 1) (listOf member) := by
  cases member with
  | none => exact .arr (by simp)
  | some json => exact h json rfl

theorem nested_rings (h : NestedOver P (depth + 2) geometry)
    (hrings : Geometry.rings geometry = .ok rings) : NestedOver P (depth + 1) rings := by
  have hcoordinates : NestedOver P (depth + 1) (listOf (geometry.get? "coordinates")) :=
    nested_listOf fun _ hpart => h.get? hpart
  unfold Geometry.rings at hrings
  dsimp only at hrings
  split at hrings
  · exact Except.ok.inj hrings ▸ hcoordinates
  · split at hrings
    · rw [← Except.ok.inj hrings]
      exact nested_listOf fun _ hpart => (hcoordinates.index? hpart).succ
    · cases hrings

theorem nested_forms (h : NestedOver P depth rings) :
    NestedOver P (depth + 1) (polygon rings) ∧ NestedOver P (depth + 1) (esri rings) := by
  have htype : ∀ name, NestedOver P depth (.str name) := fun name => .str _ name
  constructor
  · refine .obj (by simp) ?_
    simp only [List.forall_mem_cons]
    exact ⟨htype _, h, by simp⟩
  · refine .obj (by simp) ?_
    simp only [List.forall_mem_cons]
    exact ⟨htype _, h, by simp⟩

end Rings

/-- The rings of a geometry that its text has in full can be put into either form. -/
theorem readable_rings {geometry rings : Json} (h : Json.parse? geometry.compact = some geometry)
    (hrings : Geometry.rings geometry = .ok rings) :
    IsReadable (polygon rings) ∧ IsReadable (esri rings) := by
  have hexact : IsExactAt 126 rings := nested_rings (Json.parse?_compact_iff.mp h) hrings
  exact ⟨.of_exact (nested_forms hexact).1 rfl, .of_exact (nested_forms hexact).2 rfl⟩

section Legible
variable {rings : Json}

/-- Legible rings are read from either form, number by number. -/
theorem parse?_polygon (h : IsLegibleAt 126 rings) :
    Json.parse? (polygon rings).compact = some (polygon rings.reread) :=
  Json.parse?_compact_reread (nested_forms h).1

theorem parse?_esri (h : IsLegibleAt 126 rings) :
    Json.parse? (esri rings).compact = some (esri rings.reread) :=
  Json.parse?_compact_reread (nested_forms h).2

theorem isExactAt_of_polygon (h : Json.parse? (polygon rings).compact = some (polygon rings)) :
    IsExactAt 126 rings := nested_rings (Json.parse?_compact_iff.mp h) rfl

end Legible

end Geometry

namespace Feature.Query

/-- A query whose filter has these rings. -/
def withRings (query : Query) (rings : Json) (srid : Int64) : Query :=
  { query with
    geometry := some (Geometry.esri rings).compact
    geometryType := some "esriGeometryPolygon"
    spatialRel := some "esriSpatialRelIntersects"
    inSR := some (SpatialReference.toJson srid).compact }

theorem setFilter_eq (query : Query) (filter : SpatialFilter) :
    query.setFilter filter = (Geometry.rings filter.geometry).map fun rings =>
      query.withRings rings filter.srid := by
  unfold setFilter Geometry.toEsri
  cases Geometry.rings filter.geometry <;> rfl

theorem filter?_withRings (query : Query) {rings read : Json} (srid : Int64)
    (h : Json.parse? (Geometry.esri rings).compact = some (Geometry.esri read)) :
    (query.withRings rings srid).filter? = .ok (some { geometry := Geometry.polygon read, srid }) := by
  have hgiven : given? (query.withRings rings srid).geometry =
      some (Geometry.esri rings).compact := given?_of_solid (Json.solid_obj _)
  have hsrid : SpatialReference.ofText (query.withRings rings srid).inSR = .ok srid :=
    SpatialReference.ofText_toJson srid
  have hgeometry : geometryOf (Geometry.esri read) = .ok (Geometry.polygon read) := rfl
  unfold filter?
  rw [hgiven]
  dsimp only
  rw [h]
  dsimp only
  rw [hgeometry, hsrid]
  rfl

theorem filter?_of_none {query : Query} (h : query.geometry = none) : query.filter? = .ok none := by
  unfold filter?
  rw [h]
  rfl

end Feature.Query
end FeatureSql
