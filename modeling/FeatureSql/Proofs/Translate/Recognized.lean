import FeatureSql.Proofs.Translate.Routes

/-! Spatial filters that a request puts into a condition, and what is found there afterwards. The
geometry of a predicate is looked for among the texts that hold a JSON object, while the geometry of
a feature may be any value but null. -/

set_option autoImplicit false

namespace FeatureSql

namespace Geometry

/-- A geometry that no feature is put around. -/
def IsBare (json : Json) : Prop := ∃ type ∈ geometryTypes, typeOf json = some type

theorem IsBare.isObject {json : Json} (h : IsBare json) : json.isObject = true := by
  obtain ⟨type, _, htype⟩ := h
  cases json with
  | obj members => rfl
  | _ => cases htype

/-- A bare geometry is taken as it is. -/
theorem IsBare.first {json : Json} (h : IsBare json) : first json = .ok json := by
  obtain ⟨members, rfl⟩ : ∃ members, json = .obj members := by
    have hobject := h.isObject
    cases json with
    | obj members => exact ⟨members, rfl⟩
    | _ => cases hobject
  obtain ⟨type, hmem, htype⟩ := h
  have hcollection : type ≠ "FeatureCollection" ∧ type ≠ "Feature" := by
    constructor <;> rintro rfl <;> exact absurd hmem (by decide)
  have hfeature : toFeatureCollection (.obj members) =
      .ok (collectionOf [featureOf (.obj members)]) := by
    rw [toFeatureCollection, htype]
    dsimp only
    rw [if_neg hcollection.1, if_neg hcollection.2, if_pos hmem]
  rw [Geometry.first, hfeature]
  rfl

end Geometry

namespace Feature.Query

/-- A bare geometry and rings make an object, whichever feature they come from. -/
theorem isObject_of_geometryOf {json geometry : Json}
    (h : (json.get? "rings").isSome = true ∨ Geometry.IsBare json)
    (hgeometry : geometryOf json = .ok geometry) : geometry.isObject = true := by
  unfold geometryOf Geometry.ofEsri at hgeometry
  cases hrings : json.get? "rings" with
  | some rings =>
    rw [hrings] at hgeometry
    exact Except.ok.inj hgeometry ▸ rfl
  | none =>
    have hbare : Geometry.IsBare json := h.resolve_left (by simp [hrings])
    rw [hrings, if_neg (by simp), hbare.first] at hgeometry
    exact Except.ok.inj hgeometry ▸ hbare.isObject

/-- The filter of a query is that of the value in its geometry parameter. -/
theorem exists_of_filter? {query : Query} {filter : SpatialFilter}
    (h : query.filter? = .ok (some filter)) : ∃ raw json, given? query.geometry = some raw ∧
      Json.parse? raw = some json ∧ geometryOf json = .ok filter.geometry := by
  unfold filter? at h
  cases hgiven : given? query.geometry with
  | none =>
    rw [hgiven] at h
    cases h
  | some raw =>
    rw [hgiven] at h
    cases hparse : Json.parse? raw with
    | none =>
      simp only [hparse] at h
      cases h
    | some json =>
      simp only [hparse, bind_eq_ok] at h
      obtain ⟨geometry, hgeometry, srid, _, h⟩ := h
      obtain rfl := Option.some.inj (Except.ok.inj h)
      exact ⟨raw, json, rfl, hparse, hgeometry⟩

end Feature.Query

namespace Spatial

section Found
variable (filter : SpatialFilter)
  (hread : Json.parse? filter.geometry.compact = some filter.geometry)
include hread

theorem find?_predicate_eq (column : SpatialColumn) :
    find? (predicate filter column) = if filter.geometry.isObject then some filter else none := by
  have hleaf : find? (predicate filter column) = filterOf? (predicate filter column) :=
    find?_leaf (by simp [predicate])
  rw [hleaf, filterOf?_predicate, hread, Option.filter_some]
  split <;> rfl

/-- In front of a condition, a predicate hides what was found there if its geometry is an object,
and is passed over otherwise. -/
theorem find?_inFrontOf_predicate (condition : Option Sql.Expr) (column : SpatialColumn) :
    find? (inFrontOf condition (predicate filter column)) =
      if filter.geometry.isObject then some filter else condition >>= find? := by
  have hpredicate := find?_predicate_eq filter hread column
  cases condition with
  | none => exact hpredicate
  | some e =>
    rw [inFrontOf, Sql.Expr.and, find?_logical, hpredicate]
    split <;> rfl

end Found
end Spatial

namespace Converter

open Sql (Query)

theorem exists_of_filtered {converter : Converter} {request : Request.Filtered} {json : Json}
    {conversion : Conversion} (h : converter.filtered request = .ok conversion)
    (hsource : request.source = { geoJson := some json }) : ∃ tree geometry,
      Query.parse (.ofExperimental request.experimental) request.sql = .ok tree ∧
        Geometry.first json = .ok geometry ∧ conversion.tree =
          Spatial.inject tree { geometry } (.ofRaster request.raster) := by
  simp only [Converter.filtered, bind_eq_ok] at h
  obtain ⟨tree, htree, filter, hfilter, h⟩ := h
  rw [hsource, Converter.resolve] at hfilter
  obtain ⟨geometry, hgeometry, rfl⟩ := map_eq_ok.mp hfilter
  obtain ⟨_, rfl⟩ := Query.ofQuery_eq_ok.mp h
  exact ⟨tree, geometry, parse_eq_ok.mp htree, hgeometry, rfl⟩

theorem isReadAs_of_toSql {converter : Converter} {query : Feature.Query} {conversion : Conversion}
    (h : converter.toSql { query } = .ok conversion) : query.IsReadAs none conversion.tree := by
  simp only [Converter.toSql, bind_eq_ok] at h
  obtain ⟨filter, hfilter, h⟩ := h
  obtain rfl : none = filter := Except.ok.inj hfilter
  obtain ⟨tree, htree, h⟩ := bind_eq_ok.mp h
  obtain ⟨_, rfl⟩ := Query.ofQuery_eq_ok.mp h
  exact Feature.Query.toSql_eq_ok.mp htree

/-- A filter that was put into a condition, from a GeoJSON value next to the SQL or from the
parameters of a feature service, is found there if its geometry is an object; if not, what is found
is what the condition held before. Bare geometries and rings are objects, and what stands in a
feature is as it comes. -/
theorem injected_found (converter : Converter) :
    (∀ (request : Request.Filtered) (json : Json) (conversion : Conversion),
      request.source = { geoJson := some json } → converter.filtered request = .ok conversion →
      ∃ tree geometry, Query.parse (.ofExperimental request.experimental) request.sql = .ok tree ∧
        Geometry.first json = .ok geometry ∧
        (Geometry.IsBare json → geometry.isObject = true) ∧
        (Json.parse? geometry.compact = some geometry →
          conversion.tree.filter >>= Spatial.find? =
            if geometry.isObject then some { geometry } else tree.filter >>= Spatial.find?)) ∧
    (∀ (query : Feature.Query) (filter : SpatialFilter) (conversion : Conversion),
      converter.toSql { query } = .ok conversion → query.filter? = .ok (some filter) →
      ∃ condition raw json, query.conditionExpr? = .ok condition ∧
        Feature.given? query.geometry = some raw ∧ Json.parse? raw = some json ∧
        ((json.get? "rings").isSome = true ∨ Geometry.IsBare json →
          filter.geometry.isObject = true) ∧
        (Json.parse? filter.geometry.compact = some filter.geometry →
          conversion.tree.filter >>= Spatial.find? =
            if filter.geometry.isObject then some filter else condition >>= Spatial.find?)) := by
  constructor
  · intro request json conversion hsource h
    obtain ⟨tree, geometry, hparse, hgeometry, hconversion⟩ := exists_of_filtered h hsource
    refine ⟨tree, geometry, hparse, hgeometry, fun hbare => ?_, fun hread => ?_⟩
    · obtain rfl := Except.ok.inj (hbare.first.symm.trans hgeometry)
      exact hbare.isObject
    · rw [hconversion]
      exact Spatial.find?_inFrontOf_predicate { geometry } hread tree.filter _
  · intro query filter conversion h hfilter
    obtain ⟨condition, spatial, hcondition, hspatial, htree⟩ := (isReadAs_of_toSql h).filter
    obtain rfl := Except.ok.inj (hfilter.symm.trans hspatial)
    obtain ⟨raw, json, hraw, hjson, hgeometry⟩ := Feature.Query.exists_of_filter? hfilter
    refine ⟨condition, raw, json, hcondition, hraw, hjson, fun hshape => ?_, fun hread => ?_⟩
    · exact Feature.Query.isObject_of_geometryOf hshape hgeometry
    · rw [htree]
      exact Spatial.find?_inFrontOf_predicate filter hread condition .vector

/-- A point in a feature in front of a condition, and rings in front of none. -/
theorem injected_found_area :
    let point : Json := .obj [("type", .str "Point"), ("coordinates", .arr [.int 1, .int (-2)])]
    let rings : Json := .arr [.arr [.arr [.int 1, .int (-2)]]]
    let request : Request.Filtered := {
      sql := "select * from t where a = 1", raster := true
      source := { geoJson := some (Geometry.featureOf point) } }
    let query := (Feature.Query.ofTable "t").withRings rings 3857
    ∃ direct own, Converter.filtered {} request = .ok direct ∧
      direct.tree.filter >>= Spatial.find? = some { geometry := point } ∧
      Converter.toSql {} { query } = .ok own ∧
      own.tree.filter >>= Spatial.find? =
        some { geometry := Geometry.polygon rings, srid := 3857 } := by
  intro point rings request query
  have hpair : ∀ depth, Json.IsExactAt (depth + 1) (.arr [.int 1, .int (-2)]) := by
    refine fun depth => .arr ?_
    simp only [List.forall_mem_cons]
    exact ⟨.int _ (by decide) (by decide), .int _ (by decide) (by decide), by simp⟩
  have hpoint : Json.IsExactAt Json.maxDepth point := by
    refine .obj (by decide) ?_
    simp only [List.forall_mem_cons]
    exact ⟨.str _ _, hpair _, by simp⟩
  have hrings : Json.IsExactAt Json.maxDepth (Geometry.polygon rings) := by
    refine .obj (by decide) ?_
    simp only [List.forall_mem_cons]
    refine ⟨.str _ _, .arr ?_, by simp⟩
    simp only [List.forall_mem_singleton]
    refine .arr ?_
    simp only [List.forall_mem_singleton]
    exact hpair _
  have harea := Geometry.readable_rings (Json.parse?_compact hrings) rfl
  obtain ⟨direct, hdirect⟩ : ∃ direct, Converter.filtered {} request = .ok direct :=
    exists_of_toOption (by decide +kernel)
  obtain ⟨own, hown⟩ : ∃ own, Converter.toSql {} { query } = .ok own :=
    exists_of_toOption (by decide +kernel)
  obtain ⟨tree, geometry, _, hgeometry, _, hfound⟩ :=
    (injected_found {}).1 request _ direct rfl hdirect
  obtain rfl : point = geometry := Except.ok.inj hgeometry
  obtain ⟨condition, _, _, _, _, _, _, hagain⟩ := (injected_found {}).2 query _ own hown
    (Feature.Query.filter?_withRings (.ofTable "t") 3857 harea.2.readsBack)
  exact ⟨direct, own, hdirect, hfound (Json.parse?_compact hpoint), hown, hagain harea.1.readsBack⟩

/-- What a feature has for a geometry goes into the condition even if it is a number, and is not
found there; so it is with the parameters. -/
theorem injected_not_found :
    let feature := Geometry.featureOf (.int 5)
    let sql :=
      "SELECT * FROM t WHERE ST_INTERSECTS(ST_SetSRID(ST_GeomFromGeoJSON('5'), 4326), the_geom)"
    let query : Feature.Query := {
      Feature.Query.ofTable "t" with geometry := some feature.compact }
    ∃ direct own, Json.parse? (Json.int 5).compact = some (.int 5) ∧
      Geometry.first feature = .ok (.int 5) ∧
      Converter.filtered {} { sql := "SELECT * FROM t", source := { geoJson := some feature } } =
        .ok direct ∧
      direct.query = sql ∧ direct.tree.filter >>= Spatial.find? = none ∧
      query.filter? = .ok (some { geometry := .int 5 }) ∧
      Converter.toSql {} { query } = .ok own ∧
      own.query = sql ∧ own.tree.filter >>= Spatial.find? = none := by
  intro feature sql query
  let number : SpatialFilter := { geometry := .int 5 }
  let tree : Query := {
    select := [.wildcard], tables := ["t"], filter := some (Spatial.predicate number .vector) }
  have hnumber : Json.parse? (Json.int 5).compact = some (.int 5) :=
    Json.parse?_compact (.int _ (by decide) (by decide))
  have hfeature : Json.parse? feature.compact = some feature := by
    refine Json.parse?_compact (.obj (by decide) ?_)
    simp only [List.forall_mem_cons]
    exact ⟨.str _ _, .obj (by decide) (by simp), .int _ (by decide) (by decide), by simp⟩
  have hparse : Query.parse .standard "SELECT * FROM t" =
    .ok { select := [.wildcard], tables := ["t"] } := by decide +kernel
  have hfilter : query.filter? = .ok (some number) := by
    have hgiven : Feature.given? query.geometry = some feature.compact :=
      Feature.given?_of_solid (Json.solid_obj _)
    unfold Feature.Query.filter?
    rw [hgiven]
    dsimp only
    rw [hfeature]
    rfl
  have hrender : tree.render .standard = sql := by decide +kernel
  have hfind : tree.filter >>= Spatial.find? = none :=
    Spatial.find?_inFrontOf_predicate number hnumber none .vector
  have htree : query.toSql none = .ok tree := eq_ok_of_toOption (by decide +kernel)
  exact ⟨_, _, hnumber, rfl, filtered_eq_ok hparse rfl rfl, hrender, hfind, hfilter,
    toSql_of_toSql htree rfl, hrender, hfind⟩

end Converter
end FeatureSql
