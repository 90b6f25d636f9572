import FeatureSql.Proofs.Outcome
import FeatureSql.Proofs.Spatial.Filter

/-! Setting the filter of a feature service query and reading it: which geometries have rings, what
a query keeps, and that a polygon is read the same in every spelling. -/

set_option autoImplicit false

namespace FeatureSql

namespace Geometry

/-- A value whose type is this name, in any ASCII case. -/
def IsOfType (json : Json) (name : String) : Prop :=
  ∃ type, json.get? "type" = some (.str type) ∧ Sql.lower type.toList = Sql.lower name.toList

/-- The rings of a polygon, or of the first polygon of a multipolygon. Where they are missing there
are none. -/
inductive IsBoundedBy (json : Json) : Json → Prop where
  | polygon : IsOfType json "Polygon" → IsBoundedBy json ((json.get? "coordinates").getD (.arr []))
  | multiPolygon : IsOfType json "MultiPolygon" →
      IsBoundedBy json ((json.get? "coordinates" >>= (·.index? 0)).getD (.arr []))

/-- The spellings of a polygon: by itself, in a feature, in the first feature of a collection, or as
rings. -/
inductive Spells (coordinates : Json) : Json → Prop where
  | polygon : Spells coordinates (Geometry.polygon coordinates)
  | feature {members : List (String × Json)} : members.lookup "type" = some (.str "Feature") →
      members.lookup "geometry" = some (Geometry.polygon coordinates) →
      members.lookup "rings" = none → Spells coordinates (.obj members)
  | collection {members : List (String × Json)} {feature : Json} {others : List Json} :
      members.lookup "type" = some (.str "FeatureCollection") →
      members.lookup "features" = some (.arr (feature :: others)) →
      feature.get? "geometry" = some (Geometry.polygon coordinates) →
      members.lookup "rings" = none → Spells coordinates (.obj members)
  | rings {members : List (String × Json)} : members.lookup "rings" = some coordinates →
      Spells coordinates (.obj members)

section Types
variable {json : Json}

theorem typeOf_eq_some_iff {type : String} :
    typeOf json = some type ↔ json.get? "type" = some (.str type) := by
  rw [typeOf, Option.bind_eq_bind, Option.bind_eq_some_iff]
  constructor
  · rintro ⟨value, hvalue, hstr⟩
    cases value with
    | str text => exact Option.some.inj hstr ▸ hvalue
    | _ => cases hstr
  · intro h
    exact ⟨_, h, rfl⟩

/-- Types are compared in lower case. -/
theorem isOfType_iff {name folded : String}
    (hname : String.ofList (Sql.lower name.toList) = folded) :
    IsOfType json name ↔
      (typeOf json).map (fun type => String.ofList (Sql.lower type.toList)) = some folded := by
  simp only [IsOfType, ← typeOf_eq_some_iff, Option.map_eq_some_iff, ← hname, String.ofList_inj]

theorem isOfType_polygon : IsOfType json "Polygon" ↔
    (typeOf json).map (fun type => String.ofList (Sql.lower type.toList)) = some "polygon" :=
  isOfType_iff (by decide)

theorem isOfType_multiPolygon : IsOfType json "MultiPolygon" ↔
    (typeOf json).map (fun type => String.ofList (Sql.lower type.toList)) = some "multipolygon" :=
  isOfType_iff (by decide)

theorem first_of_missing (member : Option Json) :
    (listOf member).index? 0 = member >>= (·.index? 0) := by
  cases member <;> rfl

theorem rings_eq_ok {outline : Json} : rings json = .ok outline ↔ IsBoundedBy json outline := by
  unfold rings
  dsimp only
  constructor
  · intro h
    split at h
    · next hpolygon =>
      obtain rfl := Except.ok.inj h
      exact .polygon (isOfType_polygon.mpr hpolygon)
    · split at h
      · next hmulti =>
        obtain rfl := Except.ok.inj h
        rw [first_of_missing]
        exact .multiPolygon (isOfType_multiPolygon.mpr hmulti)
      · cases h
  · intro h
    cases h with
    | polygon hpolygon =>
      rw [if_pos (isOfType_polygon.mp hpolygon)]
      rfl
    | multiPolygon hmulti =>
      have hfolded := isOfType_multiPolygon.mp hmulti
      rw [hfolded, if_neg (by decide), if_pos rfl, first_of_missing]
      rfl

theorem rings_of_other (hpolygon : ¬ IsOfType json "Polygon")
    (hmulti : ¬ IsOfType json "MultiPolygon") :
    rings json = .error (.geometryType (typeOf json)) := by
  unfold rings
  dsimp only
  rw [if_neg (mt isOfType_polygon.mpr hpolygon), if_neg (mt isOfType_multiPolygon.mpr hmulti)]

end Types

section Spellings
variable {coordinates json feature geometry : Json} {members : List (String × Json)}

theorem first_of_collection {others : List Json}
    (hcollection : toFeatureCollection json = .ok (.obj members))
    (hfeatures : members.lookup "features" = some (.arr (feature :: others)))
    (hgeometry : feature.get? "geometry" = some geometry) (hnull : geometry.isNull = false) :
    first json = .ok geometry := by
  have hfirst : firstOf? (.obj members) = some geometry := by
    have hmember : (Json.obj members).get? "features" = some (.arr (feature :: others)) := hfeatures
    have hindex : (Json.arr (feature :: others)).index? 0 = some feature := rfl
    simp only [firstOf?, hmember, hindex, hgeometry, hnull, Option.bind_eq_bind, Option.bind_some]
    rfl
  rw [first, hcollection]
  dsimp only [bind, Except.bind]
  rw [hfirst]
  rfl

theorem first_of_feature (htype : typeOf json = some "Feature")
    (hgeometry : json.get? "geometry" = some geometry) (hnull : geometry.isNull = false) :
    first json = .ok geometry := by
  have hcollection : toFeatureCollection json = .ok (collectionOf [json]) := by
    rw [toFeatureCollection, htype]
    rfl
  exact first_of_collection hcollection rfl hgeometry hnull

theorem Spells.exists_members (h : Spells coordinates json) : ∃ members, json = .obj members := by
  cases h <;> exact ⟨_, rfl⟩

/-- Every spelling is read as the polygon by itself. -/
theorem Spells.geometryOf_eq (h : Spells coordinates json) :
    Feature.Query.geometryOf json = .ok (Geometry.polygon coordinates) := by
  unfold Feature.Query.geometryOf
  cases h with
  | polygon => rfl
  | @feature members htype hgeometry hrings =>
    have hrings : (Json.obj members).get? "rings" = none := hrings
    rw [hrings, if_neg (by simp)]
    exact first_of_feature (typeOf_eq_some_iff.mpr htype) hgeometry rfl
  | @collection members feature others htype hfeatures hgeometry hrings =>
    have hrings : (Json.obj members).get? "rings" = none := hrings
    have htype : typeOf (.obj members) = some "FeatureCollection" := typeOf_eq_some_iff.mpr htype
    have hcollection : toFeatureCollection (.obj members) = .ok (.obj members) := by
      rw [toFeatureCollection, htype]
      rfl
    rw [hrings, if_neg (by simp)]
    exact first_of_collection hcollection hfeatures hgeometry rfl
  | @rings members hrings =>
    have hrings : (Json.obj members).get? "rings" = some coordinates := hrings
    rw [hrings, if_pos (by simp), ofEsri, hrings]

end Spellings
end Geometry

namespace Feature.Query

/-- The parameters of a filter set one after the other, in a query that a failure leaves as it then
is. -/
def assignFilter (filter : SpatialFilter) : ExceptT ConversionError (StateM Query) Unit := do
  let esri ← ExceptT.mk (pure (Geometry.toEsri filter.geometry))
  modify fun query => { query with geometry := some esri.compact }
  modify fun query => { query with geometryType := some "esriGeometryPolygon" }
  modify fun query => { query with spatialRel := some "esriSpatialRelIntersects" }
  modify fun query => { query with inSR := some (SpatialReference.toJson filter.srid).compact }

/-- Queries that differ in the parameters of their filters at most. -/
def SameOutsideFilter (before after : Query) : Prop :=
  after = { before with
    geometry := after.geometry
    geometryType := after.geometryType
    spatialRel := after.spatialRel
    inSR := after.inSR }

theorem run_assignFilter (filter : SpatialFilter) (query : Query) :
    (assignFilter filter).run.run query = match query.setFilter filter with
      | .ok after => (.ok (), after)
      | .error error => (.error error, query) := by
  unfold assignFilter setFilter
  cases Geometry.toEsri filter.geometry <;> rfl

theorem sameOutsideFilter_withRings (query : Query) (rings : Json) (srid : Int64) :
    query.SameOutsideFilter (query.withRings rings srid) := rfl

/-- A polygon is read with the coordinate system that the query names, however it is spelt. -/
theorem filter?_of_spells {coordinates json : Json} (h : Geometry.Spells coordinates json)
    {query : Query} {raw : String} (hgiven : given? query.geometry = some raw)
    (hread : Json.parse? raw = some json) :
    query.filter? = (SpatialReference.ofText query.inSR).map fun srid =>
      some { geometry := Geometry.polygon coordinates, srid } := by
  unfold filter?
  rw [hgiven]
  dsimp only
  rw [hread]
  dsimp only
  rw [h.geometryOf_eq]
  cases SpatialReference.ofText query.inSR <;> rfl

/-- A filter is set as a whole or not at all, next to parameters that stay as they are. It is read
back as the polygon of its rings, and setting that again changes nothing. A polygon is read the same
in each of its spellings. -/
theorem setFilter_readBack :
    (∀ (query : Query) (filter : SpatialFilter),
      (¬ Geometry.IsOfType filter.geometry "Polygon" →
        ¬ Geometry.IsOfType filter.geometry "MultiPolygon" →
          let error := ConversionError.geometryType (Geometry.typeOf filter.geometry)
          query.setFilter filter = .error error ∧
            (assignFilter filter).run.run query = (.error error, query)) ∧
      ∀ rings, Geometry.IsBoundedBy filter.geometry rings →
        ∃ after, query.setFilter filter = .ok after ∧
          (assignFilter filter).run.run query = (.ok (), after) ∧ query.SameOutsideFilter after ∧
          (Json.parse? (Geometry.esri rings).compact = some (Geometry.esri rings) →
            let found : SpatialFilter := { geometry := Geometry.polygon rings, srid := filter.srid }
            after.filter? = .ok (some found) ∧ after.setFilter found = .ok after)) ∧
    ∀ coordinates json, Geometry.Spells coordinates json → Json.parse? json.compact = some json →
      ∀ query : Query, query.geometry = some json.compact →
        query.filter? = (SpatialReference.ofText query.inSR).map fun srid =>
          some { geometry := Geometry.polygon coordinates, srid } := by
  refine ⟨fun query filter => ⟨fun hpolygon hmulti => ?_, fun rings hrings => ?_⟩, ?_⟩
  · intro error
    have herror : query.setFilter filter = .error error := by
      rw [setFilter_eq, Geometry.rings_of_other hpolygon hmulti]
      rfl
    exact ⟨herror, by rw [run_assignFilter, herror]⟩
  · have hset : query.setFilter filter = .ok (query.withRings rings filter.srid) := by
      rw [setFilter_eq, Geometry.rings_eq_ok.mpr hrings]
      rfl
    refine ⟨_, hset, by rw [run_assignFilter, hset], sameOutsideFilter_withRings query _ _, ?_⟩
    intro hread found
    exact ⟨filter?_withRings query filter.srid hread, by rw [setFilter_eq]; rfl⟩
  · intro coordinates json hspells hread query hgeometry
    obtain ⟨members, rfl⟩ := hspells.exists_members
    have hgiven : given? query.geometry = some (Json.obj members).compact := by
      rw [hgeometry, given?_of_solid (Json.solid_obj members)]
    exact filter?_of_spells hspells hgiven hread

/-- Two polygons under a type in mixed case replace an older filter, a point does not, and the first
polygon is read from a feature as well. -/
theorem setFilter_readBack_multiPolygon :
    let first : Json := .arr [.null]
    let two : Json := .obj [("type", .str "multiPOLYGON"), ("coordinates", .arr [first, .arr []])]
    let point : Json := .obj [("type", .str "Point")]
    let feature : Json := .obj [("type", .str "Feature"), ("geometry", Geometry.polygon first)]
    let query : Query := { tableName := some "t", geometry := some "?", inSR := some "-1" }
    let found : SpatialFilter := { geometry := Geometry.polygon first, srid := 3857 }
    let error := ConversionError.geometryType (some "Point")
    query.setFilter { geometry := point } = .error error ∧
      (assignFilter { geometry := point }).run.run query = (.error error, query) ∧
      ∃ after, query.setFilter { geometry := two, srid := 3857 } = .ok after ∧
        after.tableName = some "t" ∧ after.filter? = .ok (some found) ∧
        after.setFilter found = .ok after ∧
        filter? { query with geometry := some feature.compact } =
          .ok (some { found with srid := -1 }) := by
  intro first two point feature query found error
  have hpoint : ∀ name, Sql.lower "Point".toList ≠ Sql.lower name.toList →
      ¬ Geometry.IsOfType point name := by
    rintro name hname ⟨type, htype, hsame⟩
    cases htype
    exact hname hsame
  have hfirst : Json.IsExactAt 126 first := .arr (List.forall_mem_singleton.mpr (.null _))
  have hrings : Json.parse? (Geometry.esri first).compact = some (Geometry.esri first) := by
    refine Json.parse?_compact (.obj (by simp) ?_)
    simp only [List.forall_mem_cons]
    exact ⟨.str _ _, hfirst, by simp⟩
  have hfeature : Json.parse? feature.compact = some feature := by
    refine Json.parse?_compact (.obj (by simp) ?_)
    simp only [List.forall_mem_cons]
    refine ⟨.str _ _, .obj (by simp) ?_, by simp⟩
    simp only [List.forall_mem_cons]
    exact ⟨.str _ _, .arr (List.forall_mem_singleton.mpr (.null _)), by simp⟩
  have htype : Geometry.IsOfType two "MultiPolygon" := ⟨"multiPOLYGON", rfl, by decide⟩
  obtain ⟨herror, hunset⟩ := (setFilter_readBack.1 query { geometry := point }).1
    (hpoint _ (by decide)) (hpoint _ (by decide))
  obtain ⟨after, hafter, _, hsame, hreads⟩ :=
    (setFilter_readBack.1 query { geometry := two, srid := 3857 }).2 first (.multiPolygon htype)
  obtain ⟨hfound, hagain⟩ := hreads hrings
  have hspelt := setFilter_readBack.2 first feature (.feature rfl rfl rfl) hfeature
    { query with geometry := some feature.compact } rfl
  have hsrid : SpatialReference.ofText (some "-1") = .ok (-1) :=
    eq_ok_of_toOption (by decide +kernel)
  refine ⟨herror, hunset, after, hafter, ?_, hfound, hagain, ?_⟩
  · rw [hsame]
  · rw [hspelt, hsrid]
    rfl

end Feature.Query
end FeatureSql
