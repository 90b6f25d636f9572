import FeatureSql.Proofs.Spatial.Removal
import FeatureSql.Proofs.Translate.Given

/-! Two conditions that differ in their first spatial predicate alone, next to a filter that is
given. The parameters come out the same. The geometry that the given one takes the place of still has
to be one that could have been written: its rings are asked for before they are put aside. -/

set_option autoImplicit false

namespace FeatureSql

namespace Spatial

open Sql (Expr Logical Branch Path)
open Sql.Path (plug leavesBefore)

/-- A condition with this expression in place of its first spatial predicate. -/
def replaceFirst (replacement : Expr) : Expr → Expr
  | .logical operator left right =>
    if (find? left).isSome then .logical operator (replaceFirst replacement left) right
    else .logical operator left (replaceFirst replacement right)
  | e => if (filterOf? e).isSome then replacement else e

section First
variable {path : Path} {p : Expr}

theorem find?_plug {filter : SpatialFilter} (hp : filterOf? p = some filter)
    (hfirst : ∀ leaf ∈ leavesBefore path, filterOf? leaf = none) :
    find? (plug path p) = some filter := by
  have hleaves : p.leaves = [p] := leaves_predicate (by rw [hp]; rfl)
  refine find?_eq_some_iff.mpr ⟨leavesBefore path, p, path.leavesAfter, ?_, hp, hfirst⟩
  rw [Sql.Path.leaves_plug, hleaves, List.append_assoc, List.singleton_append]

/-- What is left does not depend on the predicate that is taken out. -/
theorem remove_plug_congr {replacement : Expr} (hp : (filterOf? p).isSome)
    (hreplacement : (filterOf? replacement).isSome)
    (hfirst : ∀ leaf ∈ leavesBefore path, filterOf? leaf = none) :
    remove (plug path replacement) = remove (plug path p) := by
  rcases List.eq_nil_or_concat' path with rfl | ⟨outer, branch, rfl⟩
  · exact (remove_itself hreplacement).trans (remove_itself hp).symm
  · rw [remove_plug hreplacement hfirst, remove_plug hp hfirst]

theorem replaceFirst_plug {filter : SpatialFilter} (hp : filterOf? p = some filter)
    (hfirst : ∀ leaf ∈ leavesBefore path, filterOf? leaf = none) (replacement : Expr) :
    replaceFirst replacement (plug path p) = plug path replacement := by
  have hsome : (filterOf? p).isSome := by rw [hp]; rfl
  induction path with
  | nil =>
    change replaceFirst replacement p = replacement
    rw [replaceFirst, if_pos hsome]
    exact ne_logical_of_filterOf? hsome
  | cons branch path ih =>
    rw [Sql.Path.leavesBefore_cons, List.forall_mem_append] at hfirst
    cases branch with
    | left operator sibling =>
      have hfind : (find? (plug path p)).isSome := by rw [find?_plug hp hfirst.2]; rfl
      rw [Sql.Path.plug_cons, Branch.join, replaceFirst, if_pos hfind, ih hfirst.2]
      rfl
    | right operator sibling =>
      have hfind : ¬ (find? sibling).isSome := by
        rw [find?_eq_none_iff.mpr hfirst.1]
        exact Bool.false_ne_true
      rw [Sql.Path.plug_cons, Branch.join, replaceFirst, if_neg hfind, ih hfirst.2]
      rfl

end First

/-- A condition whose first predicate is replaced by another one has the filter of the other one,
and the same is left when it is taken out. -/
theorem find?_replaceFirst {condition replacement : Expr} {embedded replaced : SpatialFilter}
    (hfound : find? condition = some embedded) (hreplaced : filterOf? replacement = some replaced) :
    find? (replaceFirst replacement condition) = some replaced ∧
      remove (replaceFirst replacement condition) = remove condition := by
  obtain ⟨before, p, after, hleaves, hp, hfirst⟩ := find?_eq_some_iff.mp hfound
  obtain ⟨path, rfl, rfl, rfl⟩ := Sql.Path.exists_plug hleaves
  rw [replaceFirst_plug hp hfirst]
  exact ⟨find?_plug hreplaced hfirst,
    remove_plug_congr (by rw [hp]; rfl) (by rw [hreplaced]; rfl) hfirst⟩

/-- A geometry whose coordinates nest less deep than a text may reads back from its own text. -/
theorem isReadable_geometry (type : String) {coordinates : Json}
    (h : Json.IsExactAt 126 coordinates) :
    IsReadable (.obj [("type", .str type), ("coordinates", coordinates)]) := by
  refine .of_exact (.obj (by simp) ?_) rfl
  simp only [List.forall_mem_cons]
  exact ⟨.str _ type, h, by simp⟩

end Spatial

namespace Sql.Query

open Spatial (find? filterOf? replaceFirst)

/-- What an embedded filter leaves behind apart from itself: the condition without its predicate. -/
def withResidual (dialect : Dialect) (fs : Feature.Query) (residual : Option Expr) :
    Feature.Query :=
  { fs with condition := residual.elim fs.condition (Expr.render dialect) }

theorem addCondition_of_find? (dialect : Dialect) {condition : Expr} {embedded : SpatialFilter}
    (hfound : find? condition = some embedded) (fs : Feature.Query) :
    addCondition dialect condition fs = (Geometry.rings embedded.geometry).map fun rings =>
      (withResidual dialect fs (Spatial.remove condition)).withRings rings embedded.srid := by
  unfold addCondition
  rw [hfound]
  dsimp only
  rw [Feature.Query.setFilter_eq]
  cases Geometry.rings embedded.geometry with
  | error error => rfl
  | ok rings => cases Spatial.remove condition <;> rfl

theorem addSelect_eq (dialect : Dialect) (select : List SelectItem) (fs : Feature.Query) :
    ∃ selected, addSelect dialect select fs =
      (SelectItem.validateCount select).map fun _ => selected := by
  unfold addSelect
  cases SelectItem.validateCount select with
  | error error => exact ⟨fs, rfl⟩
  | ok _ => exact ⟨_, rfl⟩

/-- The parameters of the clauses behind the condition, and the exclusion of geometries. -/
def completed (dialect : Dialect) (query : Query) (exclude : Bool) (fs : Feature.Query) :
    Feature.Query :=
  { fs with
    groupBy := parameterOf (query.groupBy.map (Expr.render dialect))
    orderBy := parameterOf (query.orderBy.map (orderText dialect))
    resultRecordCount := query.limit
    supportsPagination := query.limit.map fun _ => true
    resultOffset := query.offset
    returnGeometry := if exclude then some false else fs.returnGeometry }

section Explicit
variable (dialect : Dialect) {query : Query} {condition : Expr} {embedded given : SpatialFilter}
  {rings : Json}

/-- Of the embedded filter only the failure of its geometry is left in the outcome. -/
theorem toFeature_embedded {selected : Feature.Query} (hvalid : query.validate = .ok ())
    (hdelete : query.isDelete = false) (hfilter : query.filter = some condition)
    (hfound : find? condition = some embedded)
    (hgiven : Geometry.rings given.geometry = .ok rings)
    (hselected : addSelect dialect query.select { tableName := query.table? } =
      (SelectItem.validateCount query.select).map fun _ => selected) (exclude : Bool) :
    query.toFeature dialect (some given) exclude = (do
      SelectItem.validateCount query.select
      let _ ← Geometry.rings embedded.geometry
      pure (completed dialect query exclude
        ((withResidual dialect selected (Spatial.remove condition)).withRings rings
          given.srid))) := by
  unfold toFeature
  rw [hvalid, hdelete, hfilter]
  change (addSelect dialect query.select { tableName := query.table? } >>= _) = _
  rw [hselected]
  cases SelectItem.validateCount query.select with
  | error error => rfl
  | ok _ =>
    change (addCondition dialect condition selected >>= _) = _
    rw [addCondition_of_find? dialect hfound]
    cases Geometry.rings embedded.geometry with
    | error error => rfl
    | ok own =>
      change (Feature.Query.setFilter _ given >>= _) = _
      rw [Feature.Query.setFilter_eq, hgiven]
      rfl

/-- Whatever predicate stands in the place of the embedded one, the parameters are the same ones and
their filter is the one that is given; only a geometry without rings still makes a difference, for it
is refused as if nothing were given. -/
theorem toFeature_replaceFirst (hvalid : query.validate = .ok ())
    (hdelete : query.isDelete = false) (hfilter : query.filter = some condition)
    (hfound : find? condition = some embedded)
    (hgiven : Geometry.rings given.geometry = .ok rings) (exclude : Bool) :
    ∃ own : Feature.Query,
      query.toFeature dialect (some given) exclude = (do
        SelectItem.validateCount query.select
        let _ ← Geometry.rings embedded.geometry
        pure (own.withRings rings given.srid)) ∧
      ∀ replacement replaced, filterOf? replacement = some replaced →
        { query with filter := some (replaceFirst replacement condition) }.toFeature dialect
            (some given) exclude = (do
          SelectItem.validateCount query.select
          let _ ← Geometry.rings replaced.geometry
          pure (own.withRings rings given.srid)) := by
  obtain ⟨selected, hselected⟩ := addSelect_eq dialect query.select { tableName := query.table? }
  refine ⟨completed dialect query exclude
    (withResidual dialect selected (Spatial.remove condition)), ?_, ?_⟩
  · exact toFeature_embedded dialect hvalid hdelete hfilter hfound hgiven hselected exclude
  · intro replacement replaced hreplaced
    obtain ⟨hreplacedFound, hremove⟩ := Spatial.find?_replaceFirst hfound hreplaced
    have hvalid : { query with filter := some (replaceFirst replacement condition) }.validate =
        .ok () := hvalid
    rw [← hremove]
    exact toFeature_embedded dialect hvalid hdelete rfl hreplacedFound hgiven hselected exclude

/-- A multipolygon in another coordinate system takes the place of a polygon, and nothing shows. -/
theorem toFeature_replaceFirst_multiPolygon :
    let area : SpatialFilter := { geometry := Geometry.polygon (.arr []), srid := 4326 }
    let areas : SpatialFilter :=
      { geometry := .obj [("type", .str "MultiPolygon"), ("coordinates", .arr [])], srid := 3857 }
    let given : SpatialFilter := { geometry := Geometry.polygon (.arr [.arr []]) }
    let condition (filter : SpatialFilter) : Expr :=
      .logical .or (.name "a") (Spatial.predicate filter .vector)
    let tree (condition : Expr) : Query :=
      { select := [.wildcard], tables := ["t"], filter := some condition }
    find? (condition area) = some area ∧
      replaceFirst (Spatial.predicate areas .vector) (condition area) = condition areas ∧
      ∃ fs, (tree (condition area)).toFeature .standard (some given) true = .ok fs ∧
        (tree (condition areas)).toFeature .standard (some given) true = .ok fs := by
  intro area areas given condition tree
  have harea := (Spatial.filterOf?_predicate_iff area .vector).mpr
    (Spatial.isReadable_geometry "Polygon" (.arr (by simp)))
  have hareas := (Spatial.filterOf?_predicate_iff areas .vector).mpr
    (Spatial.isReadable_geometry "MultiPolygon" (.arr (by simp)))
  have hfirst : ∀ leaf ∈ Path.leavesBefore [.right .or (.name "a")], filterOf? leaf = none := by
    simp [Path.leavesBefore, Branch.leavesBefore, Expr.leaves, filterOf?]
  have hfound : find? (condition area) = some area := Spatial.find?_plug harea hfirst
  have hplace : replaceFirst (Spatial.predicate areas .vector) (condition area) = condition areas :=
    Spatial.replaceFirst_plug harea hfirst _
  have hvalid : (tree (condition area)).validate = .ok () := rfl
  have hgiven : Geometry.rings given.geometry = .ok (.arr [.arr []]) := rfl
  obtain ⟨own, hown, hreplaced⟩ :=
    toFeature_replaceFirst .standard hvalid rfl rfl hfound hgiven true
  have hother := hreplaced _ areas hareas
  rw [hplace] at hother
  exact ⟨hfound, hplace, _, hown, hother⟩

/-- A point is refused, although the filter that is given wins over it. -/
theorem toFeature_embeddedPoint :
    let area : SpatialFilter := { geometry := Geometry.polygon (.arr []), srid := 4326 }
    let point : SpatialFilter :=
      { geometry := .obj [("type", .str "Point"), ("coordinates", .arr [.int 1, .int 2])]
        srid := 4326 }
    let tree (filter : SpatialFilter) : Query :=
      { select := [.wildcard], tables := ["t"], filter := some (Spatial.predicate filter .vector) }
    filterOf? (Spatial.predicate area .vector) = some area ∧
      filterOf? (Spatial.predicate point .vector) = some point ∧
      (∃ fs, (tree area).toFeature .standard (some area) false = .ok fs) ∧
      (tree point).toFeature .standard (some area) false =
        .error (.geometryType (some "Point")) := by
  intro area point tree
  have harea := (Spatial.filterOf?_predicate_iff area .vector).mpr
    (Spatial.isReadable_geometry "Polygon" (.arr (by simp)))
  have hpoint : Json.IsExactAt 126 (.arr [.int 1, .int 2]) := by
    refine .arr ?_
    simp only [List.forall_mem_cons]
    exact ⟨.int _ (by decide) (by decide), .int _ (by decide) (by decide), by simp⟩
  have hpoint := (Spatial.filterOf?_predicate_iff point .vector).mpr
    (Spatial.isReadable_geometry "Point" hpoint)
  have hfound : ∀ filter : SpatialFilter,
      filterOf? (Spatial.predicate filter .vector) = some filter →
        find? (Spatial.predicate filter .vector) = some filter := fun filter h => h
  have hrings : Geometry.rings area.geometry = .ok (.arr []) := rfl
  have hvalid : ∀ filter, (tree filter).validate = .ok () := fun _ => rfl
  have hareaRun := toFeature_embedded .standard (hvalid area) rfl rfl (hfound area harea) hrings rfl
    false
  have hpointRun := toFeature_embedded .standard (hvalid point) rfl rfl (hfound point hpoint) hrings
    rfl false
  exact ⟨harea, hpoint, ⟨_, hareaRun⟩, hpointRun⟩

end Explicit

end Sql.Query
end FeatureSql
