import FeatureSql.Proofs.Expr.Label
import FeatureSql.Proofs.Json.Exact
import FeatureSql.Proofs.Spatial.Grouping
import FeatureSql.Proofs.Spatial.Reference

/-! The predicate of a filter: it is well formed, and it stands for the filter it was built from as
far as the geometry's text reads back. -/

set_option autoImplicit false

namespace FeatureSql.Spatial

open Sql (Expr IsNumber IsFunctionName)
open Sql.Expr (WellFormed LabelFree LabelFreeArguments)

theorem isNumber_int (n : Int) : IsNumber n.repr :=
  ⟨Numeral.ofInt n, Numeral.wellFormed_ofInt n, (Numeral.chars_ofInt n).symm⟩

theorem isFunctionName_of_mem {function : String}
    (h : function ∈ ["ST_INTERSECTS", "ST_SetSRID", "ST_GeomFromGeoJSON", "ST_Transform"]) :
    IsFunctionName function := by
  simp only [List.mem_cons, List.not_mem_nil, or_false] at h
  rcases h with rfl | rfl | rfl | rfl <;>
    exact ⟨⟨'S', _, rfl, rfl, List.all_eq_true.mp rfl⟩, rfl⟩

theorem wellFormed_column (column : SpatialColumn) : (columnExpr column).WellFormed := by
  cases column with
  | vector => exact .name _
  | raster =>
    refine .call (isFunctionName_of_mem (by simp)) ?_
    simp only [List.forall_mem_cons]
    exact ⟨.positional (.name _), .positional (.number (isNumber_int _)), by simp⟩

theorem wellFormed_predicate (filter : SpatialFilter) (column : SpatialColumn) :
    (predicate filter column).WellFormed := by
  have hgeometry : (Expr.call "ST_GeomFromGeoJSON" [.text filter.geometry.compact]).WellFormed := by
    refine .call (isFunctionName_of_mem (by simp)) ?_
    simp only [List.forall_mem_cons]
    exact ⟨.positional (.text _), by simp⟩
  refine .call (isFunctionName_of_mem (by simp)) ?_
  simp only [List.forall_mem_cons]
  refine ⟨.positional (.call (isFunctionName_of_mem (by simp)) ?_),
    .positional (wellFormed_column column), by simp⟩
  simp only [List.forall_mem_cons]
  exact ⟨.positional hgeometry, .positional (.number (isNumber_int _)), by simp⟩

theorem labelFree_column (column : SpatialColumn) : (columnExpr column).LabelFree := by
  cases column with
  | vector => exact True.intro
  | raster =>
    simp only [columnExpr, LabelFree, LabelFreeArguments, numberExpr, true_and, and_true]
    exact ⟨fun _ => Expr.not_opensWithLabel_name _,
      fun _ => Expr.not_opensWithLabel_number (isNumber_int _)⟩

theorem not_opensWithLabel_column (column : SpatialColumn) :
    ¬ Expr.OpensWithLabel ((columnExpr column).render .standard) := by
  cases column with
  | vector => exact Expr.not_opensWithLabel_name _
  | raster => exact Expr.not_opensWithLabel_call (isFunctionName_of_mem (by simp)) _

theorem labelFree_predicate (filter : SpatialFilter) (column : SpatialColumn) :
    (predicate filter column).LabelFree := by
  simp only [predicate, LabelFree, LabelFreeArguments, numberExpr, and_true]
  refine ⟨fun _ => ?_, ⟨fun _ => ?_, fun _ => ?_, fun _ => ?_⟩, fun _ => ?_, labelFree_column column⟩
  · exact Expr.not_opensWithLabel_call (isFunctionName_of_mem (by simp)) _
  · exact Expr.not_opensWithLabel_call (isFunctionName_of_mem (by simp)) _
  · exact Expr.not_opensWithLabel_text _
  · exact Expr.not_opensWithLabel_number (isNumber_int _)
  · exact not_opensWithLabel_column column

theorem sridIn_numberExpr (n : Int64) : sridIn (numberExpr n) = some n := readInt64?_repr n

/-- The column holds no text literal, and its number stands behind that of the filter. -/
theorem filterOf?_predicate (filter : SpatialFilter) (column : SpatialColumn) :
    filterOf? (predicate filter column) =
      ((Json.parse? filter.geometry.compact).filter Json.isObject).map fun geometry =>
        { geometry, srid := filter.srid } := by
  have hsrid : sridAmong [.call "ST_SetSRID" [.call "ST_GeomFromGeoJSON"
      [.text filter.geometry.compact], numberExpr filter.srid], columnExpr column] =
      some filter.srid := by
    simp only [sridAmong, sridIn_numberExpr, sridIn]
    rfl
  have hgeometry : geometryAmong [.call "ST_SetSRID" [.call "ST_GeomFromGeoJSON"
      [.text filter.geometry.compact], numberExpr filter.srid], columnExpr column] =
      (Json.parse? filter.geometry.compact).filter Json.isObject := by
    cases column <;> simp [geometryAmong, geometryIn, numberExpr, columnExpr]
  have hname : isIntersects "ST_INTERSECTS" = true := by decide +kernel
  rw [predicate, filterOf?, if_pos hname, hsrid, hgeometry]
  rfl

/-- An object that its compact text reads back as. -/
structure IsReadable (geometry : Json) : Prop where
  object : geometry.isObject = true
  readsBack : Json.parse? geometry.compact = some geometry

theorem IsReadable.of_exact {geometry : Json} (h : Json.IsExactAt Json.maxDepth geometry)
    (hobject : geometry.isObject = true) : IsReadable geometry := ⟨hobject, Json.parse?_compact h⟩

/-- A predicate stands for its own filter just where its geometry is readable. -/
theorem filterOf?_predicate_iff (filter : SpatialFilter) (column : SpatialColumn) :
    filterOf? (predicate filter column) = some filter ↔ IsReadable filter.geometry := by
  rw [filterOf?_predicate]
  constructor
  · intro h
    obtain ⟨geometry, hread, hfilter⟩ := Option.map_eq_some_iff.mp h
    obtain ⟨hread, hobject⟩ := Option.filter_eq_some_iff.mp hread
    rw [← hfilter] at hread ⊢
    exact ⟨hobject, hread⟩
  · rintro ⟨hobject, hread⟩
    rw [hread, Option.filter_some_pos hobject]
    rfl

section Read
variable {filter : SpatialFilter} {geometry : Json} (column : SpatialColumn)
  (hread : Json.parse? filter.geometry.compact = some geometry) (hobject : geometry.isObject = true)
include hread hobject

/-- A predicate stands for whatever geometry its text reads as. -/
theorem find?_predicate_of_parse? : find? (predicate filter column) = some { filter with geometry } := by
  have hfilter := filterOf?_predicate filter column
  rw [hread, Option.filter_some_pos hobject] at hfilter
  exact hfilter

theorem takeOut?_predicate_of_parse? : takeOut? (predicate filter column) = some none := by
  have hfilter : filterOf? (predicate filter column) = some { filter with geometry } :=
    find?_predicate_of_parse? column hread hobject
  rw [takeOut?_leaf (by simp [predicate]), hfilter]
  rfl

end Read

section Readable
variable {filter : SpatialFilter} (column : SpatialColumn) (h : IsReadable filter.geometry)
include h

theorem find?_predicate : find? (predicate filter column) = some filter :=
  find?_predicate_of_parse? column h.readsBack h.object

theorem takeOut?_predicate : takeOut? (predicate filter column) = some none :=
  takeOut?_predicate_of_parse? column h.readsBack h.object

end Readable

end FeatureSql.Spatial
