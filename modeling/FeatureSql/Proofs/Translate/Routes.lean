import FeatureSql.Proofs.Translate.Emitted
import FeatureSql.Proofs.Translate.Given

/-! Three routes to an SQL query with a spatial filter: into the query itself, into its parameters,
or next to its parameters. They end at the same text. -/

set_option autoImplicit false

namespace FeatureSql

open Sql (Expr SelectItem)
open Sql.Expr (always)
open Spatial (IsReadable)

namespace Sql.SelectItem

theorem map_leftGrouped_aggregates (items : List SelectItem) :
    (aggregates items).map leftGrouped = aggregates items := by
  refine (List.map_congr_left fun item hitem => ?_).trans (List.map_id' _)
  have haggregate := (List.mem_filter.mp hitem).2
  cases item with
  | computed e output => cases haggregate
  | _ => rfl

theorem carried_of_ordered {tableName : Option String} {select : List SelectItem}
    {selected : Feature.Query} (h : Selects tableName select selected)
    (hcount : ∀ output, select = [.aggregate .count .star output] → output = none)
    (horder : others select ++ aggregates select = select) :
    carried select = select.map leftGrouped := by
  have hparts : (others select).map leftGrouped ++ aggregates select = select.map leftGrouped := by
    rw [← map_leftGrouped_aggregates, ← List.map_append, horder]
  cases h with
  | count output =>
    obtain rfl := hcount output rfl
    rfl
  | distinct hne => rfl
  | ordinary hne hitems => rw [carried_ordinary hitems, hparts]

end Sql.SelectItem

theorem Spatial.carried_eq {condition : Option Expr} (hfind : condition >>= Spatial.find? = none)
    (halways : condition ≠ some always) :
    Spatial.carried condition = condition.map Expr.leftGrouped := by
  rw [Spatial.carried_of_none (Spatial.extract_of_none hfind), Spatial.remnant,
    Spatial.bind_remove_of_none hfind]
  cases condition with
  | none => rfl
  | some e => rw [Option.filter_some_pos (by simpa using halways)]

/-- Where nothing has to move, a query comes back from its parameters as it was. -/
theorem Sql.Query.StandsFor.viaFeature_eq {query : Sql.Query} {table : String}
    {selected : Feature.Query} (h : query.StandsFor table selected none)
    (hfind : query.filter >>= Spatial.find? = none) (halways : query.filter ≠ some always)
    (hcount : ∀ output, query.select = [.aggregate .count .star output] → output = none)
    (horder : SelectItem.others query.select ++ SelectItem.aggregates query.select = query.select) :
    query.viaFeature = query.leftGrouped := by
  unfold Sql.Query.viaFeature Sql.Query.leftGrouped
  rw [SelectItem.carried_of_ordered h.select hcount horder, Spatial.carried_eq hfind halways,
    h.statement, h.joins, List.map_nil]

theorem Spatial.render_inject_leftGrouped (query : Sql.Query) (filter : SpatialFilter)
    (column : SpatialColumn) : (Spatial.inject query.leftGrouped filter column).render .standard =
      (Spatial.inject query filter column).render .standard := by
  have hcondition : (query.filter.map Expr.leftGrouped).map Expr.leftGrouped =
      query.filter.map Expr.leftGrouped :=
    congrArg Sql.Query.filter (Sql.Query.leftGrouped_leftGrouped query)
  have hfilter := Spatial.leftGrouped_inFrontOf_congr hcondition (Spatial.predicate filter column)
  have hgrouped : (Spatial.inject query.leftGrouped filter column).leftGrouped =
      (Spatial.inject query filter column).leftGrouped := by
    calc (Spatial.inject query.leftGrouped filter column).leftGrouped
      _ = { query.leftGrouped.leftGrouped with
            filter := some (Spatial.inFrontOf (query.filter.map Expr.leftGrouped)
              (Spatial.predicate filter column)).leftGrouped } := rfl
      _ = { query.leftGrouped with
            filter := some (Spatial.inFrontOf query.filter
              (Spatial.predicate filter column)).leftGrouped } := by
        rw [Sql.Query.leftGrouped_leftGrouped, hfilter]
      _ = (Spatial.inject query filter column).leftGrouped := rfl
  rw [← Sql.Query.render_leftGrouped, hgrouped, Sql.Query.render_leftGrouped]

namespace Feature.Query

section Given
variable {query : Query} {tree : Sql.Query}

/-- A filter next to parameters without one is injected into the query that they are read as. -/
theorem IsReadAs.inject (h : query.IsReadAs none tree) (hnone : query.filter? = .ok none)
    (filter : SpatialFilter) :
    query.IsReadAs (some filter) (Spatial.inject tree filter .vector) := by
  obtain ⟨condition, spatial, hcondition, hspatial, hfilter⟩ := h.filter
  obtain rfl : none = spatial := Except.ok.inj (hnone.symm.trans hspatial)
  have hinjected : (Spatial.inject tree filter .vector).filter =
      withFilter condition (some filter) := by
    rw [Spatial.inject, hfilter]
    rfl
  exact { h with filter := ⟨condition, some filter, hcondition, rfl, hinjected⟩ }

/-- A filter is read from the parameters as if it was given next to them. -/
theorem IsReadAs.withRings {rings : Json} {srid : Int64}
    (h : query.IsReadAs (some { geometry := Geometry.polygon rings, srid }) tree)
    (hread : IsReadable (Geometry.esri rings)) :
    (query.withRings rings srid).IsReadAs none tree := by
  obtain ⟨condition, spatial, hcondition, hspatial, hfilter⟩ := h.filter
  have hown := filter?_withRings query srid hread.readsBack
  exact { h with filter := ⟨condition, spatial, hcondition, hown.trans hspatial, hfilter⟩ }

end Given
end Feature.Query

namespace Converter

open Sql (Query)

theorem resolve_polygon (geostore : Geostore) (c : Json) :
    Converter.resolve { geostore } { geoJson := some (Geometry.polygon c) } =
      .ok (some { geometry := Geometry.polygon c }) := rfl

theorem filtered_eq_ok {geostore : Geostore} {sql : String} {source : GeometrySource}
    {tree : Query} {filter : SpatialFilter} (hparse : Query.parse .standard sql = .ok tree)
    (hfilter : Converter.resolve { geostore } source = .ok (some filter))
    (hvalid : tree.validate = .ok ()) : Converter.filtered { geostore } { sql, source } =
      .ok {
        query := (Spatial.inject tree filter .vector).render .standard
        tree := Spatial.inject tree filter .vector } := by
  unfold Converter.filtered
  simp only [bind_eq_ok]
  refine ⟨tree, parse_eq_ok.mpr hparse, some filter, hfilter, ?_⟩
  exact Query.ofQuery_eq_ok.mpr ⟨hvalid, rfl⟩

/-- A polygon reaches the SQL text on every route: injected into the query, through parameters that
hold it, or next to the parameters of the query. -/
theorem routes_agree {geostore : Geostore} {sql : String} {conversion : Conversion} {c : Json}
    (h : Converter.toFeature { geostore } { sql } = .ok conversion)
    (hfind : conversion.tree.filter >>= Spatial.find? = none)
    (halways : conversion.tree.filter ≠ some always)
    (hcount : ∀ output, conversion.tree.select = [.aggregate .count .star output] → output = none)
    (horder : SelectItem.others conversion.tree.select ++
      SelectItem.aggregates conversion.tree.select = conversion.tree.select)
    (htable : ∀ table ∈ conversion.tree.table?, table ≠ "" ∧ trim table = table)
    (hitems : ∀ item ∈ conversion.tree.select, Feature.IsTrimmed item)
    (hfree : conversion.tree.LabelFree)
    (hread : Json.parse? (Geometry.esri c).compact = some (Geometry.esri c)) :
    let source : GeometrySource := { geoJson := some (Geometry.polygon c) }
    ∃ direct plain, Converter.filtered { geostore } { sql, source } = .ok direct ∧
      conversion.feature = some plain ∧
      (∃ given fs through, Converter.toFeature { geostore } { sql, source } = .ok given ∧
        given.feature = some fs ∧ Converter.toSql { geostore } { query := fs } = .ok through ∧
        through.query = direct.query) ∧
      ∃ beside, Converter.toSql { geostore } { query := plain, source } = .ok beside ∧
        beside.query = direct.query := by
  intro source
  obtain ⟨tree, plain, hparse, hplain, rfl⟩ := toFeature_eq_ok.mp h
  have hquery := Sql.Query.wellFormed_of_parse hparse
  obtain ⟨table, selected, found, hstands, rfl⟩ := Sql.Query.standsFor_of_toFeature hquery hplain
  obtain rfl : found = none :=
    Except.ok.inj (hstands.filter.symm.trans (Spatial.extract_of_none hfind))
  obtain ⟨hname, htrim⟩ := htable table (by simp [Query.table?, hstands.tables])
  let filter : SpatialFilter := { geometry := Geometry.polygon c }
  let back := Spatial.inject tree.leftGrouped filter .vector
  have hsource : Converter.resolve { geostore } source = .ok (some filter) :=
    resolve_polygon geostore c
  have hreads : (tree.assemble selected none).IsReadAs none tree.leftGrouped := by
    rw [← hstands.viaFeature_eq hfind halways hcount horder]
    exact Feature.Query.toSql_eq_ok.mp
      (hstands.toSql hquery hfree hname htrim hitems (by simp))
  have hnone := Feature.Query.filter?_of_none hstands.select.untouched.2.2
  have hinjected := hreads.inject hnone filter
  have hgiven : tree.toFeature .standard (some filter) false =
      .ok ((tree.assemble selected none).withRings c filter.srid) := by
    rw [Sql.Query.toFeature_given, hplain]
    rfl
  have hthrough := Feature.Query.toSql_eq_ok.mpr (hinjected.withRings ⟨rfl, hread⟩)
  have hbeside := Feature.Query.toSql_eq_ok.mpr hinjected
  have hvalid : back.validate = .ok () := hstands.leftGrouped.validate
  have htext : back.render .standard = (Spatial.inject tree filter .vector).render .standard :=
    Spatial.render_inject_leftGrouped tree filter .vector
  refine ⟨_, _, filtered_eq_ok hparse hsource hstands.validate, rfl, ?_, ?_⟩
  · exact ⟨_, _, _, (toFeature_resolved hsource).mpr ⟨tree, _, hparse, hgiven, rfl⟩, rfl,
      toSql_of_toSql hthrough hvalid, htext⟩
  · refine ⟨{ query := back.render .standard, tree := back }, ?_, htext⟩
    rw [toSql_resolved hsource]
    exact Conversion.ofFeature_eq_ok.mpr ⟨back, hbeside, hvalid, rfl⟩

/-- An aggregate behind a column, and a condition with `OR` outermost. -/
theorem routes_agree_disjunction :
    let sql := "select a, sum(n) as s from t where b or c and d order by a desc"
    let source : GeometrySource := { geoJson := some (Geometry.polygon (.arr [])) }
    ∃ direct plain, Converter.filtered {} { sql, source } = .ok direct ∧
      (∃ conversion, Converter.toFeature {} { sql } = .ok conversion ∧
        conversion.feature = some plain) ∧
      (∃ given fs through, Converter.toFeature {} { sql, source } = .ok given ∧
        given.feature = some fs ∧ Converter.toSql {} { query := fs } = .ok through ∧
        through.query = direct.query) ∧
      ∃ beside, Converter.toSql {} { query := plain, source } = .ok beside ∧
        beside.query = direct.query := by
  intro sql source
  let tree : Query := {
    select := [.column "a" none, .aggregate .sum (.column "n") (some "s")]
    tables := ["t"]
    filter := some (.logical .or (.name "b") (.logical .and (.name "c") (.name "d")))
    orderBy := [⟨.name "a", some .desc⟩] }
  have hparse : Query.parse .standard sql = .ok tree := by decide +kernel
  obtain ⟨fs, hfs⟩ : ∃ fs, tree.toFeature .standard none false = .ok fs :=
    exists_of_toOption (by decide +kernel)
  have hconversion : Converter.toFeature {} { sql } =
      .ok { query := fs.queryString, feature := some fs, tree } :=
    toFeature_eq_ok.mpr ⟨tree, fs, hparse, hfs, rfl⟩
  have hfree : tree.LabelFree := by
    refine ⟨?_, by simp [tree], ?_, by simp [tree], ?_⟩
    · simp [tree, SelectItem.LabelFree]
    · intro e he
      obtain rfl := Option.some.inj he
      exact ⟨True.intro, True.intro, True.intro⟩
    · simp [tree, Expr.LabelFree]
  have htable : ∀ table ∈ tree.table?, table ≠ "" ∧ trim table = table := by
    intro table htable
    obtain rfl := Option.some.inj htable
    decide
  have hitems : ∀ item ∈ tree.select, Feature.IsTrimmed item := by
    simp only [tree, List.forall_mem_cons]
    exact ⟨True.intro, ⟨by decide, by decide⟩, by simp⟩
  have hread : Json.parse? (Geometry.esri (.arr [])).compact = some (Geometry.esri (.arr [])) := by
    refine Json.parse?_compact (.obj (by decide) ?_)
    simp only [List.forall_mem_cons]
    exact ⟨.str _ _, .arr (by simp), by simp⟩
  obtain ⟨direct, plain, hdirect, hplain, hthrough, hbeside⟩ := routes_agree hconversion rfl
    (by simp [tree, always]) (by simp [tree]) rfl htable hitems hfree hread
  exact ⟨direct, plain, hdirect, ⟨_, hconversion, hplain⟩, hthrough, hbeside⟩

end Converter
end FeatureSql
