import FeatureSql.Proofs.Query.RoundTrip
import FeatureSql.Proofs.Translate.Condition
import FeatureSql.Proofs.Translate.Select

/-! Queries on their way through the parameters of a feature service and back: what they come back
as, and that the parameters are the same the second time. -/

set_option autoImplicit false

namespace FeatureSql

open Sql (Expr OrderBy SelectItem)
open Sql.SelectItem (Selects)
open Spatial (extract IsReadable)

namespace Feature.Query

/-- A query on a table with the clauses that stand behind its condition. -/
def withClauses (query : Query) (tree : Sql.Query) : Query :=
  { query with
    groupBy := Sql.Query.parameterOf (tree.groupBy.map (Expr.render .standard))
    orderBy := Sql.Query.parameterOf (tree.orderBy.map (Sql.Query.orderText .standard))
    resultRecordCount := tree.limit
    supportsPagination := tree.limit.map fun _ => true
    resultOffset := tree.offset }

end Feature.Query

namespace Sql.Query

/-- The parameters of a query, put together from those of its select clause and of its filter. -/
def assemble (query : Query) (selected : Feature.Query) (found : Option RingFilter) :
    Feature.Query :=
  let filtered := selected.withRingFilter found
  (filtered.withCondition (query.filter >>= Spatial.remove)).withClauses query

/-- A query on one table that comes to parameters, part by part. -/
structure StandsFor (query : Query) (table : String) (selected : Feature.Query)
    (found : Option RingFilter) : Prop where
  statement : query.statement = .select
  tables : query.tables = [table]
  joins : query.joins = []
  select : Selects (some table) query.select selected
  filter : extract query.filter = .ok found

theorem addCondition_filter (filter : Option Expr) (query : Feature.Query) :
    (match filter with
      | some condition => addCondition .standard condition query
      | none => pure query) = (extract filter).map fun found =>
        (query.withRingFilter found).withCondition (filter >>= Spatial.remove) := by
  cases filter with
  | none => rfl
  | some condition => exact Feature.Query.addCondition_eq condition query

theorem toFeature_eq (query : Query) : query.toFeature .standard none false = (do
    query.validate
    if query.isDelete then throw .deleteNotExpressible
    let selected ← addSelect .standard query.select { tableName := query.table? }
    let found ← extract query.filter
    pure (query.assemble selected found)) := by
  unfold toFeature
  cases query.validate with
  | error error => rfl
  | ok _ =>
    cases query.isDelete with
    | true => rfl
    | false =>
      change (addSelect .standard query.select { tableName := query.table? } >>= _) =
        addSelect .standard query.select { tableName := query.table? } >>= _
      refine congrArg _ (funext fun selected => ?_)
      have hfilter := addCondition_filter query.filter selected
      unfold assemble
      cases hcase : query.filter with
      | none => rfl
      | some condition =>
        rw [hcase] at hfilter
        change addCondition .standard condition selected >>= _ = _
        rw [show addCondition .standard condition selected = _ from hfilter]
        cases extract (some condition) <;> rfl

/-- A selection that passes validation is one on a single table. -/
theorem validate_selection {query : Query} (h : query.isDelete = false) :
    query.validate = .ok () ↔ query.statement = .select ∧ (∃ table, query.tables = [table]) ∧
      query.joins = [] ∧ query.select ≠ [] := by
  obtain ⟨statement, select, tables, joins, filter, groupBy, orderBy, limit, offset⟩ := query
  unfold validate
  cases statement with
  | delete => exact absurd h (by simp [isDelete])
  | other keyword sql => simp
  | select =>
    match tables with
    | [] => simp
    | [table] => cases joins <;> cases select <;> simp [isDelete]
    | _ :: _ :: _ => simp

theorem isDelete_of_select {query : Query} (h : query.statement = .select) :
    query.isDelete = false := by
  rw [isDelete, h]
  rfl

theorem StandsFor.validate {query : Query} {table : String} {selected : Feature.Query}
    {found : Option RingFilter} (h : StandsFor query table selected found) :
    query.validate = .ok () :=
  (validate_selection (isDelete_of_select h.statement)).mpr
    ⟨h.statement, ⟨table, h.tables⟩, h.joins, h.select.ne_nil⟩

theorem StandsFor.toFeature {query : Query} {table : String} {selected : Feature.Query}
    {found : Option RingFilter} (h : StandsFor query table selected found) :
    query.toFeature .standard none false = .ok (query.assemble selected found) := by
  have hdelete := isDelete_of_select h.statement
  have htable : query.table? = some table := by rw [table?, h.tables, List.head?_cons]
  rw [toFeature_eq, h.validate, hdelete, htable, h.select.addSelect, h.filter]
  rfl

theorem standsFor_of_toFeature {query : Query} (hquery : query.WellFormed) {fs : Feature.Query}
    (h : query.toFeature .standard none false = .ok fs) : ∃ table selected found,
      StandsFor query table selected found ∧ fs = query.assemble selected found := by
  rw [toFeature_eq, bind_eq_ok] at h
  obtain ⟨_, hvalid, h⟩ := h
  cases hdelete : query.isDelete with
  | true =>
    rw [hdelete] at h
    cases h
  | false =>
    rw [hdelete] at h
    obtain ⟨selected, hselected, h⟩ := bind_eq_ok.mp h
    obtain ⟨found, hfound, h⟩ := bind_eq_ok.mp h
    obtain ⟨hstatement, ⟨table, htables⟩, hjoins, _⟩ := (validate_selection hdelete).mp hvalid
    have hlist : SelectItem.ListWellFormed query.select := by
      cases hquery with
      | select hselect => exact hselect
      | delete => cases hstatement
      | other => cases hstatement
    rw [table?, htables, List.head?_cons] at hselected
    exact ⟨table, selected, found, ⟨hstatement, htables, hjoins,
      SelectItem.selects_of_addSelect hlist hselected, hfound⟩, (Except.ok.inj h).symm⟩

/-- A query after its way through the parameters. -/
def viaFeature (query : Query) : Query where
  select := SelectItem.carried query.select
  tables := query.tables
  filter := Spatial.carried query.filter
  groupBy := query.groupBy.map Expr.leftGrouped
  orderBy := query.orderBy.map OrderBy.leftGrouped
  limit := query.limit
  offset := query.offset

end Sql.Query

namespace Feature.Query

section Frame
variable (query : Query)

theorem condition_withRingFilter (found : Option RingFilter) :
    (query.withRingFilter found).condition = query.condition := by
  cases found <;> rfl

theorem selectItems_withRingFilter (found : Option RingFilter) :
    (query.withRingFilter found).selectItems = query.selectItems := by
  cases found <;> rfl

theorem tableName_withRingFilter (found : Option RingFilter) :
    (query.withRingFilter found).tableName = query.tableName := by
  cases found <;> rfl

end Frame

/-- The filter of parameters is read from them as the text of its rings is. -/
theorem filter?_withRingFilter {query : Query} (h : query.geometry = none)
    {found : Option RingFilter} (hread : ∀ filter ∈ found, Json.IsLegibleAt 126 filter.rings) :
    (query.withRingFilter found).filter? =
      .ok ((found.map RingFilter.reread).map RingFilter.toSpatial) := by
  cases found with
  | none => exact filter?_of_none h
  | some filter =>
    exact filter?_withRings query filter.srid (Geometry.parse?_esri (hread filter rfl))

end Feature.Query

namespace Sql.Query

section Way
variable {query : Query} {table : String} {selected : Feature.Query} {found : Option RingFilter}

theorem WellFormed.clauses (h : query.WellFormed) : (∀ e ∈ query.filter, e.WellFormed) ∧
    (∀ e ∈ query.groupBy, e.WellFormed) ∧ ∀ order ∈ query.orderBy, order.expression.WellFormed := by
  cases h with
  | select _ _ hfilter hgroup horder => exact ⟨hfilter, hgroup, horder⟩
  | delete _ hfilter => exact ⟨hfilter, by simp, by simp⟩
  | other => simp

theorem StandsFor.toSql (h : StandsFor query table selected found) (hquery : query.WellFormed)
    (hfree : query.LabelFree) (hname : table ≠ "") (htrim : trim table = table)
    (hitems : ∀ item ∈ query.select, Feature.IsTrimmed item)
    (hread : ∀ filter ∈ found, IsReadable (Geometry.polygon filter.rings)) :
    (query.assemble selected found).toSql none = .ok query.viaFeature := by
  obtain ⟨hfilters, hgroups, horders⟩ := hquery.clauses
  obtain ⟨htable, hdefault, hgeometry⟩ := h.select.untouched
  have htable : Feature.given? (query.assemble selected found).tableName = some table := by
    change Feature.given? (selected.withRingFilter found).tableName = _
    rw [Feature.Query.tableName_withRingFilter, htable]
    exact Feature.given?_of_trim htrim hname
  have hcondition : (query.assemble selected found).conditionExpr? =
      .ok (Spatial.remnant query.filter) := by
    have hdefault : (selected.withRingFilter found).condition = Feature.defaultWhere :=
      (Feature.Query.condition_withRingFilter selected found).trans hdefault
    refine Feature.Query.conditionExpr?_withCondition hdefault ?_ ?_
    · exact Spatial.forall_bind_remove Spatial.wellFormed_remove hfilters
    · exact Spatial.forall_bind_remove Spatial.labelFree_remove hfree.filter
  have hfilter : (query.assemble selected found).filter? =
      .ok (found.map RingFilter.toSpatial) := by
    change (selected.withRingFilter found).filter? = _
    rw [Feature.Query.filter?_withRingFilter hgeometry (RingFilter.legible_of_readable hread),
      RingFilter.map_reread hread]
  have hgroup : Feature.parsedList Expr.parseList (query.assemble selected found).groupBy =
      .ok (query.groupBy.map Expr.leftGrouped) := Feature.groupBy_parameter hgroups hfree.groupBy
  have horder : Feature.parsedList OrderBy.parseList (query.assemble selected found).orderBy =
      .ok (query.orderBy.map OrderBy.leftGrouped) := Feature.orderBy_parameter horders hfree.orderBy
  have hselect : (query.assemble selected found).selectItems =
      .ok (SelectItem.carried query.select) := by
    change (selected.withRingFilter found).selectItems = _
    rw [Feature.Query.selectItems_withRingFilter]
    exact h.select.selectItems hfree.select hitems
  exact Feature.Query.toSql_eq_ok.mpr {
    statement := rfl
    joins := rfl
    tables := ⟨table, htable, h.tables⟩
    select := hselect
    filter := ⟨_, _, hcondition, hfilter, (Spatial.withFilter_carried h.filter).symm⟩
    groupBy := hgroup
    orderBy := horder
    limit := rfl
    offset := rfl }

theorem WellFormed.viaFeature (h : query.WellFormed) (hselect : SelectItem.ListWellFormed
    (SelectItem.carried query.select)) : query.viaFeature.WellFormed := by
  obtain ⟨hfilter, hgroup, horder⟩ := h.clauses
  refine .select hselect (by simp) (Spatial.wellFormed_carried hfilter) ?_ ?_
  · exact List.forall_mem_map.mpr fun e he => (hgroup e he).leftGrouped
  · exact List.forall_mem_map.mpr fun order ho => (horder order ho).leftGrouped

theorem LabelFree.viaFeature (h : query.LabelFree) : query.viaFeature.LabelFree where
  select := SelectItem.labelFree_carried h.select
  joins := by simp [Query.viaFeature]
  filter := Spatial.labelFree_carried h.filter
  groupBy := h.leftGrouped.groupBy
  orderBy := h.leftGrouped.orderBy

/-- How chains are grouped does not matter for the parameters. -/
theorem StandsFor.leftGrouped (h : StandsFor query table selected found) :
    StandsFor query.leftGrouped table selected found where
  statement := h.statement
  tables := h.tables
  joins := by rw [Query.leftGrouped, h.joins, List.map_nil]
  select := h.select.leftGrouped
  filter := (Spatial.extract_leftGrouped query.filter).trans h.filter

theorem StandsFor.viaFeature (h : StandsFor query table selected found)
    (hread : ∀ filter ∈ found, IsReadable (Geometry.polygon filter.rings)) :
    StandsFor query.viaFeature.leftGrouped table selected found := by
  have hvia : StandsFor query.viaFeature table selected found :=
    ⟨rfl, h.tables, rfl, h.select.carried, Spatial.extract_carried h.filter hread⟩
  exact hvia.leftGrouped

theorem orderText_leftGrouped (dialect : Dialect) (order : OrderBy) :
    orderText dialect order.leftGrouped = orderText dialect order := by
  obtain ⟨e, direction⟩ := order
  cases direction with
  | none => exact Expr.render_leftGrouped dialect e
  | some direction =>
    cases direction <;> simp only [orderText, OrderBy.leftGrouped, Expr.render_leftGrouped]

theorem withClauses_leftGrouped (fs : Feature.Query) (query : Query) :
    fs.withClauses query.leftGrouped = fs.withClauses query := by
  have hgroup : (query.groupBy.map Expr.leftGrouped).map (Expr.render .standard) =
      query.groupBy.map (Expr.render .standard) := map_map_of_eq (Expr.render_leftGrouped _) _
  have horder : (query.orderBy.map OrderBy.leftGrouped).map (orderText .standard) =
      query.orderBy.map (orderText .standard) := map_map_of_eq (orderText_leftGrouped _) _
  unfold Feature.Query.withClauses leftGrouped
  dsimp only
  rw [hgroup, horder]

theorem assemble_leftGrouped (query : Query) (selected : Feature.Query) (found : Option RingFilter) :
    query.leftGrouped.assemble selected found = query.assemble selected found := by
  have hrest := Spatial.bind_remove_leftGrouped query.filter
  unfold assemble
  rw [withClauses_leftGrouped, ← Feature.Query.withCondition_leftGrouped, Query.leftGrouped, hrest,
    Feature.Query.withCondition_leftGrouped]

theorem StandsFor.assemble_viaFeature (h : StandsFor query table selected found)
    (hread : ∀ filter ∈ found, IsReadable (Geometry.polygon filter.rings)) :
    query.viaFeature.leftGrouped.assemble selected found = query.assemble selected found := by
  have hdefault : (selected.withRingFilter found).condition = Feature.defaultWhere :=
    (Feature.Query.condition_withRingFilter selected found).trans h.select.untouched.2.1
  have hremnant : query.viaFeature.filter >>= Spatial.remove = Spatial.remnant query.filter :=
    Spatial.bind_remove_carried h.filter hread
  have hclauses : ∀ fs : Feature.Query, fs.withClauses query.viaFeature = fs.withClauses query :=
    fun fs => withClauses_leftGrouped fs query
  rw [assemble_leftGrouped]
  unfold assemble
  rw [hclauses, hremnant, Feature.Query.withCondition_remnant hdefault]

end Way
end Sql.Query

namespace Converter

open Sql (Query Expr)

theorem parse_eq_ok {mode : Sql.Mode} {sql : String} {tree : Query} :
    Converter.parse mode sql = .ok tree ↔ Query.parse mode sql = .ok tree := by
  unfold Converter.parse
  cases Query.parse mode sql with
  | ok other => exact ⟨fun h => congrArg _ (Except.ok.inj h), fun h => congrArg _ (Except.ok.inj h)⟩
  | error error =>
    constructor <;>
    · intro h
      cases h

section Resolved
variable {geostore : Geostore} {filter : Option SpatialFilter} {conversion : Conversion}

/-- A request stands for its text and for the filter that its source comes to. -/
theorem toFeature_resolved {request : Request.ToFeature}
    (hfilter : Converter.resolve { geostore } request.source = .ok filter) :
    Converter.toFeature { geostore } request = .ok conversion ↔
      ∃ tree fs, Query.parse .standard request.sql = .ok tree ∧
        tree.toFeature .standard filter request.excludeGeometries = .ok fs ∧
          conversion = { query := fs.queryString, feature := some fs, tree } := by
  unfold Converter.toFeature Conversion.toFeature
  rw [hfilter]
  simp only [bind_eq_ok, parse_eq_ok]
  constructor
  · rintro ⟨tree, hparse, _, hsame, fs, hfs, hconversion⟩
    obtain rfl := Except.ok.inj hsame
    exact ⟨tree, fs, hparse, hfs, (Except.ok.inj hconversion).symm⟩
  · rintro ⟨tree, fs, hparse, hfs, rfl⟩
    exact ⟨tree, hparse, filter, rfl, fs, hfs, rfl⟩

/-- A query goes to its parameters also by way of its text. -/
theorem toFeature_render {tree : Query} (h : tree.WellFormed) (hfree : tree.LabelFree)
    {excludeGeometries : Bool} {fs : Feature.Query}
    (hfs : tree.leftGrouped.toFeature .standard none excludeGeometries = .ok fs) :
    Converter.toFeature { geostore } { sql := tree.render .standard, excludeGeometries } =
      .ok { query := fs.queryString, feature := some fs, tree := tree.leftGrouped } :=
  (toFeature_resolved rfl).mpr ⟨_, fs, h.parse_render hfree, hfs, rfl⟩

theorem toSql_resolved {request : Request.ToSql}
    (hfilter : Converter.resolve { geostore } request.source = .ok filter) :
    Converter.toSql { geostore } request = Conversion.ofFeature .standard request.query filter := by
  unfold Converter.toSql
  rw [hfilter]
  rfl

end Resolved

theorem toFeature_eq_ok {geostore : Geostore} {sql : String} {conversion : Conversion} :
    Converter.toFeature { geostore } { sql } = .ok conversion ↔
      ∃ tree fs, Query.parse .standard sql = .ok tree ∧
        tree.toFeature .standard none false = .ok fs ∧
          conversion = { query := fs.queryString, feature := some fs, tree } :=
  toFeature_resolved rfl

theorem toSql_of_toSql {geostore : Geostore} {fs : Feature.Query} {tree : Query}
    (h : fs.toSql none = .ok tree) (hvalid : tree.validate = .ok ()) :
    Converter.toSql { geostore } { query := fs } =
      .ok { query := tree.render .standard, tree } :=
  (toSql_resolved rfl).trans (Conversion.ofFeature_eq_ok.mpr ⟨tree, h, hvalid, rfl⟩)

/-- The parameters of a text come back as the query they were made from, as far as parameters can
hold it, and its text has the same parameters again. -/
theorem feature_round_trip {geostore : Geostore} {sql : String} {conversion : Conversion}
    (h : Converter.toFeature { geostore } { sql } = .ok conversion)
    (htable : ∀ table ∈ conversion.tree.table?, table ≠ "" ∧ trim table = table)
    (hitems : ∀ item ∈ conversion.tree.select, Feature.IsTrimmed item)
    (hfree : conversion.tree.LabelFree)
    (hread : ∀ filter, conversion.tree.filter >>= Spatial.find? = some filter →
      Json.parse? filter.geometry.compact = some filter.geometry) :
    Query.parse .standard sql = .ok conversion.tree ∧
      ∃ fs back again, conversion.feature = some fs ∧
        Converter.toSql { geostore } { query := fs } = .ok back ∧
        back.tree = conversion.tree.viaFeature ∧
        Converter.toFeature { geostore } { sql := back.query } = .ok again ∧
        again.feature = conversion.feature := by
  obtain ⟨tree, fs, hparse, hfs, rfl⟩ := toFeature_eq_ok.mp h
  have hquery := Sql.Query.wellFormed_of_parse hparse
  obtain ⟨table, selected, found, hstands, rfl⟩ := Sql.Query.standsFor_of_toFeature hquery hfs
  obtain ⟨hname, htrim⟩ := htable table (by simp [Query.table?, hstands.tables])
  have hpolygon : ∀ filter ∈ found, IsReadable (Geometry.polygon filter.rings) := by
    rintro filter rfl
    exact Spatial.readable_of_extract hstands.filter hread
  have hback := hstands.toSql hquery hfree hname htrim hitems hpolygon
  have hagain := hstands.viaFeature hpolygon
  have hvia : tree.viaFeature.WellFormed :=
    hquery.viaFeature hstands.select.carried.listWellFormed
  have hvalid : tree.viaFeature.validate = .ok () := by
    rw [← Sql.Query.validate_leftGrouped]
    exact (Sql.Query.validate_selection rfl).mpr
      ⟨rfl, ⟨table, hagain.tables⟩, rfl, hagain.select.ne_nil⟩
  have hfeature := hagain.toFeature
  rw [hstands.assemble_viaFeature hpolygon] at hfeature
  have hreparse := hvia.parse_render hfree.viaFeature
  exact ⟨hparse, _, _, _, rfl, toSql_of_toSql hback hvalid, rfl,
    toFeature_eq_ok.mpr ⟨_, _, hreparse, hfeature, rfl⟩, rfl⟩

/-- An aggregate in front of a column, and a predicate behind another condition. -/
theorem feature_round_trip_area :
    let rings : Json := .arr [.arr [.arr [.int 0, .int (-5)]]]
    let area : SpatialFilter := {
      geometry := .obj [("type", .str "MultiPolygon"), ("coordinates", .arr [rings])], srid := 3857 }
    let found : SpatialFilter := { geometry := Geometry.polygon rings, srid := 3857 }
    let sql := "select sum(n) s, a from \"a b\" where c and " ++
      (Spatial.predicate area .vector).render .standard ++ " order by a desc limit 7"
    let fs : Feature.Query := {
      outFields := some "a"
      outStatistics := [{ field := "n", type := "sum", output := some "s" }]
      tableName := some "a b"
      condition := "c"
      spatialRel := some "esriSpatialRelIntersects"
      geometryType := some "esriGeometryPolygon"
      inSR := some "\x7b\"wkid\":3857\x7d"
      geometry := some "\x7b\"type\":\"polygon\",\"rings\":[[[0,-5]]]\x7d"
      orderBy := some "a desc"
      resultRecordCount := some 7
      supportsPagination := some true }
    ∃ conversion back again, Converter.toFeature {} { sql } = .ok conversion ∧
      conversion.feature = some fs ∧ Converter.toSql {} { query := fs } = .ok back ∧
      back.tree.filter = some (.logical .and (Spatial.predicate found .vector) (.name "c")) ∧
      Converter.toFeature {} { sql := back.query } = .ok again ∧ again.feature = some fs := by
  intro rings area found sql fs
  let tree : Query := {
    select := [.aggregate .sum (.column "n") (some "s"), .column "a" none]
    tables := ["a b"]
    filter := some (.logical .and (.name "c") (Spatial.predicate area .vector))
    orderBy := [⟨.name "a", some .desc⟩]
    limit := some 7 }
  have hparse : Query.parse .standard sql = .ok tree := by decide +kernel
  have hfeature : (tree.toFeature .standard none false).toOption = some fs := by decide +kernel
  have hfs : tree.toFeature .standard none false = .ok fs := by
    cases hcase : tree.toFeature .standard none false with
    | error error =>
      rw [hcase] at hfeature
      cases hfeature
    | ok other =>
      rw [hcase] at hfeature
      exact congrArg Except.ok (Option.some.inj hfeature)
  have hconversion : Converter.toFeature {} { sql } =
      .ok { query := fs.queryString, feature := some fs, tree } :=
    toFeature_eq_ok.mpr ⟨tree, fs, hparse, hfs, rfl⟩
  have harea : IsReadable area.geometry := by
    refine .of_exact (.obj (by decide) ?_) rfl
    simp only [List.forall_mem_cons]
    refine ⟨.str _ _, .arr ?_, by simp⟩
    simp only [List.forall_mem_cons]
    refine ⟨.arr ?_, by simp⟩
    simp only [List.forall_mem_cons]
    refine ⟨.arr ?_, by simp⟩
    simp only [List.forall_mem_cons]
    refine ⟨.arr ?_, by simp⟩
    simp only [List.forall_mem_cons]
    exact ⟨.int _ (by decide) (by decide), .int _ (by decide) (by decide), by simp⟩
  have hfilter : tree.filter = some (.logical .and (.name "c") (Spatial.predicate area .vector)) := rfl
  have hfind : tree.filter >>= Spatial.find? = some area :=
    (Spatial.find?_logical .and (.name "c") _).trans (Spatial.find?_predicate .vector harea)
  have hfree : tree.LabelFree := by
    refine ⟨?_, by simp [tree], ?_, by simp [tree], ?_⟩
    · simp [tree, Sql.SelectItem.LabelFree]
    · rintro e he
      cases he
      exact ⟨True.intro, Spatial.labelFree_predicate area .vector⟩
    · simp [tree, Expr.LabelFree]
  obtain ⟨_, _, back, again, hsome, hback, htree, hagain, hsame⟩ := feature_round_trip hconversion
    (by rintro table htable; cases htable; decide)
    (by simp only [tree, List.forall_mem_cons]; exact ⟨⟨rfl, by decide⟩, True.intro, by simp⟩) hfree
    (fun filter hfilter => by
      obtain rfl : area = filter := Option.some.inj (hfind.symm.trans hfilter)
      exact harea.readsBack)
  have hremove : tree.filter >>= Spatial.remove = some (.name "c") := by
    rw [hfilter, Option.bind_eq_bind, Option.bind_some, Spatial.remove, Spatial.takeOut?_logical,
      Spatial.takeOut?_predicate .vector harea]
    rfl
  have hextract : Spatial.extract tree.filter = .ok (some ⟨rings, 3857⟩) := by
    rw [Spatial.extract_of_some hfind]
    rfl
  have hcarried := Spatial.carried_of_some hextract
  rw [Spatial.remnant, hremove] at hcarried
  cases hsome
  exact ⟨_, back, again, hconversion, rfl, hback, (congrArg Query.filter htree).trans hcarried,
    hagain, hsame⟩

end Converter
end FeatureSql
