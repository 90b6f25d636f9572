import FeatureSql.Proofs.Translate.Emitted
import FeatureSql.Proofs.Translate.Given

/-! The parameters that come back when a feature service query is written as SQL and read again. -/

set_option autoImplicit false

namespace FeatureSql

open Sql (Expr OrderBy SelectItem AggregateFunction)
open Sql.SelectItem (Selects ListWellFormed)

namespace Feature

/-- A statistic with the blanks around its column dropped and its function in lower case. -/
def OutStatistic.normal (statistic : OutStatistic) : OutStatistic :=
  { statistic with
    field := trim statistic.field
    type := String.ofList (Sql.lower statistic.type.toList) }

theorem field_argumentOf (field : String) : (argumentOf field).field = field := by
  unfold argumentOf
  split
  · next h => exact h.symm
  · rfl

theorem name_of_ofName? {name : String} {function : AggregateFunction}
    (h : AggregateFunction.ofName? name = some function) :
    function.name = String.ofList (Sql.lower name.toList) := by
  unfold AggregateFunction.ofName? at h
  have hname := List.find?_some h
  rw [← beq_iff_eq.mp hname, String.ofList_toList]

theorem statistic?_of_toSelectItem {statistic : OutStatistic} {item : SelectItem}
    (h : statistic.toSelectItem = .ok item) : item.statistic? = some statistic.normal := by
  obtain ⟨function, hfunction, rfl⟩ := OutStatistic.toSelectItem_eq_ok.mp h
  rw [SelectItem.statistic?, field_argumentOf, name_of_ofName? hfunction, OutStatistic.normal]

section Statistics
variable {statistics : List OutStatistic} {items : List SelectItem}
  (h : statistics.mapM OutStatistic.toSelectItem = .ok items)
include h

theorem isAggregate_of_mapM : ∀ item ∈ items, item.isAggregate = true := by
  intro item hitem
  obtain ⟨statistic, _, hstatistic⟩ := exists_of_mapM h hitem
  obtain ⟨function, _, rfl⟩ := OutStatistic.toSelectItem_eq_ok.mp hstatistic
  rfl

theorem statistics_of_mapM : SelectItem.statistics items = statistics.map OutStatistic.normal := by
  have hall := mapM_eq_ok.mp h
  clear h
  induction hall with
  | nil => rfl
  | cons hstatistic _ ih =>
    rw [SelectItem.statistics, List.filterMap_cons, statistic?_of_toSelectItem hstatistic,
      List.map_cons, ← ih, SelectItem.statistics]

end Statistics

namespace Query

/-- A query all of whose parameters an SQL query can hold: it is no count, its output fields are
plain, and distinct values are asked for in place of statistics. Its geometry has rings, and without
one there is no spatial predicate in its condition. -/
structure IsExpressible (query : Query) : Prop where
  returnCountOnly : query.returnCountOnly ≠ some true
  outFields : ∀ items, parsedList SelectItem.parseList query.outFields = .ok items →
    ∀ item ∈ items, item.isAggregate = false ∧ ∀ columns, item ≠ .distinct columns
  returnDistinctValues : query.returnDistinctValues = some true →
    given? query.outFields ≠ none ∧ query.outStatistics = []
  geometry : ∀ raw, given? query.geometry = some raw → ∃ json rings, Json.parse? raw = some json ∧
    json.get? "rings" = some rings
  condition : given? query.geometry = none → ∀ e, query.conditionExpr? = .ok (some e) →
    Spatial.find? e = none

/-- The output fields of a query that selects these items. -/
def shownFields (query : Query) (texts : List SelectItem) : Option String :=
  Sql.Query.parameterOf ((if query.outStatistics = [] then orWildcard texts else texts).map
    (SelectItem.render .standard))

/-- The parameters that a select clause comes back as. -/
structure SelectKept (before after : Query) (texts : List SelectItem) : Prop where
  outFields : after.outFields = before.shownFields texts
  outStatistics : after.outStatistics = before.outStatistics.map OutStatistic.normal
  returnDistinctValues : after.returnDistinctValues = some true ↔
    before.returnDistinctValues = some true
  returnCountOnly : after.returnCountOnly = none

/-- Columns that are asked for without their repetitions are columns by themselves. -/
theorem eq_columns_of_distinct {texts : List SelectItem} {columns : List String}
    (hplain : ∀ item ∈ texts, ∀ columns, item ≠ .distinct columns)
    (h : texts.mapM distinctColumn = .ok columns) :
    texts = columns.map fun column => .column column none := by
  have hall := mapM_eq_ok.mp h
  clear h
  induction hall with
  | nil => rfl
  | @cons item column items columns hcolumn _ ih =>
    have ih := ih fun i hi => hplain i (List.mem_cons_of_mem item hi)
    have hitem : item = .column column none := by
      unfold distinctColumn at hcolumn
      split at hcolumn
      · exact congrArg (SelectItem.column · none) (Except.ok.inj hcolumn)
      · next column => exact absurd rfl (hplain _ List.mem_cons_self [column])
      · cases hcolumn
    rw [List.map_cons, hitem, ← ih]

theorem fields_of_forall {items : List SelectItem} (h : ∀ item ∈ items, item.isAggregate = false) :
    SelectItem.fields items = items.map (SelectItem.render .standard) := by
  have hothers : SelectItem.others items = items :=
    List.filter_eq_self.mpr fun item hitem => by simp [h item hitem]
  rw [SelectItem.fields, hothers]

theorem fields_of_aggregates {items : List SelectItem} (h : ∀ item ∈ items, item.isAggregate = true) :
    SelectItem.fields items = [] := by
  have hothers : SelectItem.others items = [] :=
    List.filter_eq_nil_iff.mpr fun item hitem => by simp [h item hitem]
  rw [SelectItem.fields, hothers, List.map_nil]

theorem statistics_of_forall {items : List SelectItem}
    (h : ∀ item ∈ items, item.isAggregate = false) : SelectItem.statistics items = [] := by
  refine List.filterMap_eq_nil_iff.mpr fun item hitem => ?_
  have hitem := h item hitem
  cases item with
  | aggregate function argument output => cases hitem
  | _ => rfl

theorem shownFields_of_distinct {query : Query} {columns : List String} (hne : columns ≠ [])
    (hstatistics : query.outStatistics = []) :
    query.shownFields (columns.map fun column => .column column none) =
      Sql.Query.parameterOf (columns.map Sql.writeName) := by
  have hshown : orWildcard (columns.map fun column => SelectItem.column column none) =
      columns.map fun column => .column column none :=
    orWildcard_of_ne_nil (mt List.map_eq_nil_iff.mp hne)
  rw [shownFields, if_pos hstatistics, hshown, List.map_map]
  rfl

section Select
variable {query : Query} {texts fields statistics items : List SelectItem} (h : query.IsExpressible)
  (hlists : query.Lists texts fields statistics)
include h hlists

theorem fields_of_distinct (hdistinct : query.returnDistinctValues = some true) :
    ∃ columns, columns ≠ [] ∧ texts = (columns.map fun column => .column column none) ∧
      fields = [.distinct columns] ∧ statistics = [] := by
  obtain ⟨hgiven, hstatistics⟩ := h.returnDistinctValues hdistinct
  have htexts := ne_nil_of_given? hgiven hlists.outFields
  have hfields := hlists.distinct
  rw [fieldItems, if_pos hdistinct] at hfields
  obtain ⟨columns, hcolumns, rfl⟩ := distinctItems_eq_ok.mp hfields
  obtain rfl := eq_columns_of_distinct
    (fun item hitem => (h.outFields _ hlists.outFields item hitem).2) hcolumns
  have hne : columns ≠ [] := mt (fun hnil => by rw [hnil, List.map_nil]) htexts
  have hnone := hlists.outStatistics
  rw [hstatistics] at hnone
  refine ⟨columns, hne, rfl, if_neg (by simpa using hne), (Except.ok.inj hnone).symm⟩

/-- Fields and statistics come back as they are, except that a wildcard stands for neither. -/
theorem shown_of_plain (hitems : items = orWildcard (texts ++ statistics)) :
    Sql.Query.parameterOf (SelectItem.fields items) = query.shownFields texts ∧
      SelectItem.statistics items = query.outStatistics.map OutStatistic.normal := by
  have htexts : ∀ item ∈ texts, item.isAggregate = false :=
    fun item hitem => (h.outFields _ hlists.outFields item hitem).1
  have hmapped := hlists.outStatistics
  by_cases hnone : query.outStatistics = []
  · rw [hnone] at hmapped
    obtain rfl : [] = statistics := Except.ok.inj hmapped
    have hshown : ∀ item ∈ orWildcard texts, item.isAggregate = false := by
      unfold orWildcard
      split
      · simp [SelectItem.isAggregate]
      · exact htexts
    rw [List.append_nil] at hitems
    rw [hitems, fields_of_forall hshown, statistics_of_forall hshown, shownFields, if_pos hnone, hnone]
    exact ⟨rfl, rfl⟩
  · have hne : statistics ≠ [] := by
      rintro rfl
      exact hnone (List.forall₂_nil_right_iff.mp (mapM_eq_ok.mp hmapped))
    rw [orWildcard_of_ne_nil (by simp [hne])] at hitems
    rw [hitems, SelectItem.fields_append, fields_of_forall htexts,
      fields_of_aggregates (isAggregate_of_mapM hmapped), List.append_nil, shownFields,
      if_neg hnone, SelectItem.statistics_append, statistics_of_forall htexts,
      statistics_of_mapM hmapped, List.nil_append]
    exact ⟨rfl, rfl⟩

theorem not_distinct_of_plain (hitems : items = orWildcard (texts ++ statistics))
    (columns : List String) : .distinct columns ∉ items := by
  intro hmem
  rw [hitems] at hmem
  rcases mem_orWildcard hmem with hwildcard | hmem
  · cases hwildcard
  rcases List.mem_append.mp hmem with hmem | hmem
  · exact (h.outFields _ hlists.outFields _ hmem).2 columns rfl
  · cases isAggregate_of_mapM hlists.outStatistics _ hmem

omit hlists in
/-- The select clause, and the parameters that it comes back as. -/
theorem IsExpressible.selects (hselect : query.selectItems = .ok items)
    (hrows : ∀ output, items ≠ [.aggregate .count .star output])
    (hfree : ∀ item ∈ items, item.LabelFree) (tableName : Option String) :
    ∃ texts selected, parsedList SelectItem.parseList query.outFields = .ok texts ∧
      (∀ item ∈ texts, item.LabelFree) ∧ Selects tableName items selected ∧
      query.SelectKept selected texts := by
  rcases selectItems_eq_ok.mp hselect with ⟨hcount, _⟩ |
    ⟨_, hvalid, texts, fields, statistics, hlists, hitems⟩
  · exact absurd hcount h.returnCountOnly
  by_cases hdistinct : query.returnDistinctValues = some true
  · obtain ⟨columns, hne, rfl, rfl, rfl⟩ := fields_of_distinct h hlists hdistinct
    obtain ⟨_, hnone⟩ := h.returnDistinctValues hdistinct
    have hshown := shownFields_of_distinct hne hnone
    obtain rfl : items = [.distinct columns] := hitems
    exact ⟨_, _, hlists.outFields, by simp [SelectItem.LabelFree], .distinct hne, hshown.symm,
      by rw [hnone]; rfl, by simp [hdistinct], rfl⟩
  · have hplain : texts = fields := by
      have hfields := hlists.distinct
      rw [fieldItems, if_neg hdistinct] at hfields
      exact Except.ok.inj hfields
    subst hplain
    obtain ⟨hne, hselectable⟩ := selectable_selectItems hselect
    have hnot := not_distinct_of_plain h hlists hitems
    have htexts : ∀ item ∈ texts, item.LabelFree := by
      intro item hitem
      have hmem := List.mem_append_left statistics hitem
      rw [← orWildcard_of_ne_nil (List.ne_nil_of_mem hmem), ← hitems] at hmem
      exact hfree item hmem
    have hwell := SelectItem.listWellFormed_of_selectable hne hselectable
      fun columns hmem => absurd hmem (hnot columns)
    rcases SelectItem.select_cases hwell hvalid with ⟨output, hcount⟩ | ⟨columns, _, hcolumns⟩ |
      ⟨_, hordinary⟩
    · exact absurd hcount (hrows output)
    · exact absurd (hcolumns ▸ List.mem_singleton_self _) (hnot columns)
    · obtain ⟨hfields, hstatistics⟩ := shown_of_plain h hlists hitems
      exact ⟨texts, _, hlists.outFields, htexts, .ordinary hne hordinary, hfields, hstatistics,
        by simp [hdistinct], rfl⟩

end Select

/-- Output fields that are there come back as they were read, and others as a wildcard or not at
all. -/
theorem SelectKept.outFields_read {before after : Query} {texts : List SelectItem}
    (h : before.SelectKept after texts) (hbefore : before.IsExpressible)
    (htexts : parsedList SelectItem.parseList before.outFields = .ok texts)
    (hfree : ∀ item ∈ texts, item.LabelFree) :
    (given? before.outFields ≠ none →
      parsedList SelectItem.parseList after.outFields = .ok (texts.map SelectItem.leftGrouped)) ∧
    (given? before.outFields = none →
      after.outFields = if before.outStatistics = [] then some "*" else none) := by
  rw [h.outFields]
  constructor
  · intro hgiven
    have hshown : (if before.outStatistics = [] then orWildcard texts else texts) = texts := by
      rw [orWildcard_of_ne_nil (ne_nil_of_given? hgiven htexts), ite_self]
    have hwell : ∀ item ∈ texts, item.WellFormed := by
      intro item hitem
      rcases selectable_outFields htexts item hitem with hitem' | ⟨columns, _, hdistinct⟩
      · exact hitem'
      · exact absurd hdistinct ((hbefore.outFields texts htexts item hitem).2 columns)
    rw [shownFields, hshown]
    exact items_parameter hwell hfree
  · intro hblank
    have hnil : texts = [] := by
      rcases parsedList_eq_ok.mp htexts with ⟨_, hnil⟩ | ⟨text, htext, _⟩
      · exact hnil
      · cases hblank.symm.trans htext
    rw [shownFields, hnil]
    split <;> rfl

/-- The rings and the coordinate system of a geometry that has rings. -/
def HasRings (query : Query) (filter : RingFilter) : Prop :=
  ∃ raw json, given? query.geometry = some raw ∧ Json.parse? raw = some json ∧
    json.get? "rings" = some filter.rings ∧ SpatialReference.ofText query.inSR = .ok filter.srid

/-- Rings that were read from a text can be read from their own. -/
theorem HasRings.legible {query : Query} {filter : RingFilter} (h : query.HasRings filter) :
    Json.IsLegibleAt 126 filter.rings := by
  obtain ⟨_, _, _, hparse, hrings, _⟩ := h
  exact (Json.isLegibleAt_of_parse? hparse).get? hrings

theorem HasRings.given?_ne_none {query : Query} {filter : RingFilter} (h : query.HasRings filter) :
    given? query.geometry ≠ none := by
  obtain ⟨_, _, hgiven, _⟩ := h
  rw [hgiven]
  exact Option.some_ne_none _

theorem HasRings.unique {query : Query} {first second : RingFilter} (hfirst : query.HasRings first)
    (hsecond : query.HasRings second) : first = second := by
  obtain ⟨_, _, hgiven, hparse, hrings, hsrid⟩ := hfirst
  obtain ⟨_, _, hgiven', hparse', hrings', hsrid'⟩ := hsecond
  obtain rfl := Option.some.inj (hgiven.symm.trans hgiven')
  obtain rfl := Option.some.inj (hparse.symm.trans hparse')
  have hsame : first.rings = second.rings := Option.some.inj (hrings.symm.trans hrings')
  obtain ⟨rings, srid⟩ := first
  obtain rfl : rings = second.rings := hsame
  obtain rfl : srid = second.srid := Except.ok.inj (hsrid.symm.trans hsrid')
  rfl

/-- The rings of a query are those that their text reads as. -/
def ReadsBack (query : Query) : Prop :=
  ∀ filter, query.HasRings filter →
    Json.parse? (Geometry.polygon filter.rings).compact = some (Geometry.polygon filter.rings)

theorem IsExpressible.rings {query : Query} (h : query.IsExpressible)
    {spatial : Option SpatialFilter} (hspatial : query.filter? = .ok spatial) :
    ∃ found : Option RingFilter, spatial = found.map RingFilter.toSpatial ∧
      (found = none ↔ given? query.geometry = none) ∧
      ∀ filter ∈ found, query.HasRings filter := by
  unfold filter? at hspatial
  cases hgiven : given? query.geometry with
  | none =>
    rw [hgiven] at hspatial
    exact ⟨none, (Except.ok.inj hspatial).symm, by simp, by simp⟩
  | some raw =>
    obtain ⟨json, rings, hparse, hrings⟩ := h.geometry raw hgiven
    have hgeometry : geometryOf json = .ok (Geometry.polygon rings) := by
      rw [geometryOf, hrings, Geometry.ofEsri, hrings]
      rfl
    rw [hgiven] at hspatial
    dsimp only at hspatial
    rw [hparse] at hspatial
    dsimp only at hspatial
    rw [hgeometry] at hspatial
    obtain ⟨_, hpolygon, hspatial⟩ := bind_eq_ok.mp hspatial
    obtain rfl := Except.ok.inj hpolygon
    obtain ⟨srid, hsrid, hspatial⟩ := bind_eq_ok.mp hspatial
    refine ⟨some ⟨rings, srid⟩, (Except.ok.inj hspatial).symm, by simp, ?_⟩
    intro filter hfilter
    obtain rfl := Option.some.inj hfilter
    exact ⟨raw, json, hgiven, hparse, hrings, hsrid⟩

/-- What comes back of the parameters that are not made from others: the same up to blanks around
them, the case of functions, and how chains of `AND` and `OR` are grouped. Rings come back as their
text is read, which are the same rings and the same filter if it reads back. -/
structure IsKept (before after : Query) : Prop where
  tableName : after.tableName = before.tableName.map trim
  outFields : given? before.outFields ≠ none →
    ∃ items, parsedList SelectItem.parseList before.outFields = .ok items ∧
      parsedList SelectItem.parseList after.outFields = .ok (items.map SelectItem.leftGrouped)
  noFields : given? before.outFields = none →
    after.outFields = if before.outStatistics = [] then some "*" else none
  outStatistics : after.outStatistics = before.outStatistics.map OutStatistic.normal
  condition : before.hasDefaultWhere = false → ∃ e, Expr.parse before.condition = .ok e ∧
    Expr.parse after.condition = .ok e.leftGrouped
  noCondition : before.hasDefaultWhere = true → after.condition = defaultWhere
  geometry : given? before.geometry ≠ none → ∃ filter rings, before.HasRings filter ∧
    (given? before.inSR = none → filter.srid = 4326) ∧
    Json.parse? (Geometry.polygon filter.rings).compact = some (Geometry.polygon rings) ∧
    after.geometry = some (Geometry.esri rings).compact ∧
    after.inSR = some (SpatialReference.toJson filter.srid).compact
  sameGeometry : before.ReadsBack → after.filter? = before.filter? ∧
    ∀ filter, before.HasRings filter →
      after.geometry = some (Geometry.esri filter.rings).compact
  noGeometry : given? before.geometry = none → after.geometry = none ∧ after.inSR = none
  groupBy : ∃ es, parsedList Expr.parseList before.groupBy = .ok es ∧
    parsedList Expr.parseList after.groupBy = .ok (es.map Expr.leftGrouped)
  orderBy : ∃ orders, parsedList OrderBy.parseList before.orderBy = .ok orders ∧
    parsedList OrderBy.parseList after.orderBy = .ok (orders.map OrderBy.leftGrouped)
  resultRecordCount : after.resultRecordCount = before.resultRecordCount
  resultOffset : after.resultOffset = before.resultOffset
  returnDistinctValues : after.returnDistinctValues = some true ↔
    before.returnDistinctValues = some true
  returnCountOnly : after.returnCountOnly = none

theorem SelectKept.withRingFilter {before after : Query} {texts : List SelectItem}
    (h : before.SelectKept after texts) (found : Option RingFilter) :
    before.SelectKept (after.withRingFilter found) texts := by
  cases found with
  | none => exact h
  | some filter =>
    exact ⟨h.outFields, h.outStatistics, h.returnDistinctValues, h.returnCountOnly⟩

theorem srid_of_blank {query : Query} {filter : RingFilter} (h : query.HasRings filter)
    (hblank : given? query.inSR = none) : filter.srid = 4326 := by
  obtain ⟨_, _, _, _, _, hsrid⟩ := h
  rw [SpatialReference.ofText_of_blank hblank] at hsrid
  exact (Except.ok.inj hsrid).symm

theorem condition_kept {before after : Query} {condition : Option Expr}
    (hread : before.conditionExpr? = .ok condition) (hfree : ∀ e ∈ condition, e.LabelFree)
    (hwritten : after.IsWrittenFrom condition) :
    (before.hasDefaultWhere = false → ∃ e, Expr.parse before.condition = .ok e ∧
      Expr.parse after.condition = .ok e.leftGrouped) ∧
    (before.hasDefaultWhere = true → after.condition = defaultWhere) := by
  have hwell := wellFormed_conditionExpr? hread
  rcases conditionExpr?_eq_ok.mp hread with ⟨hdefault, rfl⟩ | ⟨hdefault, e, hparse, rfl⟩
  · exact ⟨fun h => absurd (hdefault.symm.trans h) (by decide), fun _ => hwritten⟩
  · refine ⟨fun _ => ⟨e, hparse, ?_⟩, fun h => absurd (hdefault.symm.trans h) (by decide)⟩
    rw [show after.condition = e.render .standard from hwritten]
    exact parse_of_render (hwell e rfl) (hfree e rfl)

end Query
end Feature

section Way
variable {fs : Feature.Query} {tree : Sql.Query}

open Feature (given? parsedList)
open Feature.Query (IsExpressible IsReadAs IsKept HasRings)

/-- A condition as it is read from the parameters, and the same condition behind the predicate of
their rings. -/
structure Feature.Query.IsSplit (fs : Feature.Query) (tree : Sql.Query) (condition : Option Expr)
    (found : Option RingFilter) : Prop where
  read : fs.conditionExpr? = .ok condition
  whole : tree.filter = withFilter condition (found.map RingFilter.toSpatial)
  filter : fs.filter? = .ok (found.map RingFilter.toSpatial)
  blank : found = none ↔ given? fs.geometry = none
  rings : ∀ filter ∈ found, fs.HasRings filter
  extracted : Spatial.extract tree.filter = .ok (found.map RingFilter.reread)
  rest : tree.filter >>= Spatial.remove = condition

theorem Feature.Query.IsExpressible.split (h : fs.IsExpressible) (hreads : fs.IsReadAs none tree) :
    ∃ condition found, fs.IsSplit tree condition found := by
  obtain ⟨condition, spatial, hcondition, hspatial, hfilter⟩ := hreads.filter
  obtain ⟨found, rfl, hblank, hrings⟩ := h.rings hspatial
  have hlegible := fun filter hfilter => (hrings filter hfilter).legible
  have hnone : found = none → condition >>= Spatial.find? = none := by
    intro hfound
    cases condition with
    | none => rfl
    | some e => exact h.condition (hblank.mp hfound) e hcondition
  exact ⟨condition, found, {
    read := hcondition
    whole := hfilter
    filter := hspatial
    blank := hblank
    rings := hrings
    extracted := by
      rw [hfilter]
      exact Spatial.extract_withFilter hlegible hnone
    rest := by
      rw [hfilter]
      exact Spatial.bind_remove_withFilter hlegible hnone }⟩

/-- The geometry that the parts of a query come back with. -/
theorem Feature.Query.IsSplit.sameGeometry {condition : Option Expr} {found : Option RingFilter}
    {selected : Feature.Query} (h : fs.IsSplit tree condition found)
    (hselected : selected.geometry = none) (hread : fs.ReadsBack) :
    (tree.assemble selected (found.map RingFilter.reread)).filter? = fs.filter? ∧
      ∀ filter, fs.HasRings filter →
        (tree.assemble selected (found.map RingFilter.reread)).geometry =
          some (Geometry.esri filter.rings).compact := by
  have hreadable : ∀ filter ∈ found, Spatial.IsReadable (Geometry.polygon filter.rings) :=
    fun filter hfilter => ⟨rfl, hread filter (h.rings filter hfilter)⟩
  rw [RingFilter.map_reread hreadable]
  constructor
  · change (selected.withRingFilter found).filter? = _
    rw [Feature.Query.filter?_withRingFilter hselected (RingFilter.legible_of_readable hreadable),
      RingFilter.map_reread hreadable, h.filter]
  · intro filter hrings
    obtain ⟨other, rfl⟩ := Option.ne_none_iff_exists'.mp (mt h.blank.mp hrings.given?_ne_none)
    rw [hrings.unique (h.rings other rfl)]
    rfl

/-- The query that is read from the parameters, part by part, and what its parts come back as. -/
theorem Feature.Query.IsExpressible.kept (h : fs.IsExpressible) (hreads : fs.IsReadAs none tree)
    (hrows : ∀ output, tree.select ≠ [.aggregate .count .star output]) (hfree : tree.LabelFree) :
    ∃ table selected found, tree.StandsFor table selected found ∧
      fs.IsKept (tree.assemble selected found) := by
  obtain ⟨table, htable, htables⟩ := hreads.tables
  obtain ⟨texts, selected, htexts, hlabels, hselects, hselected⟩ :=
    h.selects hreads.select hrows hfree.select (some table)
  obtain ⟨condition, found, hsplit⟩ := h.split hreads
  obtain ⟨hname, hdefault, hgeometry⟩ := hselects.untouched
  refine ⟨table, selected, found.map RingFilter.reread,
    ⟨hreads.statement, htables, hreads.joins, hselects, hsplit.extracted⟩, ?_⟩
  have hkept := hselected.withRingFilter (found.map RingFilter.reread)
  have hfields := hkept.outFields_read h htexts hlabels
  have htableName : (selected.withRingFilter (found.map RingFilter.reread)).tableName =
      fs.tableName.map trim := by
    obtain ⟨⟨name, hraw, rfl⟩, _⟩ := Feature.given?_eq_some.mp htable
    rw [Feature.Query.tableName_withRingFilter, hname, hraw, Option.map_some]
  have hwritten :
      (tree.assemble selected (found.map RingFilter.reread)).IsWrittenFrom condition := by
    have hbefore :=
      (Feature.Query.condition_withRingFilter selected (found.map RingFilter.reread)).trans hdefault
    unfold Sql.Query.assemble
    rw [hsplit.rest, Feature.Query.IsWrittenFrom, ← hbefore]
    rfl
  have hlabelFree : ∀ e ∈ condition, e.LabelFree :=
    Feature.Query.labelFree_of_withFilter (hsplit.whole ▸ hfree.filter)
  have hcondition := Feature.Query.condition_kept hsplit.read hlabelFree hwritten
  have hgroup := Feature.groupBy_parameter (Feature.wellFormed_groupBy hreads.groupBy) hfree.groupBy
  have horder := Feature.orderBy_parameter (Feature.wellFormed_orderBy hreads.orderBy) hfree.orderBy
  exact {
    tableName := htableName
    outFields := fun hgiven => ⟨texts, htexts, hfields.1 hgiven⟩
    noFields := hfields.2
    outStatistics := hkept.outStatistics
    condition := hcondition.1
    noCondition := hcondition.2
    geometry := by
      intro hgiven
      obtain ⟨filter, rfl⟩ := Option.ne_none_iff_exists'.mp (mt hsplit.blank.mp hgiven)
      have hrings := hsplit.rings filter rfl
      exact ⟨filter, _, hrings, Feature.Query.srid_of_blank hrings,
        Geometry.parse?_polygon hrings.legible, rfl, rfl⟩
    sameGeometry := hsplit.sameGeometry hgeometry
    noGeometry := by
      intro hblank
      obtain rfl := hsplit.blank.mpr hblank
      exact ⟨hgeometry, hselects.inSR⟩
    groupBy := ⟨tree.groupBy, hreads.groupBy, hgroup⟩
    orderBy := ⟨tree.orderBy, hreads.orderBy, horder⟩
    resultRecordCount := hreads.limit
    resultOffset := hreads.offset
    returnDistinctValues := hkept.returnDistinctValues
    returnCountOnly := hkept.returnCountOnly }

end Way

namespace Converter

open Sql (Query)

/-- What an SQL query can hold of the parameters that it is written from comes back from its text. -/
theorem parameters_kept {geostore : Geostore} {fs : Feature.Query} {conversion : Conversion}
    (h : Converter.toSql { geostore } { query := fs } = .ok conversion) (hfs : fs.IsExpressible)
    (hrows : ∀ output, conversion.tree.select ≠ [.aggregate .count .star output])
    (hfree : conversion.tree.LabelFree) :
    ∃ again after, Converter.toFeature { geostore } { sql := conversion.query } = .ok again ∧
      again.feature = some after ∧ fs.IsKept after := by
  rw [toSql_resolved rfl] at h
  obtain ⟨tree, htree, _, rfl⟩ := Conversion.ofFeature_eq_ok.mp h
  have hreads := Feature.Query.toSql_eq_ok.mp htree
  obtain ⟨table, selected, found, hstands, hkept⟩ := hfs.kept hreads hrows hfree
  have hwell := hreads.wellFormed hstands.select.listWellFormed
  have hfeature := hstands.leftGrouped.toFeature
  rw [Query.assemble_leftGrouped] at hfeature
  exact ⟨_, _, toFeature_render hwell hfree hfeature, rfl, hkept⟩

/-- A chain grouped from the right, a statistic in capitals, and rings without a spatial reference. -/
theorem parameters_kept_area :
    let rings : Json := .arr [.arr [.arr [.int 0, .int (-5)]]]
    let esri : Json := .obj [("rings", rings)]
    let fs : Feature.Query := {
      tableName := some " t "
      outFields := some "a"
      outStatistics := [{ field := " n ", type := "SUM" }]
      condition := "b and (c and d)"
      geometry := some esri.compact
      groupBy := some "a"
      resultRecordCount := some 7 }
    ∃ conversion again after, fs.IsExpressible ∧ fs.ReadsBack ∧
      Converter.toSql {} { query := fs } = .ok conversion ∧
      Converter.toFeature {} { sql := conversion.query } = .ok again ∧
      again.feature = some after ∧ fs.IsKept after := by
  intro rings esri fs
  let area : SpatialFilter := { geometry := Geometry.polygon rings }
  let tree : Query := {
    select := [.column "a" none, .aggregate .sum (.column "n") none]
    tables := ["t"]
    filter := some (.logical .and (Spatial.predicate area .vector)
      (.logical .and (.name "b") (.logical .and (.name "c") (.name "d"))))
    groupBy := [.name "a"]
    limit := some 7 }
  have htree : fs.toSql none = .ok tree := eq_ok_of_toOption (by decide +kernel)
  have hconversion : Converter.toSql {} { query := fs } =
      .ok { query := tree.render .standard, tree } := toSql_of_toSql htree rfl
  have hgiven : Feature.given? fs.geometry = some esri.compact :=
    Feature.given?_of_solid (Json.solid_obj _)
  have hpoint : Json.IsExactAt 124 (.arr [.int 0, .int (-5)]) := by
    refine .arr ?_
    simp only [List.forall_mem_cons]
    exact ⟨.int _ (by decide) (by decide), .int _ (by decide) (by decide), by simp⟩
  have hrings : Json.IsExactAt 126 rings := .arr (by simpa using .arr (by simpa using hpoint))
  have hesri : Json.parse? esri.compact = some esri :=
    Json.parse?_compact (.obj (by decide) (by simpa using hrings))
  have hfs : fs.IsExpressible := by
    refine ⟨by simp [fs], ?_, by simp [fs], ?_, ?_⟩
    · intro items hitems
      have hcolumn : Feature.parsedList SelectItem.parseList fs.outFields = .ok [.column "a" none] :=
        eq_ok_of_toOption (by decide +kernel)
      obtain rfl := Except.ok.inj (hcolumn.symm.trans hitems)
      simp [SelectItem.isAggregate]
    · intro raw hraw
      obtain rfl := Option.some.inj (hgiven.symm.trans hraw)
      exact ⟨esri, rings, hesri, rfl⟩
    · intro hblank
      cases hblank.symm.trans hgiven
  have hreads : fs.ReadsBack := by
    intro filter hfilter
    have hfound : fs.HasRings { rings, srid := 4326 } :=
      ⟨esri.compact, esri, hgiven, hesri, rfl, SpatialReference.ofText_of_blank rfl⟩
    obtain rfl := hfilter.unique hfound
    exact Json.parse?_compact (Geometry.nested_forms hrings).1
  have hfree : tree.LabelFree := by
    refine ⟨?_, by simp [tree], ?_, ?_, by simp [tree]⟩
    · simp [tree, SelectItem.LabelFree]
    · intro e he
      obtain rfl := Option.some.inj he
      exact ⟨Spatial.labelFree_predicate area .vector, True.intro, True.intro, True.intro⟩
    · simp [tree, Expr.LabelFree]
  obtain ⟨again, after, hagain, hafter, hkept⟩ :=
    parameters_kept hconversion hfs (by simp [tree]) hfree
  exact ⟨_, again, after, hfs, hreads, hconversion, hagain, hafter, hkept⟩

end Converter
end FeatureSql
