import FeatureSql.Proofs.Json.Sound
import FeatureSql.Proofs.Translate.Given

/-! Names on their way through the parameters of a feature service and back. There they stand bare:
the blanks around them are lost, and a column that is called `*` is taken for all columns. -/

set_option autoImplicit false

namespace FeatureSql

open Sql (Expr OrderBy SelectItem AggregateArgument)

namespace Sql

/-- An argument as the bare name of a statistic stands for it. -/
def AggregateArgument.bare (argument : AggregateArgument) : AggregateArgument :=
  Feature.argumentOf (trim argument.field)

namespace SelectItem

def bare : SelectItem → SelectItem
  | .aggregate function argument output => .aggregate function argument.bare output
  | item => item

/-- What the aggregates of a select clause come back as. -/
def bareAggregates (select : List SelectItem) : List SelectItem :=
  if select.any isCountStar then [countStar] else (aggregates select).map bare

/-- What a select clause comes back as. -/
def returned (select : List SelectItem) : List SelectItem :=
  if select.any isCountStar then [countStar]
  else (others select).map reread ++ (aggregates select).map bare

theorem isAggregate_bare (item : SelectItem) : item.bare.isAggregate = item.isAggregate := by
  cases item <;> rfl

theorem isAggregate_reread (item : SelectItem) : item.reread.isAggregate = item.isAggregate := by
  cases item <;> rfl

theorem isCountStar_reread (item : SelectItem) : item.reread.isCountStar = item.isCountStar := by
  cases item <;> rfl

section Parts
variable {items : List SelectItem}

theorem isCountStar_of_others {item : SelectItem} (h : item.isAggregate = false) :
    item.isCountStar = false ∧ item.bare = item := by
  cases item with
  | aggregate => cases h
  | _ => exact ⟨rfl, rfl⟩

theorem length_parts (items : List SelectItem) :
    (others items).length + (aggregates items).length = items.length := by
  rw [Nat.add_comm, aggregates, others, ← List.length_eq_length_filter_add]

theorem any_bare (items : List SelectItem) : (items.map bare).any isCountStar =
    ((aggregates items).map bare).any isCountStar := by
  induction items with
  | nil => rfl
  | cons item items ih =>
    have hcons : aggregates (item :: items) =
        if item.isAggregate then item :: aggregates items else aggregates items := List.filter_cons
    rw [hcons, List.map_cons, List.any_cons, ih]
    cases haggregate : item.isAggregate with
    | true => rw [if_pos rfl, List.map_cons, List.any_cons]
    | false =>
      obtain ⟨hcount, hbare⟩ := isCountStar_of_others haggregate
      rw [if_neg Bool.false_ne_true, hbare, hcount, Bool.false_or]

/-- Counts stand alone in what comes back just where they do once names are bare. -/
theorem validateCount_parts (items : List SelectItem) :
    validateCount ((others items).map reread ++ (aggregates items).map bare) =
      validateCount (items.map bare) := by
  have hothers : ((others items).map reread).any isCountStar = false := by
    refine List.any_eq_false.mpr (List.forall_mem_map.mpr fun item hitem => ?_)
    have haggregate := (List.mem_filter.mp hitem).2
    rw [isCountStar_reread, (isCountStar_of_others (by simpa using haggregate)).1]
    decide
  rw [validateCount, validateCount, List.any_append, hothers, Bool.false_or, any_bare items,
    List.length_append, List.length_map, List.length_map, List.length_map, length_parts]

theorem aggregates_returned (items : List SelectItem) :
    aggregates (returned items) = bareAggregates items := by
  unfold returned bareAggregates
  split
  · rfl
  · have hothers : aggregates ((others items).map reread) = [] := by
      refine List.filter_eq_nil_iff.mpr (List.forall_mem_map.mpr fun item hitem => ?_)
      have haggregate := (List.mem_filter.mp hitem).2
      rw [isAggregate_reread]
      simpa using haggregate
    have hsame : aggregates ((aggregates items).map bare) = (aggregates items).map bare := by
      refine List.filter_eq_self.mpr (List.forall_mem_map.mpr fun item hitem => ?_)
      rw [isAggregate_bare]
      exact (List.mem_filter.mp hitem).2
    rw [aggregates, List.filter_append]
    exact (congrArg₂ _ hothers hsame).trans (List.nil_append _)

theorem ne_nil_returned (hne : items ≠ []) : returned items ≠ [] := by
  unfold returned
  split
  · exact List.cons_ne_nil _ _
  · have hlength := length_parts items
    have hpos := List.length_pos_iff.mpr hne
    intro hnil
    have hnone := congrArg List.length hnil
    rw [List.length_append, List.length_map, List.length_map, hlength, List.length_nil] at hnone
    omega

end Parts
end SelectItem
end Sql

namespace Feature

open Sql.SelectItem (bare returned aggregates others statistics fields Selects validateCount)

theorem mapM_statistics_bare (items : List SelectItem) :
    (statistics items).mapM OutStatistic.toSelectItem = .ok ((aggregates items).map bare) := by
  induction items with
  | nil => rfl
  | cons item items ih =>
    cases item with
    | aggregate function argument output =>
      have hcons : statistics (.aggregate function argument output :: items) =
          { field := argument.field, type := function.name, output } :: statistics items := rfl
      have hitem : OutStatistic.toSelectItem
          { field := argument.field, type := function.name, output } =
            .ok (bare (.aggregate function argument output)) :=
        OutStatistic.toSelectItem_eq_ok.mpr ⟨function, ofName?_name function, rfl⟩
      rw [hcons, List.mapM_cons, hitem, ih]
      rfl
    | _ => exact ih

/-- The parameters of a select clause are read as what it comes back as, if counts still stand
alone then. -/
theorem selectItems_eq_returned {tableName : Option String} {select items : List SelectItem}
    {selected : Query} (h : Selects tableName select selected) :
    selected.selectItems = .ok items ↔
      validateCount (select.map bare) = .ok () ∧ items = returned select := by
  cases h with
  | count output =>
    rw [Query.selectItems_count rfl]
    exact ⟨fun h => ⟨rfl, (Except.ok.inj h).symm⟩, fun h => congrArg Except.ok h.2.symm⟩
  | distinct hne =>
    rw [Query.selectItems_distinct hne rfl rfl rfl rfl]
    exact ⟨fun h => ⟨rfl, (Except.ok.inj h).symm⟩, fun h => congrArg Except.ok h.2.symm⟩
  | ordinary hne hitems =>
    have hreturned : returned select = (others select).map SelectItem.reread ++
        (aggregates select).map bare := by
      rw [returned, Sql.SelectItem.any_isCountStar hitems]
      rfl
    have hparts : (others select).map SelectItem.reread ++ (aggregates select).map bare ≠ [] :=
      hreturned ▸ Sql.SelectItem.ne_nil_returned hne
    rw [hreturned, ← Sql.SelectItem.validateCount_parts]
    have hothers : ∀ item ∈ others select, item.WellFormed :=
      fun item hitem => (hitems item (List.mem_filter.mp hitem).1).1
    have hread := items_parameter_reread hothers
    constructor
    · intro hselect
      rcases Query.selectItems_eq_ok.mp hselect with ⟨hcount, _⟩ |
        ⟨_, hvalid, texts, listed, aggregated, ⟨htexts, hlisted, haggregated⟩, hsame⟩
      · cases hcount
      · obtain rfl := Except.ok.inj (hread.symm.trans htexts)
        obtain rfl : (others select).map SelectItem.reread = listed := Except.ok.inj hlisted
        obtain rfl := Except.ok.inj ((mapM_statistics_bare select).symm.trans haggregated)
        rw [Query.orWildcard_of_ne_nil hparts] at hsame
        exact ⟨hsame ▸ hvalid, hsame⟩
    · rintro ⟨hvalid, rfl⟩
      exact Query.selectItems_of_lists rfl ⟨hread, rfl, mapM_statistics_bare select⟩ hparts hvalid

end Feature

namespace Spatial

theorem parse?_of_geometryIn {e : Expr} {geometry : Json} (h : geometryIn e = some geometry) :
    ∃ text, Json.parse? text = some geometry := by
  induction e with
  | text value => exact ⟨value, (Option.filter_eq_some_iff.mp h).1⟩
  | call function arguments ih =>
    rw [geometryIn] at h
    induction arguments with
    | nil => cases h
    | cons a arguments ihs =>
      rw [geometryAmong] at h
      cases ha : geometryIn a with
      | some found =>
        rw [ha] at h
        exact ih a List.mem_cons_self (ha.trans h)
      | none =>
        rw [ha] at h
        exact ihs (fun b hb => ih b (List.mem_cons_of_mem a hb)) h
  | _ => simp [geometryIn] at h

theorem parse?_of_find? {e : Expr} {filter : SpatialFilter} (h : find? e = some filter) :
    ∃ text, Json.parse? text = some filter.geometry := by
  induction e with
  | logical operator left right ihl ihr =>
    rw [find?_logical, Option.or_eq_some_iff] at h
    rcases h with h | ⟨_, h⟩
    · exact ihl h
    · exact ihr h
  | call function arguments =>
    rw [find?_leaf (by simp), filterOf?] at h
    split at h
    · obtain ⟨geometry, hgeometry, rfl⟩ := Option.map_eq_some_iff.mp h
      exact @parse?_of_geometryIn (.call function arguments) geometry hgeometry
    · cases h
  | _ => cases h

/-- Rings in a condition were read from a text, and so they can be read from their own. -/
theorem legible_of_extract {condition : Option Expr} {filter : RingFilter}
    (h : extract condition = .ok (some filter)) : Json.IsLegibleAt 126 filter.rings := by
  obtain ⟨given, hgiven, hrings⟩ := exists_find?_of_extract h
  obtain ⟨e, _, hfind⟩ := Option.bind_eq_some_iff.mp hgiven
  obtain ⟨text, htext⟩ := parse?_of_find? hfind
  exact Geometry.nested_rings (Json.isLegibleAt_of_parse? htext) hrings

end Spatial

namespace Feature.Query

/-- A condition that was written is read, whatever its arguments are read as. -/
theorem exists_conditionExpr? {query : Query} (hquery : query.condition = defaultWhere)
    {condition : Option Expr} (h : ∀ e ∈ condition, e.WellFormed) :
    ∃ left, (query.withCondition condition).conditionExpr? = .ok left := by
  cases hdefault : (query.withCondition condition).hasDefaultWhere with
  | true => exact ⟨none, conditionExpr?_eq_ok.mpr (Or.inl ⟨hdefault, rfl⟩)⟩
  | false =>
    cases condition with
    | none =>
      have htrue : (query.withCondition none).hasDefaultWhere = true :=
        hasDefaultWhere_of_default hquery
      rw [htrue] at hdefault
      cases hdefault
    | some e =>
      have hparse : Expr.parse (e.render .standard) = .ok e.reread :=
        Sql.parseWhole_of_readsAs (h e rfl).readsAs_reread Expr.closes_nil
      exact ⟨_, conditionExpr?_eq_ok.mpr (Or.inr ⟨hdefault, _, hparse, rfl⟩)⟩

end Feature.Query

namespace Sql.Query

/-- Parameters with a filter in place of their own are those of that filter. -/
theorem filteredBy_assemble {query : Query} {selected fs : Feature.Query}
    {found : Option RingFilter} {given : Option SpatialFilter}
    (h : (query.assemble selected found).filteredBy given = .ok fs) :
    (given = none ∧ fs = query.assemble selected found) ∨ ∃ filter rings, given = some filter ∧
      Geometry.rings filter.geometry = .ok rings ∧
        fs = query.assemble selected (some { rings, srid := filter.srid }) := by
  cases given with
  | none => exact Or.inl ⟨rfl, (Except.ok.inj h).symm⟩
  | some filter =>
    rw [Feature.Query.filteredBy, Feature.Query.setFilter_eq] at h
    obtain ⟨rings, hrings, rfl⟩ := map_eq_ok.mp h
    refine Or.inr ⟨filter, rings, rfl, hrings, ?_⟩
    cases found <;> rfl

section Back
variable {query : Query} {table : String} {selected : Feature.Query} {found : Option RingFilter}

/-- What parameters come back as, as far as names go. -/
structure ComesBack (query : Query) (table : String) (back : Query) : Prop where
  named : trim table ≠ ""
  counts : SelectItem.validateCount (query.select.map SelectItem.bare) = .ok ()
  tables : back.tables = [trim table]
  select : back.select = SelectItem.returned query.select

theorem comesBack_of_toSql (h : SelectItem.Selects (some table) query.select selected)
    {back : Query} (hback : (query.assemble selected found).toSql none = .ok back) :
    query.ComesBack table back := by
  have hreads := Feature.Query.toSql_eq_ok.mp hback
  have hname : (query.assemble selected found).tableName = some table :=
    (Feature.Query.tableName_withRingFilter selected found).trans h.untouched.1
  obtain ⟨_, hgiven, htables⟩ := hreads.tables
  obtain ⟨⟨raw, hraw, rfl⟩, hne⟩ := Feature.given?_eq_some.mp hgiven
  obtain rfl := Option.some.inj (hname.symm.trans hraw)
  have hselect : selected.selectItems = .ok back.select :=
    (Feature.Query.selectItems_withRingFilter selected found).symm.trans hreads.select
  obtain ⟨hvalid, hsame⟩ := (Feature.selectItems_eq_returned h).mp hselect
  exact ⟨hne, hvalid, htables, hsame⟩

theorem exists_toSql (h : SelectItem.Selects (some table) query.select selected)
    (hquery : query.WellFormed) (hname : trim table ≠ "")
    (hcounts : SelectItem.validateCount (query.select.map SelectItem.bare) = .ok ())
    (hread : ∀ filter ∈ found, Json.IsLegibleAt 126 filter.rings) :
    ∃ back, (query.assemble selected found).toSql none = .ok back ∧ back.validate = .ok () := by
  obtain ⟨hfilters, hgroups, horders⟩ := hquery.clauses
  obtain ⟨htable, hdefault, hgeometry⟩ := h.untouched
  have htable : (query.assemble selected found).tableName = some table :=
    (Feature.Query.tableName_withRingFilter selected found).trans htable
  have hselect : (query.assemble selected found).selectItems =
      .ok (SelectItem.returned query.select) :=
    (Feature.Query.selectItems_withRingFilter selected found).trans
      ((Feature.selectItems_eq_returned h).mpr ⟨hcounts, rfl⟩)
  obtain ⟨condition, hcondition⟩ := Feature.Query.exists_conditionExpr?
    ((Feature.Query.condition_withRingFilter selected found).trans hdefault)
    (Spatial.forall_bind_remove Spatial.wellFormed_remove hfilters)
  have hfilter : (query.assemble selected found).filter? = _ :=
    Feature.Query.filter?_withRingFilter hgeometry hread
  let back : Query := {
    select := SelectItem.returned query.select
    tables := [trim table]
    filter := Feature.Query.withFilter condition
      ((found.map RingFilter.reread).map RingFilter.toSpatial)
    groupBy := query.groupBy.map Expr.reread
    orderBy := query.orderBy.map OrderBy.reread
    limit := query.limit
    offset := query.offset }
  refine ⟨back, Feature.Query.toSql_eq_ok.mpr ?_, ?_⟩
  · exact {
      statement := rfl
      joins := rfl
      tables := ⟨_, Feature.given?_eq_some.mpr ⟨⟨table, htable, rfl⟩, hname⟩, rfl⟩
      select := hselect
      filter := ⟨condition, _, hcondition, hfilter, rfl⟩
      groupBy := Feature.groupBy_parameter_reread hgroups
      orderBy := Feature.orderBy_parameter_reread horders
      limit := rfl
      offset := rfl }
  · exact (validate_selection rfl).mpr
      ⟨rfl, ⟨_, rfl⟩, rfl, SelectItem.ne_nil_returned h.ne_nil⟩

end Back
end Sql.Query

namespace Converter

open Sql (Query)

section Names
variable {geostore : Geostore} {request : Request.ToFeature} {conversion : Conversion}

/-- The parameters of a text, put together from those of its clauses. -/
theorem assembled (h : Converter.toFeature { geostore } request = .ok conversion)
    (hgiven : ∀ filter, Converter.resolve { geostore } request.source = .ok (some filter) →
      Json.parse? filter.geometry.compact = some filter.geometry) :
    Query.parse .standard request.sql = .ok conversion.tree ∧
      ∃ table selected found, conversion.tree.tables = [table] ∧
        SelectItem.Selects (some table) conversion.tree.select selected ∧
        conversion.feature = some ((conversion.tree.assemble selected found).excluding
          request.excludeGeometries) ∧
        ∀ filter ∈ found, Json.IsLegibleAt 126 filter.rings := by
  cases hfilter : Converter.resolve { geostore } request.source with
  | error error =>
    obtain ⟨_, _, h⟩ := bind_eq_ok.mp h
    rw [hfilter] at h
    cases h
  | ok given =>
    obtain ⟨tree, fs, hparse, hfs, rfl⟩ := (toFeature_resolved hfilter).mp h
    refine ⟨hparse, ?_⟩
    rw [Query.toFeature_given] at hfs
    obtain ⟨filtered, hbind, rfl⟩ := map_eq_ok.mp hfs
    obtain ⟨before, hbefore, hfiltered⟩ := bind_eq_ok.mp hbind
    obtain ⟨table, selected, found, hstands, rfl⟩ :=
      Query.standsFor_of_toFeature (Query.wellFormed_of_parse hparse) hbefore
    rcases Query.filteredBy_assemble hfiltered with ⟨rfl, rfl⟩ | ⟨filter, rings, rfl, hrings, rfl⟩
    · refine ⟨table, selected, found, hstands.tables, hstands.select, rfl, ?_⟩
      rintro filter rfl
      exact Spatial.legible_of_extract hstands.filter
    · refine ⟨table, selected, _, hstands.tables, hstands.select, rfl, ?_⟩
      intro ringed hringed
      obtain rfl := Option.some.inj hringed
      have hexact := Json.parse?_compact_iff.mp (hgiven filter hfilter)
      exact Json.IsExactAt.isLegibleAt (Geometry.nested_rings hexact hrings)

end Names

end Converter
end FeatureSql
