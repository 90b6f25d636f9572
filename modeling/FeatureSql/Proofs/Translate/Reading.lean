import FeatureSql.Proofs.Query.RoundTrip
import FeatureSql.Proofs.Spatial.Condition
import FeatureSql.Proofs.Spatial.Filter

/-! What the parameters of a feature service query are read as, part by part. Whatever is read is
well formed, no matter what texts the parameters hold. -/

set_option autoImplicit false

namespace FeatureSql

open Sql (Expr OrderBy SelectItem AggregateFunction AggregateArgument SyntaxError)

theorem parsed_eq_ok {α : Type} {result : Except SyntaxError α} {a : α} :
    parsed result = .ok a ↔ result = .ok a := by
  cases result with
  | ok b => exact ⟨fun h => congrArg _ (Except.ok.inj h), fun h => congrArg _ (Except.ok.inj h)⟩
  | error error => simp [parsed]

namespace Sql

/-- An item that can stand in a select clause, though maybe not next to others. -/
def SelectItem.IsSelectable (item : SelectItem) : Prop :=
  item.WellFormed ∨ ∃ columns, columns ≠ [] ∧ item = .distinct columns

theorem SelectItem.ListWellFormed.selectable {items : List SelectItem} (h : ListWellFormed items) :
    ∀ item ∈ items, item.IsSelectable := by
  rcases h with ⟨columns, hne, rfl⟩ | ⟨_, hitems⟩
  · intro item hitem
    exact Or.inr ⟨columns, hne, List.mem_singleton.mp hitem⟩
  · exact fun item hitem => Or.inl (hitems item hitem)

theorem SelectItem.listWellFormed_of_selectable {items : List SelectItem} (hne : items ≠ [])
    (h : ∀ item ∈ items, item.IsSelectable)
    (halone : ∀ columns, .distinct columns ∈ items → items = [.distinct columns]) :
    ListWellFormed items := by
  by_cases hdistinct : ∃ columns, .distinct columns ∈ items
  · obtain ⟨columns, hmem⟩ := hdistinct
    rcases h _ hmem with hfalse | ⟨_, hcolumns, hsame⟩
    · exact absurd hfalse id
    · obtain rfl := SelectItem.distinct.inj hsame
      exact Or.inl ⟨columns, hcolumns, halone columns hmem⟩
  · refine Or.inr ⟨hne, fun item hitem => ?_⟩
    rcases h item hitem with hwell | ⟨columns, _, rfl⟩
    · exact hwell
    · exact absurd ⟨columns, hitem⟩ hdistinct

end Sql

namespace Feature

section Lists
variable {α : Type} {parse : String → Except SyntaxError (List α)} {parameter : Option String}
  {as : List α}

theorem parsedList_eq_ok : parsedList parse parameter = .ok as ↔
    (given? parameter = none ∧ as = []) ∨
      ∃ text, given? parameter = some text ∧ parse text = .ok as := by
  unfold parsedList
  cases given? parameter with
  | none => simp [eq_comm]
  | some text => simp [parsed_eq_ok]

theorem forall_of_parsedList {P : α → Prop} (h : parsedList parse parameter = .ok as)
    (hparse : ∀ text, parse text = .ok as → ∀ a ∈ as, P a) : ∀ a ∈ as, P a := by
  rcases parsedList_eq_ok.mp h with ⟨_, rfl⟩ | ⟨text, _, htext⟩
  · simp
  · exact hparse text htext

end Lists

theorem wellFormed_groupBy {parameter : Option String} {es : List Expr}
    (h : parsedList Expr.parseList parameter = .ok es) : ∀ e ∈ es, e.WellFormed :=
  forall_of_parsedList h fun _ htext => (Sql.forall_of_parseWhole Expr.listReader_yields htext).2

theorem wellFormed_orderBy {parameter : Option String} {orders : List OrderBy}
    (h : parsedList OrderBy.parseList parameter = .ok orders) :
    ∀ order ∈ orders, order.expression.WellFormed :=
  forall_of_parsedList h fun _ htext =>
    (Sql.forall_of_parseWhole OrderBy.reader_yields.separated htext).2

theorem selectable_outFields {parameter : Option String} {items : List SelectItem}
    (h : parsedList SelectItem.parseList parameter = .ok items) :
    ∀ item ∈ items, item.IsSelectable :=
  forall_of_parsedList h fun _ htext =>
    (Sql.forall_of_parseWhole SelectItem.listReader_yields htext).selectable

theorem ne_nil_of_given? {parameter : Option String} {items : List SelectItem}
    (hgiven : given? parameter ≠ none)
    (h : parsedList SelectItem.parseList parameter = .ok items) : items ≠ [] := by
  rcases parsedList_eq_ok.mp h with ⟨hnone, _⟩ | ⟨text, _, htext⟩
  · exact absurd hnone hgiven
  · rcases Sql.forall_of_parseWhole SelectItem.listReader_yields htext with ⟨columns, _, rfl⟩ | ⟨hne, _⟩
    · simp
    · exact hne

/-- The argument that a field stands for. -/
def argumentOf (field : String) : AggregateArgument := if field = "*" then .star else .column field

theorem OutStatistic.toSelectItem_eq_ok {statistic : OutStatistic} {item : SelectItem} :
    statistic.toSelectItem = .ok item ↔
      ∃ function, AggregateFunction.ofName? statistic.type = some function ∧
        item = .aggregate function (argumentOf (trim statistic.field)) statistic.output := by
  unfold toSelectItem
  cases AggregateFunction.ofName? statistic.type with
  | none => simp
  | some function => simp [argumentOf, eq_comm]

theorem distinctItems_eq_ok {texts fields : List SelectItem} : distinctItems texts = .ok fields ↔
    ∃ columns, texts.mapM distinctColumn = .ok columns ∧
      fields = if columns.isEmpty then texts else [.distinct columns] := by
  unfold distinctItems
  rw [bind_eq_ok]
  exact exists_congr fun columns => and_congr_right fun _ =>
    ⟨fun h => (Except.ok.inj h).symm, fun h => congrArg Except.ok h.symm⟩

namespace Query

/-- The items of the output fields, as they are or as distinct columns. -/
def fieldItems (query : Query) (texts : List SelectItem) : Outcome (List SelectItem) :=
  if query.returnDistinctValues = some true then distinctItems texts else .ok texts

/-- What the output fields and the statistics are read as. -/
structure Lists (query : Query) (texts fields statistics : List SelectItem) : Prop where
  outFields : parsedList SelectItem.parseList query.outFields = .ok texts
  distinct : query.fieldItems texts = .ok fields
  outStatistics : query.outStatistics.mapM OutStatistic.toSelectItem = .ok statistics

/-- Items, or all columns where there are none. -/
def orWildcard (items : List SelectItem) : List SelectItem :=
  if items.isEmpty then [.wildcard] else items

theorem mem_orWildcard {items : List SelectItem} {item : SelectItem} (h : item ∈ orWildcard items) :
    item = .wildcard ∨ item ∈ items := by
  unfold orWildcard at h
  split at h
  · exact Or.inl (List.mem_singleton.mp h)
  · exact Or.inr h

theorem orWildcard_ne_nil (items : List SelectItem) : orWildcard items ≠ [] := by
  cases items with
  | nil => exact List.cons_ne_nil _ _
  | cons item items => exact List.cons_ne_nil item items

theorem orWildcard_of_ne_nil {items : List SelectItem} (h : items ≠ []) : orWildcard items = items := by
  cases items with
  | nil => exact absurd rfl h
  | cons item items => rfl

section Items
variable {query : Query} {items : List SelectItem}

theorem withStatistics_eq_ok {fields : List SelectItem} : (do
    let statistics ← query.outStatistics.mapM OutStatistic.toSelectItem
    SelectItem.validateCount (orWildcard (fields ++ statistics))
    pure (orWildcard (fields ++ statistics)) : Outcome (List SelectItem)) = .ok items ↔
      ∃ statistics, query.outStatistics.mapM OutStatistic.toSelectItem = .ok statistics ∧
        SelectItem.validateCount items = .ok () ∧ items = orWildcard (fields ++ statistics) := by
  simp only [bind_eq_ok]
  constructor
  · rintro ⟨statistics, hstatistics, _, hvalid, hitems⟩
    obtain rfl := Except.ok.inj hitems
    exact ⟨statistics, hstatistics, hvalid, rfl⟩
  · rintro ⟨statistics, hstatistics, hvalid, rfl⟩
    exact ⟨statistics, hstatistics, (), hvalid, rfl⟩

theorem withFields_eq_ok {texts : List SelectItem} :
    (if query.returnDistinctValues = some true then do
      let fields ← distinctItems texts
      let statistics ← query.outStatistics.mapM OutStatistic.toSelectItem
      SelectItem.validateCount (orWildcard (fields ++ statistics))
      pure (orWildcard (fields ++ statistics))
    else do
      let statistics ← query.outStatistics.mapM OutStatistic.toSelectItem
      SelectItem.validateCount (orWildcard (texts ++ statistics))
      pure (orWildcard (texts ++ statistics)) : Outcome (List SelectItem)) = .ok items ↔
        ∃ fields, query.fieldItems texts = .ok fields ∧
          ∃ statistics, query.outStatistics.mapM OutStatistic.toSelectItem = .ok statistics ∧
            SelectItem.validateCount items = .ok () ∧ items = orWildcard (fields ++ statistics) := by
  unfold fieldItems
  by_cases hdistinct : query.returnDistinctValues = some true
  · rw [if_pos hdistinct, if_pos hdistinct, bind_eq_ok]
    exact exists_congr fun fields => and_congr_right fun _ => withStatistics_eq_ok
  · rw [if_neg hdistinct, if_neg hdistinct, withStatistics_eq_ok]
    simp

/-- The select clause is a count, or it is put together from output fields and statistics. -/
theorem selectItems_eq_ok : query.selectItems = .ok items ↔
    (query.returnCountOnly = some true ∧ items = [SelectItem.countStar]) ∨
      (query.returnCountOnly ≠ some true ∧ SelectItem.validateCount items = .ok () ∧
        ∃ texts fields statistics, query.Lists texts fields statistics ∧
          items = orWildcard (fields ++ statistics)) := by
  unfold selectItems
  by_cases hcount : query.returnCountOnly = some true
  · rw [if_pos hcount]
    constructor
    · intro h
      exact Or.inl ⟨hcount, (Except.ok.inj h).symm⟩
    · rintro (⟨_, rfl⟩ | ⟨hne, _⟩)
      · rfl
      · exact absurd hcount hne
  · rw [if_neg hcount, bind_eq_ok]
    constructor
    · rintro ⟨texts, htexts, h⟩
      obtain ⟨fields, hfields, statistics, hstatistics, hvalid, hitems⟩ := withFields_eq_ok.mp h
      exact Or.inr ⟨hcount, hvalid, texts, fields, statistics, ⟨htexts, hfields, hstatistics⟩, hitems⟩
    · rintro (⟨hpos, _⟩ | ⟨_, hvalid, texts, fields, statistics, hlists, hitems⟩)
      · exact absurd hpos hcount
      · exact ⟨texts, hlists.outFields, withFields_eq_ok.mpr
          ⟨fields, hlists.distinct, statistics, hlists.outStatistics, hvalid, hitems⟩⟩

end Items

theorem conditionExpr?_eq_ok {query : Query} {condition : Option Expr} :
    query.conditionExpr? = .ok condition ↔
      (query.hasDefaultWhere = true ∧ condition = none) ∨ (query.hasDefaultWhere = false ∧
        ∃ e, Expr.parse query.condition = .ok e ∧ condition = some e) := by
  unfold conditionExpr?
  cases query.hasDefaultWhere with
  | true => simp [eq_comm]
  | false => simp [map_eq_ok, parsed_eq_ok, @eq_comm _ condition]

/-- A filter that is given, or else the query's own. -/
def filterOr (query : Query) : Option SpatialFilter → Outcome (Option SpatialFilter)
  | some filter => .ok (some filter)
  | none => query.filter?

/-- An SQL query whose clauses are each read from the parameters that stand for them. -/
structure IsReadAs (query : Query) (given : Option SpatialFilter) (tree : Sql.Query) : Prop where
  statement : tree.statement = .select
  joins : tree.joins = []
  tables : ∃ table, given? query.tableName = some table ∧ tree.tables = [table]
  select : query.selectItems = .ok tree.select
  filter : ∃ condition spatial, query.conditionExpr? = .ok condition ∧
    query.filterOr given = .ok spatial ∧ tree.filter = withFilter condition spatial
  groupBy : parsedList Expr.parseList query.groupBy = .ok tree.groupBy
  orderBy : parsedList OrderBy.parseList query.orderBy = .ok tree.orderBy
  limit : tree.limit = query.resultRecordCount
  offset : tree.offset = query.resultOffset

theorem toSql_of_given {query : Query} {table : String} (h : given? query.tableName = some table)
    (given : Option SpatialFilter) : query.toSql given = (do
      let condition ← query.conditionExpr?
      let spatial ← query.filterOr given
      let groupBy ← parsedList Expr.parseList query.groupBy
      let orderBy ← parsedList OrderBy.parseList query.orderBy
      let select ← query.selectItems
      pure {
        select, groupBy, orderBy
        tables := [table]
        filter := withFilter condition spatial
        limit := query.resultRecordCount
        offset := query.resultOffset }) := by
  unfold toSql
  rw [h]
  cases given <;> rfl

theorem toSql_eq_ok {query : Query} {given : Option SpatialFilter} {tree : Sql.Query} :
    query.toSql given = .ok tree ↔ query.IsReadAs given tree := by
  constructor
  · intro h
    cases htable : given? query.tableName with
    | none =>
      unfold toSql at h
      rw [htable] at h
      cases h
    | some table =>
      simp only [toSql_of_given htable, bind_eq_ok] at h
      obtain ⟨condition, hcondition, spatial, hspatial, _, hgroup, _, horder, _, hselect, h⟩ := h
      obtain rfl := Except.ok.inj h
      exact ⟨rfl, rfl, ⟨table, htable, rfl⟩, hselect, ⟨condition, spatial, hcondition, hspatial, rfl⟩,
        hgroup, horder, rfl, rfl⟩
  · obtain ⟨_, select, tables, joins, filter, groupBy, orderBy, limit, offset⟩ := tree
    rintro ⟨rfl, rfl, ⟨table, htable, rfl⟩, hselect, ⟨condition, spatial, hcondition, hspatial, rfl⟩,
      hgroup, horder, rfl, rfl⟩
    simp only [toSql_of_given htable, bind_eq_ok]
    exact ⟨condition, hcondition, spatial, hspatial, groupBy, hgroup, orderBy, horder, select, hselect,
      rfl⟩

theorem selectable_statistics {statistics : List OutStatistic} {items : List SelectItem}
    (h : statistics.mapM OutStatistic.toSelectItem = .ok items) :
    ∀ item ∈ items, item.IsSelectable := by
  intro item hitem
  obtain ⟨statistic, _, hstatistic⟩ := exists_of_mapM h hitem
  obtain ⟨function, _, rfl⟩ := OutStatistic.toSelectItem_eq_ok.mp hstatistic
  exact Or.inl True.intro

theorem selectable_fields {query : Query} {texts fields statistics : List SelectItem}
    (h : query.Lists texts fields statistics) : ∀ item ∈ fields, item.IsSelectable := by
  have htexts := selectable_outFields h.outFields
  have hfields := h.distinct
  unfold fieldItems at hfields
  split at hfields
  · obtain ⟨columns, _, rfl⟩ := distinctItems_eq_ok.mp hfields
    cases columns with
    | nil => exact htexts
    | cons column columns =>
      intro item hitem
      exact Or.inr ⟨_, List.cons_ne_nil column columns, List.mem_singleton.mp hitem⟩
  · exact Except.ok.inj hfields ▸ htexts

theorem selectable_selectItems {query : Query} {items : List SelectItem}
    (h : query.selectItems = .ok items) : items ≠ [] ∧ ∀ item ∈ items, item.IsSelectable := by
  rcases selectItems_eq_ok.mp h with ⟨_, rfl⟩ | ⟨_, _, texts, fields, statistics, hlists, rfl⟩
  · exact ⟨by simp, by simp [SelectItem.IsSelectable, SelectItem.WellFormed, SelectItem.countStar]⟩
  · refine ⟨orWildcard_ne_nil _, fun item hitem => ?_⟩
    rcases mem_orWildcard hitem with rfl | hitem
    · exact Or.inl True.intro
    rcases List.mem_append.mp hitem with hitem | hitem
    · exact selectable_fields hlists item hitem
    · exact selectable_statistics hlists.outStatistics item hitem

theorem wellFormed_conditionExpr? {query : Query} {condition : Option Expr}
    (h : query.conditionExpr? = .ok condition) : ∀ e ∈ condition, e.WellFormed := by
  rcases conditionExpr?_eq_ok.mp h with ⟨_, rfl⟩ | ⟨_, e, htext, rfl⟩
  · simp
  · intro e he
    exact Option.some.inj he ▸ Sql.forall_of_parseWhole Expr.reader_yields htext

theorem labelFree_of_withFilter {condition : Option Expr} {spatial : Option SpatialFilter}
    (h : ∀ e ∈ withFilter condition spatial, e.LabelFree) : ∀ e ∈ condition, e.LabelFree := by
  cases spatial with
  | none => exact h
  | some filter =>
    intro e he
    obtain rfl := he
    exact (h _ rfl).2

theorem wellFormed_withFilter {condition : Option Expr} (h : ∀ e ∈ condition, e.WellFormed)
    (spatial : Option SpatialFilter) : ∀ e ∈ withFilter condition spatial, e.WellFormed := by
  cases spatial with
  | none => exact h
  | some filter =>
    intro e he
    exact Option.some.inj he ▸
      Spatial.wellFormed_inFrontOf (Spatial.wellFormed_predicate filter .vector) h

section ReadAs
variable {query : Query} {given : Option SpatialFilter} {tree : Sql.Query}

theorem IsReadAs.listWellFormed (h : query.IsReadAs given tree)
    (halone : ∀ columns, .distinct columns ∈ tree.select → tree.select = [.distinct columns]) :
    SelectItem.ListWellFormed tree.select := by
  obtain ⟨hne, hselectable⟩ := selectable_selectItems h.select
  exact SelectItem.listWellFormed_of_selectable hne hselectable halone

/-- Whatever texts the parameters hold, the query read from them is well formed as soon as its
select clause is. -/
theorem IsReadAs.wellFormed (h : query.IsReadAs given tree)
    (hselect : SelectItem.ListWellFormed tree.select) : tree.WellFormed := by
  have hfilter : ∀ e ∈ tree.filter, e.WellFormed := by
    obtain ⟨condition, spatial, hcondition, _, hfilter⟩ := h.filter
    rw [hfilter]
    exact wellFormed_withFilter (wellFormed_conditionExpr? hcondition) spatial
  have hgroup := wellFormed_groupBy h.groupBy
  have horder := wellFormed_orderBy h.orderBy
  obtain ⟨_, select, tables, joins, filter, groupBy, orderBy, limit, offset⟩ := tree
  obtain rfl := h.statement
  obtain rfl := h.joins
  exact .select hselect (by simp) hfilter hgroup horder

end ReadAs
end Query
end Feature

theorem Conversion.ofFeature_eq_ok {fs : Feature.Query} {given : Option SpatialFilter}
    {conversion : Conversion} : Conversion.ofFeature .standard fs given = .ok conversion ↔
      ∃ tree, fs.toSql given = .ok tree ∧ tree.validate = .ok () ∧
        conversion = { query := tree.render .standard, tree } := by
  simp only [Conversion.ofFeature, bind_eq_ok, Sql.Query.ofQuery_eq_ok]

end FeatureSql
