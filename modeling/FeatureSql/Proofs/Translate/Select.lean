import FeatureSql.Proofs.Translate.Parameter
import FeatureSql.Proofs.Translate.Reading

/-! The select clause and the parameters it is spread over. -/

set_option autoImplicit false

namespace FeatureSql.Sql.SelectItem

open Feature (OutStatistic)

def isAggregate : SelectItem → Bool
  | .aggregate _ _ _ => true
  | _ => false

def statistic? : SelectItem → Option OutStatistic
  | .aggregate function argument output =>
    some { field := argument.field, type := function.name, output }
  | _ => none

def aggregates (items : List SelectItem) : List SelectItem := items.filter isAggregate

def others (items : List SelectItem) : List SelectItem :=
  items.filter fun item => !item.isAggregate

/-- A select clause after its way through the parameters: a count of the rows keeps no name, and the
aggregates follow all other items. -/
def carried (select : List SelectItem) : List SelectItem :=
  if select.any isCountStar then [countStar]
  else (others select).map leftGrouped ++ aggregates select

/-- An item that stands for one output field or one statistic. -/
def IsOrdinary (item : SelectItem) : Prop := item.WellFormed ∧ item.isCountStar = false

theorem isAggregate_leftGrouped (item : SelectItem) :
    item.leftGrouped.isAggregate = item.isAggregate := by
  cases item <;> rfl

theorem isCountStar_leftGrouped (item : SelectItem) :
    item.leftGrouped.isCountStar = item.isCountStar := by
  cases item <;> rfl

theorem wellFormed_leftGrouped {item : SelectItem} (h : item.WellFormed) :
    item.leftGrouped.WellFormed := by
  cases item with
  | computed e output =>
    refine ⟨h.1.leftGrouped, ?_⟩
    rw [ofExpr_leftGrouped, h.2, leftGrouped]
  | distinct columns => exact absurd h id
  | _ => exact True.intro

theorem IsOrdinary.leftGrouped {item : SelectItem} (h : item.IsOrdinary) :
    item.leftGrouped.IsOrdinary :=
  ⟨wellFormed_leftGrouped h.1, (isCountStar_leftGrouped item).trans h.2⟩

theorem eq_aggregate_of_isCountStar {item : SelectItem} (h : item.isCountStar = true) :
    ∃ output, item = .aggregate .count .star output := by
  unfold isCountStar at h
  split at h
  · next output => exact ⟨output, rfl⟩
  · exact absurd h (by decide)

theorem any_isCountStar {items : List SelectItem} (h : ∀ item ∈ items, item.IsOrdinary) :
    items.any isCountStar = false :=
  List.any_eq_false.mpr fun item hitem => by simp [(h item hitem).2]

/-- A count of the rows passes only as the whole of a select clause. -/
theorem validateCount_eq_ok {select : List SelectItem} : validateCount select = .ok () ↔
    ∀ item ∈ select, item.isCountStar = true → select = [item] := by
  unfold validateCount
  constructor
  · intro h item hmem hcount
    have hany : select.any isCountStar = true := List.any_eq_true.mpr ⟨item, hmem, hcount⟩
    match select with
    | [other] => rw [List.mem_singleton.mp hmem]
    | first :: second :: rest =>
      rw [hany, Bool.and_true, if_pos (by simp)] at h
      cases h
  · intro h
    refine if_neg fun hboth => ?_
    obtain ⟨hlength, hany⟩ := Bool.and_eq_true_iff.mp hboth
    obtain ⟨item, hmem, hcount⟩ := List.any_eq_true.mp hany
    rw [h item hmem hcount] at hlength
    exact absurd hlength (by simp)

theorem validateCount_ordinary {items : List SelectItem} (h : ∀ item ∈ items, item.IsOrdinary) :
    validateCount items = .ok () :=
  validateCount_eq_ok.mpr fun item hmem hcount => absurd hcount (by simp [(h item hmem).2])

/-- What a select clause that can be asked for as parameters is made of. -/
theorem select_cases {select : List SelectItem} (h : ListWellFormed select)
    (hcount : validateCount select = .ok ()) :
    (∃ output, select = [.aggregate .count .star output]) ∨
      (∃ columns, columns ≠ [] ∧ select = [.distinct columns]) ∨
      (select ≠ [] ∧ ∀ item ∈ select, item.IsOrdinary) := by
  rcases h with hdistinct | ⟨hne, hitems⟩
  · exact Or.inr (Or.inl hdistinct)
  by_cases hrows : ∃ item ∈ select, item.isCountStar = true
  · obtain ⟨item, hitem, hstar⟩ := hrows
    obtain ⟨output, rfl⟩ := eq_aggregate_of_isCountStar hstar
    exact Or.inl ⟨output, validateCount_eq_ok.mp hcount _ hitem hstar⟩
  · refine Or.inr (Or.inr ⟨hne, fun item hitem => ⟨hitems item hitem, ?_⟩⟩)
    exact Bool.eq_false_iff.mpr fun hstar => hrows ⟨item, hitem, hstar⟩

section Ordinary
variable {items : List SelectItem}

theorem carried_ordinary (h : ∀ item ∈ items, item.IsOrdinary) : carried items =
    (others items).map leftGrouped ++ aggregates items := by
  rw [carried, any_isCountStar h]
  rfl

theorem forall_carried {P : SelectItem → Prop} (hP : ∀ item, P item → P item.leftGrouped)
    (h : ∀ item ∈ items, P item) :
    ∀ item ∈ (others items).map leftGrouped ++ aggregates items, P item := by
  intro item hitem
  rcases List.mem_append.mp hitem with hitem | hitem
  · obtain ⟨item, hmem, rfl⟩ := List.mem_map.mp hitem
    exact hP item (h item (List.mem_filter.mp hmem).1)
  · exact h item (List.mem_filter.mp hitem).1

theorem parts_ne_nil (hne : items ≠ []) :
    (others items).map leftGrouped ++ aggregates items ≠ [] := by
  cases items with
  | nil => exact absurd rfl hne
  | cons item items => cases h : item.isAggregate <;> simp [others, aggregates, h]

end Ordinary

/-- The output fields of items. -/
def fields (items : List SelectItem) : List String := (others items).map (render .standard)

def statistics (items : List SelectItem) : List OutStatistic := items.filterMap statistic?

theorem fields_append (first second : List SelectItem) :
    fields (first ++ second) = fields first ++ fields second := by
  rw [fields, others, List.filter_append, List.map_append, fields, fields, others, others]

theorem statistics_append (first second : List SelectItem) :
    statistics (first ++ second) = statistics first ++ statistics second :=
  List.filterMap_append

theorem addTo_ordinary {item : SelectItem} (h : item.IsOrdinary) (query : Feature.Query)
    (texts : List String) : item.addTo .standard (query, texts) =
      ({ query with outStatistics := query.outStatistics ++ statistics [item] },
        texts ++ fields [item]) := by
  unfold addTo
  dsimp only
  rw [h.2, if_neg (by decide)]
  cases item with
  | aggregate function argument output =>
    have hfields : texts ++ fields [.aggregate function argument output] = texts :=
      List.append_nil _
    rw [hfields]
    rfl
  | distinct columns => exact absurd h.1 id
  | _ =>
    have hstatistics : query.outStatistics ++ [] = query.outStatistics := List.append_nil _
    have hsame : query = { query with outStatistics := query.outStatistics ++ [] } := by
      rw [hstatistics]
    exact Prod.ext hsame rfl

theorem foldl_addTo {items : List SelectItem} (h : ∀ item ∈ items, item.IsOrdinary)
    (query : Feature.Query) (texts : List String) :
    items.foldl (fun target item => item.addTo .standard target) (query, texts) =
      ({ query with outStatistics := query.outStatistics ++ statistics items },
        texts ++ fields items) := by
  induction items generalizing query texts with
  | nil => simp [statistics, fields, others]
  | cons item items ih =>
    have ih := ih fun i hi => h i (List.mem_cons_of_mem item hi)
    have hsplit : item :: items = [item] ++ items := rfl
    rw [List.foldl_cons, addTo_ordinary (h item List.mem_cons_self), ih, hsplit, statistics_append,
      fields_append, ← List.append_assoc, ← List.append_assoc]

end FeatureSql.Sql.SelectItem

namespace FeatureSql.Sql.Query

open SelectItem (IsOrdinary ListWellFormed fields statistics carried validateCount)

theorem addSelect_distinct {columns : List String} (hne : columns ≠ []) (query : Feature.Query) :
    addSelect .standard [.distinct columns] query = .ok {
      query with
      returnDistinctValues := some true
      returnGeometry := some false
      outFields := parameterOf (columns.map writeName) } := by
  have hfold : [SelectItem.distinct columns].foldl (fun target item => item.addTo .standard target)
      (query, []) = ({ query with
        returnDistinctValues := some true
        returnGeometry := some false }, columns.map writeName) := rfl
  unfold addSelect
  rw [hfold]
  cases columns with
  | nil => exact absurd rfl hne
  | cons column columns => rfl

theorem addSelect_ordinary {items : List SelectItem} (h : ∀ item ∈ items, item.IsOrdinary)
    {query : Feature.Query} (hquery : query.outFields = none) :
    addSelect .standard items query = .ok {
      query with
      outStatistics := query.outStatistics ++ statistics items
      outFields := parameterOf (fields items) } := by
  unfold addSelect
  rw [SelectItem.validateCount_ordinary h, SelectItem.foldl_addTo h]
  cases hfields : fields items with
  | nil =>
    have hsame : { query with outStatistics := query.outStatistics ++ statistics items } =
        { query with
          outStatistics := query.outStatistics ++ statistics items
          outFields := none } := by
      rw [← hquery]
    exact congrArg Except.ok hsame
  | cons text texts => rfl

end FeatureSql.Sql.Query

namespace FeatureSql.Feature

open Sql (SelectItem AggregateArgument AggregateFunction)
open Sql.SelectItem (carried fields statistics)

theorem mapM_eq_map {α β : Type} {f : α → Outcome β} {g : α → β} {as : List α}
    (h : ∀ a ∈ as, f a = .ok (g a)) : as.mapM f = .ok (as.map g) := by
  induction as with
  | nil => rfl
  | cons a as ih =>
    rw [List.mapM_cons, h a List.mem_cons_self, ih fun b hb => h b (List.mem_cons_of_mem a hb)]
    rfl

/-- An aggregate's column, if it has one, is not changed by trimming, and is no star. -/
def IsTrimmed : SelectItem → Prop
  | .aggregate _ (.column name) _ => trim name = name ∧ name ≠ "*"
  | _ => True

theorem ofName?_name (function : AggregateFunction) :
    AggregateFunction.ofName? function.name = some function := by
  cases function <;> rfl

theorem toSelectItem_statistic {function : AggregateFunction} {argument : AggregateArgument}
    {output : Option String} (h : IsTrimmed (.aggregate function argument output)) :
    OutStatistic.toSelectItem { field := argument.field, type := function.name, output } =
      .ok (.aggregate function argument output) := by
  unfold OutStatistic.toSelectItem
  dsimp only
  rw [ofName?_name]
  cases argument with
  | star => rfl
  | column name =>
    obtain ⟨htrim, hstar⟩ := h
    rw [AggregateArgument.field, htrim, if_neg hstar]

theorem mapM_statistics {items : List SelectItem} (h : ∀ item ∈ items, IsTrimmed item) :
    (statistics items).mapM OutStatistic.toSelectItem =
      .ok (SelectItem.aggregates items) := by
  induction items with
  | nil => rfl
  | cons item items ih =>
    have ih := ih fun i hi => h i (List.mem_cons_of_mem item hi)
    have hitem := h item List.mem_cons_self
    cases item with
    | aggregate function argument output =>
      have hcons : statistics (.aggregate function argument output :: items) =
          { field := argument.field, type := function.name, output } :: statistics items := rfl
      rw [hcons, List.mapM_cons, toSelectItem_statistic hitem, ih]
      rfl
    | _ => exact ih

theorem columns_parameter (columns : List String) :
    parsedList SelectItem.parseList (Sql.Query.parameterOf (columns.map Sql.writeName)) =
      .ok (columns.map fun column => .column column none) := by
  have hitems := @items_parameter (columns.map fun column => .column column none)
    (List.forall_mem_map.mpr fun _ _ => True.intro)
    (List.forall_mem_map.mpr fun _ _ => True.intro)
  rw [List.map_map, List.map_map] at hitems
  exact hitems

theorem fields_parameter {items : List SelectItem} (h : ∀ item ∈ items, item.IsOrdinary)
    (hfree : ∀ item ∈ items, item.LabelFree) :
    parsedList SelectItem.parseList (Sql.Query.parameterOf (fields items)) =
      .ok ((SelectItem.others items).map SelectItem.leftGrouped) := by
  have hmem : ∀ item ∈ SelectItem.others items, item ∈ items :=
    fun item hitem => (List.mem_filter.mp hitem).1
  exact items_parameter (fun item hitem => (h item (hmem item hitem)).1)
    fun item hitem => hfree item (hmem item hitem)

namespace Query

theorem selectItems_count {query : Query} (h : query.returnCountOnly = some true) :
    query.selectItems = .ok [SelectItem.countStar] :=
  selectItems_eq_ok.mpr (Or.inl ⟨h, rfl⟩)

theorem selectItems_of_lists {query : Query} {texts fields statistics : List SelectItem}
    (hcount : query.returnCountOnly = none) (h : query.Lists texts fields statistics)
    (hne : fields ++ statistics ≠ [])
    (hvalid : SelectItem.validateCount (fields ++ statistics) = .ok ()) :
    query.selectItems = .ok (fields ++ statistics) :=
  selectItems_eq_ok.mpr (Or.inr ⟨by simp [hcount], hvalid, texts, fields, statistics, h,
    (orWildcard_of_ne_nil hne).symm⟩)

theorem selectItems_distinct {query : Query} {columns : List String} (hne : columns ≠ [])
    (hcount : query.returnCountOnly = none) (hdistinct : query.returnDistinctValues = some true)
    (hfields : query.outFields = Sql.Query.parameterOf (columns.map Sql.writeName))
    (hstatistics : query.outStatistics = []) :
    query.selectItems = .ok [.distinct columns] := by
  have hread := hfields ▸ columns_parameter columns
  have hcolumns : (columns.map fun column => SelectItem.column column none).mapM distinctColumn =
      .ok columns := by
    have hcolumn : ∀ column ∈ columns,
        (distinctColumn ∘ fun column => .column column none) column = .ok (id column) :=
      fun _ _ => rfl
    rw [List.mapM_map, mapM_eq_map hcolumn, List.map_id]
  have hempty : columns.isEmpty = false := by simpa using hne
  have hitems : query.fieldItems (columns.map fun column => .column column none) =
      .ok [.distinct columns] := by
    rw [fieldItems, if_pos hdistinct]
    exact distinctItems_eq_ok.mpr ⟨columns, hcolumns, by rw [hempty]; rfl⟩
  have hnone : query.outStatistics.mapM OutStatistic.toSelectItem = .ok [] := by
    rw [hstatistics]
    rfl
  exact @selectItems_of_lists query _ [.distinct columns] [] hcount ⟨hread, hitems, hnone⟩
    (by simp) rfl

/-- Fields and statistics together are the items, the aggregates behind the others. -/
theorem selectItems_ordinary {query : Query} {items : List SelectItem} (hne : items ≠ [])
    (h : ∀ item ∈ items, item.IsOrdinary) (hfree : ∀ item ∈ items, item.LabelFree)
    (htrim : ∀ item ∈ items, IsTrimmed item) (hcount : query.returnCountOnly = none)
    (hdistinct : query.returnDistinctValues = none)
    (hfields : query.outFields = Sql.Query.parameterOf (fields items))
    (hstatistics : query.outStatistics = statistics items) :
    query.selectItems = .ok (carried items) := by
  have hread := hfields ▸ fields_parameter h hfree
  have hplain : query.fieldItems ((SelectItem.others items).map SelectItem.leftGrouped) =
      .ok ((SelectItem.others items).map SelectItem.leftGrouped) := by
    rw [fieldItems, if_neg (by simp [hdistinct])]
  have hmapped : query.outStatistics.mapM OutStatistic.toSelectItem =
      .ok (SelectItem.aggregates items) := by
    rw [hstatistics]
    exact mapM_statistics htrim
  rw [Sql.SelectItem.carried_ordinary h]
  refine selectItems_of_lists hcount ⟨hread, hplain, hmapped⟩ (Sql.SelectItem.parts_ne_nil hne) ?_
  apply SelectItem.validateCount_ordinary
  exact SelectItem.forall_carried (fun _ => SelectItem.IsOrdinary.leftGrouped) h

end Query
end FeatureSql.Feature

namespace FeatureSql.Sql.SelectItem

theorem validateCount_of_addSelect {select : List SelectItem} {query selected : Feature.Query}
    (h : Query.addSelect .standard select query = .ok selected) : validateCount select = .ok () := by
  obtain ⟨_, hcount, _⟩ := bind_eq_ok.mp h
  exact hcount

/-- What a select clause comes to as parameters of a query on a table. -/
inductive Selects (tableName : Option String) : List SelectItem → Feature.Query → Prop where
  | count (output : Option String) : Selects tableName [.aggregate .count .star output]
      { tableName, returnCountOnly := some true }
  | distinct {columns : List String} : columns ≠ [] → Selects tableName [.distinct columns] {
      tableName
      outFields := Query.parameterOf (columns.map writeName)
      returnDistinctValues := some true
      returnGeometry := some false }
  | ordinary {items : List SelectItem} : items ≠ [] → (∀ item ∈ items, item.IsOrdinary) →
      Selects tableName items {
        tableName
        outFields := Query.parameterOf (fields items)
        outStatistics := statistics items }

section Selects
variable {tableName : Option String} {select : List SelectItem} {selected : Feature.Query}

theorem selects_of_addSelect (h : ListWellFormed select)
    (hselected : Query.addSelect .standard select { tableName } = .ok selected) :
    Selects tableName select selected := by
  rcases select_cases h (validateCount_of_addSelect hselected) with ⟨output, rfl⟩ |
    ⟨columns, hne, rfl⟩ | ⟨hne, hitems⟩
  · obtain rfl := Except.ok.inj hselected
    exact .count output
  · rw [Query.addSelect_distinct hne] at hselected
    obtain rfl := Except.ok.inj hselected
    exact .distinct hne
  · rw [Query.addSelect_ordinary hitems rfl] at hselected
    obtain rfl := Except.ok.inj hselected
    exact .ordinary hne hitems

theorem Selects.addSelect (h : Selects tableName select selected) :
    Query.addSelect .standard select { tableName } = .ok selected := by
  cases h with
  | count output => rfl
  | distinct hne => exact Query.addSelect_distinct hne _
  | ordinary hne hitems => exact Query.addSelect_ordinary hitems rfl

theorem Selects.selectItems (h : Selects tableName select selected)
    (hfree : ∀ item ∈ select, item.LabelFree) (htrim : ∀ item ∈ select, Feature.IsTrimmed item) :
    selected.selectItems = .ok (carried select) := by
  cases h with
  | count output => exact Feature.Query.selectItems_count rfl
  | distinct hne => exact Feature.Query.selectItems_distinct hne rfl rfl rfl rfl
  | ordinary hne hitems =>
    exact Feature.Query.selectItems_ordinary hne hitems hfree htrim rfl rfl rfl rfl

theorem others_leftGrouped (items : List SelectItem) :
    others (items.map leftGrouped) = (others items).map leftGrouped := by
  rw [others, List.filter_map, others]
  refine congrArg (List.map leftGrouped) (List.filter_congr fun item _ => ?_)
  rw [Function.comp_apply, isAggregate_leftGrouped]

theorem others_others (items : List SelectItem) : others (others items) = others items := by
  rw [others, others, List.filter_filter]
  exact List.filter_congr fun item _ => Bool.and_self _

theorem others_aggregates (items : List SelectItem) : others (aggregates items) = [] := by
  rw [others, aggregates, List.filter_filter, List.filter_eq_nil_iff]
  simp

theorem fields_leftGrouped (items : List SelectItem) : fields (items.map leftGrouped) = fields items := by
  rw [fields, others_leftGrouped, List.map_map]
  exact List.map_congr_left fun item _ => render_leftGrouped .standard item

theorem statistics_leftGrouped (items : List SelectItem) :
    statistics (items.map leftGrouped) = statistics items := by
  rw [statistics, List.filterMap_map]
  refine List.filterMap_congr fun item _ => ?_
  cases item <;> rfl

theorem fields_parts (items : List SelectItem) :
    fields ((others items).map leftGrouped ++ aggregates items) = fields items := by
  have haggregates : fields (aggregates items) = [] := by
    rw [fields, others_aggregates, List.map_nil]
  rw [fields_append, haggregates, List.append_nil, fields_leftGrouped, fields, others_others, fields]

theorem statistics_parts (items : List SelectItem) :
    statistics ((others items).map leftGrouped ++ aggregates items) = statistics items := by
  have hparts : statistics (others items) = [] ∧ statistics (aggregates items) = statistics items := by
    induction items with
    | nil => exact ⟨rfl, rfl⟩
    | cons item items ih =>
      cases item with
      | aggregate function argument output => exact ⟨ih.1, congrArg (_ :: ·) ih.2⟩
      | _ => exact ih
  rw [statistics_append, statistics_leftGrouped, hparts.1, hparts.2, List.nil_append]

/-- The same clause stands for the same parameters after its way through them. -/
theorem Selects.carried (h : Selects tableName select selected) :
    Selects tableName (SelectItem.carried select) selected := by
  cases h with
  | count output => exact .count none
  | distinct hne => exact .distinct hne
  | ordinary hne hitems =>
    have hparts : Selects tableName _ _ := .ordinary (parts_ne_nil hne)
      (forall_carried (fun _ => IsOrdinary.leftGrouped) hitems)
    rw [carried_ordinary hitems]
    rw [fields_parts, statistics_parts] at hparts
    exact hparts

theorem Selects.listWellFormed (h : Selects tableName select selected) : ListWellFormed select := by
  cases h with
  | count output => exact Or.inr ⟨by simp, by simp [WellFormed]⟩
  | distinct hne => exact Or.inl ⟨_, hne, rfl⟩
  | ordinary hne hitems => exact Or.inr ⟨hne, fun item hitem => (hitems item hitem).1⟩

theorem Selects.ne_nil (h : Selects tableName select selected) : select ≠ [] := by
  cases h with
  | count output => simp
  | distinct hne => simp
  | ordinary hne hitems => exact hne

/-- The select clause leaves the other parameters as they are. -/
theorem Selects.untouched (h : Selects tableName select selected) :
    selected.tableName = tableName ∧ selected.condition = Feature.defaultWhere ∧
      selected.geometry = none := by
  cases h <;> exact ⟨rfl, rfl, rfl⟩

theorem Selects.inSR (h : Selects tableName select selected) : selected.inSR = none := by
  cases h <;> rfl

/-- How chains are grouped does not matter for the parameters. -/
theorem Selects.leftGrouped (h : Selects tableName select selected) :
    Selects tableName (select.map leftGrouped) selected := by
  cases h with
  | count output => exact .count output
  | distinct hne => exact .distinct hne
  | ordinary hne hitems =>
    have hgrouped : Selects tableName _ _ := .ordinary (mt List.map_eq_nil_iff.mp hne)
      (List.forall_mem_map.mpr fun item hitem => (hitems item hitem).leftGrouped)
    rw [fields_leftGrouped, statistics_leftGrouped] at hgrouped
    exact hgrouped

theorem labelFree_carried (h : ∀ item ∈ select, item.LabelFree) :
    ∀ item ∈ SelectItem.carried select, item.LabelFree := by
  unfold SelectItem.carried
  split
  · simp [countStar, LabelFree]
  · exact forall_carried (fun item => (labelFree_leftGrouped item).mpr) h

end Selects
end FeatureSql.Sql.SelectItem
