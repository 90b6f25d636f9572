import FeatureSql.Proofs.Translate.Given

/-! Select clauses and the parameters they are spread over. A count of the rows stands alone on both
sides, and every other item has one place. -/

set_option autoImplicit false

namespace FeatureSql

open Feature (OutStatistic parsedList)

namespace Sql

theorem AggregateFunction.ofName?_count {name : String} (h : lower name.toList = "count".toList) :
    ofName? name = some .count := by
  unfold ofName?
  rw [h]
  decide +kernel

namespace SelectItem

/-- A count of all rows, under any name, with its function in any case. A call that was not
recognised as an aggregate would be one too. -/
inductive CountsRows : SelectItem → Prop where
  | aggregate (output : Option String) : CountsRows (.aggregate .count .star output)
  | computed {name : String} (output : Option String) : lower name.toList = "count".toList →
      CountsRows (.computed (.call name [.star]) output)

theorem WellFormed.countsRows_iff {item : SelectItem} (h : item.WellFormed) :
    CountsRows item ↔ item.isCountStar = true := by
  constructor
  · intro hcount
    cases hcount with
    | aggregate output => rfl
    | @computed name output hname =>
      have hsame : ofExpr (.call name [.star]) output = .computed (.call name [.star]) output := h.2
      have hread : ofExpr (.call name [.star]) output = .aggregate .count .star output := by
        rw [ofExpr, AggregateFunction.ofName?_count hname]
        rfl
      cases hread.symm.trans hsame
  · intro hcount
    obtain ⟨output, rfl⟩ := eq_aggregate_of_isCountStar hcount
    exact .aggregate output

theorem IsSelectable.isCountStar {item : SelectItem} (h : item.IsSelectable)
    (hcount : CountsRows item) : item.isCountStar = true := by
  rcases h with hwell | ⟨columns, _, rfl⟩
  · exact hwell.countsRows_iff.mp hcount
  · cases hcount

theorem IsOrdinary.not_countsRows {item : SelectItem} (h : item.IsOrdinary) :
    ¬ CountsRows item := by
  intro hcount
  have hstar := h.1.countsRows_iff.mp hcount
  rw [h.2] at hstar
  cases hstar

/-- Items in one of two places each: the aggregates as statistics, the others as they are, both in
their order. -/
inductive Divides : List SelectItem → List SelectItem → List OutStatistic → Prop where
  | nil : Divides [] [] []
  | field {item : SelectItem} {items plain : List SelectItem} {statistics : List OutStatistic} :
      item.WellFormed → item.isAggregate = false → Divides items plain statistics →
      Divides (item :: items) (item :: plain) statistics
  | statistic {items plain : List SelectItem} {statistics : List OutStatistic}
      (function : AggregateFunction) (argument : AggregateArgument) (output : Option String) :
      Divides items plain statistics →
      Divides (.aggregate function argument output :: items) plain
        ({ field := argument.field, type := function.name, output } :: statistics)

theorem divides_others {items : List SelectItem} (h : ∀ item ∈ items, item.WellFormed) :
    Divides items (others items) (statistics items) := by
  induction items with
  | nil => exact .nil
  | cons item items ih =>
    have ih := ih fun i hi => h i (List.mem_cons_of_mem item hi)
    have hitem := h item List.mem_cons_self
    cases item with
    | aggregate function argument output => exact .statistic function argument output ih
    | _ => exact .field hitem rfl ih

/-- A select clause and the parameters that it stands for, with what their text is read as. -/
inductive IsSpreadOver : List SelectItem → Feature.Query → Prop where
  | count {item : SelectItem} : CountsRows item →
      IsSpreadOver [item] { returnCountOnly := some true }
  | distinct {columns : List String} {outFields : Option String} :
      outFields = Query.parameterOf (columns.map writeName) →
      parsedList SelectItem.parseList outFields =
        .ok (columns.map fun column => .column column none) →
      IsSpreadOver [.distinct columns] { outFields, returnDistinctValues := some true }
  | items {select plain : List SelectItem} {statistics : List OutStatistic}
      {outFields : Option String} : select ≠ [] → (∀ item ∈ select, ¬ CountsRows item) →
      Divides select plain statistics →
      outFields = Query.parameterOf (plain.map (render .standard)) →
      ((∀ item ∈ plain, item.LabelFree) →
        parsedList SelectItem.parseList outFields = .ok (plain.map leftGrouped)) →
      IsSpreadOver select { outFields, outStatistics := statistics }

end SelectItem
end Sql

namespace Feature.Query

/-- A query with nothing but what it selects. -/
def selection (query : Query) : Query where
  outFields := query.outFields
  outStatistics := query.outStatistics
  returnCountOnly := query.returnCountOnly
  returnDistinctValues := query.returnDistinctValues

theorem selection_excluding (query : Query) (exclude : Bool) :
    (query.excluding exclude).selection = query.selection := rfl

theorem selection_assemble (tree : Sql.Query) (selected : Query) (found : Option RingFilter) :
    (tree.assemble selected found).selection = selected.selection := by
  cases found <;> rfl

end Feature.Query

namespace Sql

open SelectItem (CountsRows IsSpreadOver Selects)

theorem SelectItem.Selects.isSpreadOver {tableName : Option String} {select : List SelectItem}
    {selected : Feature.Query} (h : Selects tableName select selected) :
    IsSpreadOver select selected.selection := by
  cases h with
  | count output => exact .count (.aggregate output)
  | @distinct columns hne => exact .distinct rfl (Feature.columns_parameter columns)
  | ordinary hne hitems =>
    have hwell := fun item hitem => (hitems item hitem).1
    refine .items hne (fun item hitem => (hitems item hitem).not_countsRows)
      (SelectItem.divides_others hwell) rfl fun hfree => ?_
    exact Feature.items_parameter (fun item hitem => hwell item (List.mem_filter.mp hitem).1) hfree

theorem SelectItem.IsSpreadOver.returnCountOnly {select : List SelectItem} {fs : Feature.Query}
    (h : IsSpreadOver select fs) :
    fs.returnCountOnly = some true ↔ ∃ item, CountsRows item ∧ select = [item] := by
  cases h with
  | @count item hcount => exact iff_of_true rfl ⟨item, hcount, rfl⟩
  | distinct _ _ =>
    refine iff_of_false (by simp) ?_
    rintro ⟨item, hcount, hsame⟩
    obtain rfl := List.singleton_inj.mp hsame
    cases hcount
  | items _ hnone _ _ _ =>
    refine iff_of_false (by simp) ?_
    rintro ⟨item, hcount, rfl⟩
    exact hnone item List.mem_cons_self hcount

namespace Query
variable {query : Query}

/-- Neither a filter nor the other clauses touch the parameters of the select clause. -/
theorem isSpreadOver_of_toFeature (hquery : query.WellFormed) {exclude : Bool} {fs : Feature.Query}
    (h : query.toFeature .standard none exclude = .ok fs) :
    IsSpreadOver query.select fs.selection := by
  rw [toFeature_given] at h
  obtain ⟨_, hfiltered, rfl⟩ := map_eq_ok.mp h
  obtain ⟨own, hown, hsame⟩ := bind_eq_ok.mp hfiltered
  obtain rfl := Except.ok.inj hsame
  obtain ⟨table, selected, found, hstands, rfl⟩ := standsFor_of_toFeature hquery hown
  rw [Feature.Query.selection_excluding, Feature.Query.selection_assemble]
  exact hstands.select.isSpreadOver

theorem WellFormed.selectable (h : query.WellFormed) (hstatement : query.statement = .select) :
    ∀ item ∈ query.select, item.IsSelectable := by
  cases h with
  | select hselect => exact hselect.selectable
  | delete => cases hstatement
  | other => cases hstatement

theorem toFeature_of_count (hquery : query.WellFormed) (hstatement : query.statement = .select)
    (hvalid : query.validate = .ok ()) {item : SelectItem} (hitem : item ∈ query.select)
    (hcount : CountsRows item) (hmany : 1 < query.select.length) (given : Option SpatialFilter)
    (exclude : Bool) : query.toFeature .standard given exclude = .error .countWithColumns := by
  have hstar := (hquery.selectable hstatement item hitem).isCountStar hcount
  have hany : query.select.any SelectItem.isCountStar = true :=
    List.any_eq_true.mpr ⟨item, hitem, hstar⟩
  have hrefused : SelectItem.validateCount query.select = .error .countWithColumns := by
    rw [SelectItem.validateCount, hany, Bool.and_true, if_pos (by simpa using hmany)]
  have hselect : addSelect .standard query.select { tableName := query.table? } =
      .error .countWithColumns := by
    unfold addSelect
    rw [hrefused]
    rfl
  rw [toFeature_conditioned, conditioned, hvalid, isDelete_of_select hstatement, hselect]
  rfl

end Query
end Sql

namespace Converter

open Sql (SelectItem Query)
open Sql.SelectItem (CountsRows IsSpreadOver)

variable {geostore : Geostore} {conversion : Conversion}

theorem toFeature_refused {sql : String} {excludeGeometries : Bool} {tree : Query}
    {error : ConversionError} (hparse : Query.parse .standard sql = .ok tree)
    (h : tree.toFeature .standard none excludeGeometries = .error error) :
    Converter.toFeature { geostore } { sql, excludeGeometries } = .error error := by
  unfold Converter.toFeature Conversion.toFeature
  rw [parse_eq_ok.mpr hparse]
  change tree.toFeature .standard none excludeGeometries >>= _ = _
  rw [h]
  rfl

theorem toSql_countsRows {request : Request.ToSql} {item : SelectItem}
    (h : Converter.toSql { geostore } request = .ok conversion)
    (hitem : item ∈ conversion.tree.select) (hcount : CountsRows item) :
    conversion.tree.select = [item] := by
  obtain ⟨filter, hfilter, h⟩ := bind_eq_ok.mp h
  obtain ⟨tree, htree, _, rfl⟩ := Conversion.ofFeature_eq_ok.mp h
  have hselect := (Feature.Query.toSql_eq_ok.mp htree).select
  have hselectable := (Feature.Query.selectable_selectItems hselect).2
  have hstar := (hselectable item hitem).isCountStar hcount
  have hvalid : SelectItem.validateCount tree.select = .ok () := by
    rcases Feature.Query.selectItems_eq_ok.mp hselect with ⟨_, hsame⟩ | ⟨_, hvalid, _⟩
    · rw [hsame]
      rfl
    · exact hvalid
  exact SelectItem.validateCount_eq_ok.mp hvalid item hitem hstar

/-- A select clause is a count of the rows and nothing else, or each of its items goes to one
parameter, in order. A count next to other items is refused, and no parameters are read as one. -/
theorem countsRows_alone :
    (∀ {geostore : Geostore} {sql : String} {excludeGeometries : Bool} {conversion : Conversion},
      Converter.toFeature { geostore } { sql, excludeGeometries } = .ok conversion →
        Query.parse .standard sql = .ok conversion.tree ∧
        ∃ fs, conversion.feature = some fs ∧
          (fs.returnCountOnly = some true ↔
            ∃ item, CountsRows item ∧ conversion.tree.select = [item]) ∧
          IsSpreadOver conversion.tree.select fs.selection) ∧
    (∀ {geostore : Geostore} {sql : String} {excludeGeometries : Bool} {tree : Query},
      Query.parse .standard sql = .ok tree → tree.statement = .select → tree.validate = .ok () →
        1 < tree.select.length → (∃ item ∈ tree.select, CountsRows item) →
          Converter.toFeature { geostore } { sql, excludeGeometries } = .error .countWithColumns ∧
            ConversionError.kind .countWithColumns = .queryNotValid) ∧
    ∀ {geostore : Geostore} {request : Request.ToSql} {conversion : Conversion},
      Converter.toSql { geostore } request = .ok conversion →
        ∀ item ∈ conversion.tree.select, CountsRows item → conversion.tree.select = [item] := by
  refine ⟨?_, ?_, fun h item => toSql_countsRows h⟩
  · intro geostore sql excludeGeometries conversion h
    obtain ⟨tree, fs, hparse, hfs, rfl⟩ := (toFeature_resolved rfl).mp h
    have hspread := Query.isSpreadOver_of_toFeature (Query.wellFormed_of_parse hparse) hfs
    exact ⟨hparse, fs, rfl, hspread.returnCountOnly, hspread⟩
  · rintro geostore sql excludeGeometries tree hparse hstatement hvalid hmany ⟨item, hitem, hcount⟩
    have hquery := Query.wellFormed_of_parse hparse
    have hrefused := Query.toFeature_of_count hquery hstatement hvalid hitem hcount hmany none
      excludeGeometries
    exact ⟨toFeature_refused hparse hrefused, rfl⟩

/-- A total next to columns, a count next to a column, and a count among the output fields. -/
theorem countsRows_alone_named :
    let total : SelectItem := .aggregate .sum (.column "n") (some "s")
    let call : SelectItem := .computed (.call "f" [.name "a"]) none
    let count : SelectItem := .aggregate .count .star (some "rows")
    let fs : Feature.Query := {
      outFields := some "*,f(a)"
      outStatistics := [{ field := "n", type := "sum", output := some "s" }]
      tableName := some "t" }
    let fields : Feature.Query :=
      { outFields := some "COUNT ( * ) AS rows", tableName := some "t" }
    Converter.toFeature {} { sql := "SELECT sum(n) AS s, *, f(a) FROM t" } = .ok {
      query := fs.queryString
      feature := some fs
      tree := { select := [total, .wildcard, call], tables := ["t"] } } ∧
    IsSpreadOver [total, .wildcard, call] fs.selection ∧
    Converter.toFeature {} { sql := "SELECT a, Count(*) AS rows FROM t" } =
      .error .countWithColumns ∧
    ∃ conversion, Converter.toSql {} { query := fields } = .ok conversion ∧
      conversion.tree.select = [count] := by
  intro total call count fs fields
  let mixed : Query := { select := [total, .wildcard, call], tables := ["t"] }
  let counted : Query := { select := [.column "a" none, count], tables := ["t"] }
  let rows : Query := { select := [count], tables := ["t"] }
  obtain ⟨haccepted, hrefused, hread⟩ := countsRows_alone
  have hmixed : Query.parse .standard "SELECT sum(n) AS s, *, f(a) FROM t" = .ok mixed :=
    eq_ok_of_toOption (by decide +kernel)
  have hfs : mixed.toFeature .standard none false = .ok fs := eq_ok_of_toOption (by decide +kernel)
  have hconversion : Converter.toFeature {} { sql := "SELECT sum(n) AS s, *, f(a) FROM t" } =
      .ok { query := fs.queryString, feature := some fs, tree := mixed } :=
    toFeature_eq_ok.mpr ⟨mixed, fs, hmixed, hfs, rfl⟩
  have hcounted : Query.parse .standard "SELECT a, Count(*) AS rows FROM t" = .ok counted :=
    eq_ok_of_toOption (by decide +kernel)
  have hrows : fields.toSql none = .ok rows := eq_ok_of_toOption (by decide +kernel)
  obtain ⟨_, other, hother, _, hspread⟩ := haccepted hconversion
  obtain rfl := Option.some.inj hother
  have hcount : ∃ item ∈ counted.select, CountsRows item :=
    ⟨count, by simp [counted], .aggregate _⟩
  have herror : Converter.toFeature {} { sql := "SELECT a, Count(*) AS rows FROM t" } =
      .error .countWithColumns := (hrefused hcounted rfl rfl (by decide) hcount).1
  have hsql : Converter.toSql {} { query := fields } =
      .ok { query := rows.render .standard, tree := rows } := toSql_of_toSql hrows rfl
  have halone := hread hsql count List.mem_cons_self (.aggregate _)
  exact ⟨hconversion, hspread, herror, _, hsql, halone⟩

end Converter
end FeatureSql
