import FeatureSql.Proofs.Expr.Occurrence

/-! Places in a query: where a clause holds an expression, and where it holds the name of a column.
What stands there is written at one place of the query's text. -/

set_option autoImplicit false

namespace FeatureSql.Sql.Query

theorem WellFormed.selection {query : Query} (h : query.WellFormed)
    (hselect : query.statement = .select) :
    SelectItem.ListWellFormed query.select ∧ (∀ join ∈ query.joins, join.WellFormed) ∧
      (∀ e ∈ query.filter, e.WellFormed) ∧ (∀ e ∈ query.groupBy, e.WellFormed) ∧
      ∀ order ∈ query.orderBy, order.expression.WellFormed := by
  cases h with
  | select hitems hjoins hfilter hgroup horder => exact ⟨hitems, hjoins, hfilter, hgroup, horder⟩
  | delete => cases hselect
  | other => cases hselect

/-- A place for an expression that is written as it is. -/
inductive Clause where
  | computed (before after : List SelectItem) (output : Option String)
  | join (before after : List Join) (kind : Option String) (table : String)
  | filter
  | groupBy (before after : List Expr)
  | orderBy (before after : List OrderBy) (direction : Option Direction)

/-- The query that has this expression at the place. -/
def Clause.put (query : Query) : Clause → Expr → Query
  | .computed before after output, e =>
    { query with select := before ++ .computed e output :: after }
  | .join before after kind table, e =>
    { query with joins := before ++ { kind, table, condition := some e } :: after }
  | .filter, e => { query with filter := some e }
  | .groupBy before after, e => { query with groupBy := before ++ e :: after }
  | .orderBy before after direction, e =>
    { query with orderBy := before ++ { expression := e, direction } :: after }

/-- A place for the name of a column. -/
inductive Column where
  | item (before after : List SelectItem) (output : Option String)
  | aggregate (before after : List SelectItem) (function : AggregateFunction)
    (output : Option String)
  | distinct (before after : List String)

def Column.put (query : Query) : Column → String → Query
  | .item before after output, name =>
    { query with select := before ++ .column name output :: after }
  | .aggregate before after function output, name =>
    { query with select := before ++ .aggregate function (.column name) output :: after }
  | .distinct before after, name => { query with select := [.distinct (before ++ name :: after)] }

section Clauses
variable {α : Type} {word : String} {write : α → String}

theorem back_optional (hword : startsApart word = true) (a : Option α) :
    Back (optionalClause word write a) := by
  cases a with
  | none => exact Back.empty
  | some a => exact Back.mark hword _

theorem back_list (hword : startsApart word = true) (items : List α) :
    Back (listClause word write items) := by
  cases items with
  | nil => exact Back.empty
  | cons a items => exact Back.mark hword _

end Clauses

/-- The joins of a query, each behind a blank. -/
def joinsText (joins : List Join) : String :=
  String.join (joins.map fun join => " " ++ join.render .standard)

theorem joinsText_append (before : List Join) (join : Join) (after : List Join) :
    joinsText (before ++ join :: after) =
      joinsText before ++ " " ++ join.render .standard ++ joinsText after := by
  induction before with
  | nil => simp [joinsText]
  | cons first before ih =>
    rw [joinsText] at ih ⊢
    rw [List.cons_append, List.map_cons, String.join_cons, ih]
    simp only [joinsText, List.map_cons, String.join_cons, String.append_assoc]

theorem back_joins (joins : List Join) : Back (joinsText joins) := by
  cases joins with
  | nil => exact Back.empty
  | cons join joins =>
    have htext : joinsText (join :: joins) = " " ++ (join.render .standard ++ joinsText joins) := by
      simp [joinsText, String.append_assoc]
    rw [htext]
    exact Back.mark rfl _

theorem clean_joins {joins : List Join} (h : ∀ join ∈ joins, join.WellFormed) :
    Clean (joinsText joins) := by
  apply clean_join_all
  intro part hpart
  obtain ⟨join, hj, rfl⟩ := List.mem_map.mp hpart
  exact (Clean.of_plain rfl).append (clean_join (h join hj))

/-- The items and the tables of a selection. -/
def startText (query : Query) : String :=
  "SELECT " ++ commas (query.select.map (SelectItem.render .standard)) ++
    listClause " FROM " writeTable query.tables

def filterText (query : Query) : String :=
  optionalClause " WHERE " (Expr.render .standard) query.filter

def groupByText (query : Query) : String :=
  listClause " GROUP BY " (Expr.render .standard) query.groupBy

def orderByText (query : Query) : String :=
  listClause " ORDER BY " (OrderBy.render .standard) query.orderBy

def countText (query : Query) : String :=
  optionalClause " LIMIT " (fun n => n.toNat.repr) query.limit ++
    optionalClause " OFFSET " (fun n => n.toNat.repr) query.offset

theorem render_selection {query : Query} (hselect : query.statement = .select) :
    query.render .standard = query.startText ++ (joinsText query.joins ++ (query.filterText ++
      (query.groupByText ++ (query.orderByText ++ query.countText)))) := by
  rw [render, hselect]
  simp only [renderClauses, startText, joinsText, filterText, groupByText, orderByText, countText,
    String.append_assoc]

section Clean
variable {query : Query}

theorem clean_startText (h : SelectItem.ListWellFormed query.select) : Clean query.startText :=
  ((Clean.of_plain rfl).append (clean_select h)).append
    (clean_list (Clean.of_plain rfl) fun table _ => clean_writeTable table)

theorem clean_filterText (h : ∀ e ∈ query.filter, e.WellFormed) : Clean query.filterText :=
  clean_optional (Clean.of_plain rfl) fun e he => clean_render (h e he)

theorem clean_groupByText (h : ∀ e ∈ query.groupBy, e.WellFormed) : Clean query.groupByText :=
  clean_list (Clean.of_plain rfl) fun e he => clean_render (h e he)

end Clean

section Shows
variable {ι : Type} {own : ι → String} {query : Query}

theorem shows_items (hselect : query.statement = .select) {before after : List SelectItem}
    (hbefore : ∀ item ∈ before, item.WellFormed) {items : ι → SelectItem}
    (h : Shows own fun i => (items i).render .standard) :
    Shows own fun i =>
      ({ query with select := before ++ items i :: after } : Query).render .standard := by
  have hclean : ∀ part ∈ before.map (SelectItem.render .standard), Clean part :=
    List.forall_mem_map.mpr fun item hitem => clean_item (hbefore item hitem)
  have hlist := h.trans (Shows.commas hclean (after.map (SelectItem.render .standard)))
  have hfront : Front "SELECT " := Front.of_mark rfl
  have hback : Back (listClause " FROM " writeTable query.tables ++ (joinsText query.joins ++
      (query.filterText ++ (query.groupByText ++ (query.orderByText ++ query.countText))))) :=
    (back_list rfl _).append ((back_joins _).append ((back_optional rfl _).append
      ((back_list rfl _).append ((back_list rfl _).append
        ((back_optional rfl _).append (back_optional rfl _))))))
  refine (hlist.trans (Shows.between hfront hback)).of_eq fun i => ?_
  simp only [render_selection, hselect, startText, List.map_append, List.map_cons,
    String.append_assoc]
  rfl

theorem shows_join (hselect : query.statement = .select)
    (hitems : SelectItem.ListWellFormed query.select) {before after : List Join}
    (hbefore : ∀ join ∈ before, join.WellFormed) {joins : ι → Join}
    (h : Shows own fun i => (joins i).render .standard) :
    Shows own fun i =>
      ({ query with joins := before ++ joins i :: after } : Query).render .standard := by
  have hfront : Front (query.startText ++ joinsText before ++ " ") :=
    Front.mark ((clean_startText hitems).append (clean_joins hbefore)) rfl
  have hback : Back (joinsText after ++
      (query.filterText ++ (query.groupByText ++ (query.orderByText ++ query.countText)))) :=
    (back_joins _).append ((back_optional rfl _).append ((back_list rfl _).append
      ((back_list rfl _).append ((back_optional rfl _).append (back_optional rfl _)))))
  refine (h.trans (Shows.between hfront hback)).of_eq fun i => ?_
  simp only [render_selection, hselect, joinsText_append, String.append_assoc]
  rfl

theorem shows_filter (hselect : query.statement = .select)
    (hitems : SelectItem.ListWellFormed query.select)
    (hjoins : ∀ join ∈ query.joins, join.WellFormed) {family : ι → Expr}
    (h : Shows own fun i => (family i).render .standard) :
    Shows own fun i => ({ query with filter := some (family i) } : Query).render .standard := by
  have hfront : Front (query.startText ++ joinsText query.joins ++ " WHERE ") :=
    Front.mark ((clean_startText hitems).append (clean_joins hjoins)) rfl
  have hback : Back (query.groupByText ++ (query.orderByText ++ query.countText)) :=
    (back_list rfl _).append ((back_list rfl _).append ((back_optional rfl _).append
      (back_optional rfl _)))
  refine (h.trans (Shows.between hfront hback)).of_eq fun i => ?_
  simp only [render_selection, hselect, filterText, optionalClause, String.append_assoc]
  rfl

theorem listClause_append {α : Type} (word : String) (write : α → String) (before : List α) (a : α)
    (after : List α) : listClause word write (before ++ a :: after) =
      word ++ commas (before.map write ++ write a :: after.map write) := by
  cases before with
  | nil => rfl
  | cons first before => simp only [listClause, List.cons_append, List.map_cons, List.map_append]

theorem shows_groupBy (hselect : query.statement = .select)
    (hitems : SelectItem.ListWellFormed query.select)
    (hjoins : ∀ join ∈ query.joins, join.WellFormed) (hfilter : ∀ e ∈ query.filter, e.WellFormed)
    {before after : List Expr} (hbefore : ∀ e ∈ before, e.WellFormed) {family : ι → Expr}
    (h : Shows own fun i => (family i).render .standard) :
    Shows own fun i =>
      ({ query with groupBy := before ++ family i :: after } : Query).render .standard := by
  have hclean : ∀ part ∈ before.map (Expr.render .standard), Clean part :=
    List.forall_mem_map.mpr fun e he => clean_render (hbefore e he)
  have hlist := h.trans (Shows.commas hclean (after.map (Expr.render .standard)))
  have hfront : Front (query.startText ++ joinsText query.joins ++ query.filterText ++
      " GROUP BY ") :=
    Front.mark (((clean_startText hitems).append (clean_joins hjoins)).append
      (clean_filterText hfilter)) rfl
  have hback : Back (query.orderByText ++ query.countText) :=
    (back_list rfl _).append ((back_optional rfl _).append (back_optional rfl _))
  refine (hlist.trans (Shows.between hfront hback)).of_eq fun i => ?_
  simp only [render_selection, hselect, groupByText, listClause_append, String.append_assoc]
  rfl

theorem shows_orderBy (hselect : query.statement = .select)
    (hitems : SelectItem.ListWellFormed query.select)
    (hjoins : ∀ join ∈ query.joins, join.WellFormed) (hfilter : ∀ e ∈ query.filter, e.WellFormed)
    (hgroup : ∀ e ∈ query.groupBy, e.WellFormed) {before after : List OrderBy}
    (hbefore : ∀ order ∈ before, order.expression.WellFormed) {orders : ι → OrderBy}
    (h : Shows own fun i => (orders i).render .standard) :
    Shows own fun i =>
      ({ query with orderBy := before ++ orders i :: after } : Query).render .standard := by
  have hclean : ∀ part ∈ before.map (OrderBy.render .standard), Clean part :=
    List.forall_mem_map.mpr fun order horder => clean_order (hbefore order horder)
  have hlist := h.trans (Shows.commas hclean (after.map (OrderBy.render .standard)))
  have hfront : Front (query.startText ++ joinsText query.joins ++ query.filterText ++
      query.groupByText ++ " ORDER BY ") :=
    Front.mark ((((clean_startText hitems).append (clean_joins hjoins)).append
      (clean_filterText hfilter)).append (clean_groupByText hgroup)) rfl
  have hback : Back query.countText := (back_optional rfl _).append (back_optional rfl _)
  refine (hlist.trans (Shows.between hfront hback)).of_eq fun i => ?_
  simp only [render_selection, hselect, orderByText, listClause_append, String.append_assoc]
  rfl

end Shows

theorem forall_wellFormed_of_mem {items : List SelectItem} (h : SelectItem.ListWellFormed items)
    {item : SelectItem} (hmem : item ∈ items) (hitem : ∀ columns, item ≠ .distinct columns) :
    ∀ item ∈ items, item.WellFormed := by
  rcases h with ⟨columns, _, rfl⟩ | ⟨_, h⟩
  · exact absurd (List.mem_singleton.mp hmem) (hitem columns)
  · exact h

section Places
variable {ι : Type} {own : ι → String} {query : Query}

theorem shows_withOutput {sqls : ι → String} (h : Shows own sqls) (output : Option String) :
    Shows own fun i => SelectItem.withOutput (sqls i) output := by
  cases output with
  | none => exact h
  | some output =>
    have hback : Back (" AS " ++ writeName output) := Back.mark rfl _
    exact (h.trans (Shows.before hback)).of_eq fun i => String.append_assoc

theorem shows_on {family : ι → Expr} (h : Shows own fun i => (family i).render .standard)
    {kind : Option String} (hkind : ∀ k ∈ kind, k ∈ Join.kinds) (table : String) :
    Shows own fun i =>
      ({ kind, table, condition := some (family i) } : Join).render .standard := by
  have hjoin : Join.WellFormed { kind, table } := ⟨hkind, by simp⟩
  have hfront : Front (({ kind, table } : Join).render .standard ++ " ON ") :=
    Front.mark (clean_join hjoin) rfl
  refine (h.trans (Shows.behind hfront)).of_eq fun i => ?_
  simp [Join.render, String.append_assoc]

theorem shows_directed {family : ι → Expr} (h : Shows own fun i => (family i).render .standard)
    (direction : Option Direction) :
    Shows own fun i => ({ expression := family i, direction } : OrderBy).render .standard := by
  cases direction with
  | none => exact h
  | some direction =>
    have hback : Back (" " ++ direction.word) := Back.mark rfl _
    exact (h.trans (Shows.before hback)).of_eq fun i => String.append_assoc

namespace Clause
variable {clause : Clause} {e : Expr}

/-- An expression of a clause is well formed by itself. -/
theorem inner (h : (clause.put query e).WellFormed) (hselect : query.statement = .select) :
    e.WellFormed := by
  obtain ⟨hitems, hjoins, hfilter, hgroup, horder⟩ :=
    h.selection (by cases clause <;> exact hselect)
  cases clause with
  | computed before after output =>
    have hmem : SelectItem.computed e output ∈ before ++ .computed e output :: after := by simp
    exact (forall_wellFormed_of_mem hitems hmem (by simp) _ hmem).1
  | join before after kind table =>
    exact (hjoins { kind, table, condition := some e } (by simp [put])).condition e rfl
  | filter => exact hfilter e rfl
  | groupBy before after => exact hgroup e (by simp [put])
  | orderBy before after direction =>
    exact horder { expression := e, direction } (by simp [put])

/-- What an expression shows, a query with it in one of its clauses shows. -/
theorem shows (h : (clause.put query e).WellFormed) (hselect : query.statement = .select)
    {family : ι → Expr} (hown : Shows own fun i => (family i).render .standard) :
    Shows own fun i => (clause.put query (family i)).render .standard := by
  obtain ⟨hitems, hjoins, hfilter, hgroup, horder⟩ :=
    h.selection (by cases clause <;> exact hselect)
  cases clause with
  | computed before after output =>
    have hmem : SelectItem.computed e output ∈ before ++ .computed e output :: after := by simp
    have hall := forall_wellFormed_of_mem hitems hmem (by simp)
    exact shows_items hselect (fun item hitem => hall item (List.mem_append_left _ hitem))
      (shows_withOutput hown output)
  | join before after kind table =>
    have hkind : ∀ k ∈ kind, k ∈ Join.kinds :=
      (hjoins { kind, table, condition := some e } (by simp [put])).kind
    exact shows_join hselect hitems (fun join hj => hjoins join (List.mem_append_left _ hj))
      (shows_on hown hkind table)
  | filter => exact shows_filter hselect hitems hjoins hown
  | groupBy before after =>
    exact shows_groupBy hselect hitems hjoins hfilter
      (fun e he => hgroup e (List.mem_append_left _ he)) hown
  | orderBy before after direction =>
    exact shows_orderBy hselect hitems hjoins hfilter hgroup
      (fun order ho => horder order (List.mem_append_left _ ho)) (shows_directed hown direction)

end Clause

/-- The name of a column is written like any other name, whatever it is. -/
theorem Column.shows {column : Column} {name : String} (h : (column.put query name).WellFormed)
    (hselect : query.statement = .select) :
    Shows writeName fun other => (column.put query other).render .standard := by
  obtain ⟨hitems, _⟩ := h.selection (by cases column <;> exact hselect)
  cases column with
  | item before after output =>
    have hmem : SelectItem.column name output ∈ before ++ .column name output :: after := by simp
    have hall := forall_wellFormed_of_mem hitems hmem (by simp)
    exact shows_items hselect (fun item hitem => hall item (List.mem_append_left _ hitem))
      (shows_withOutput (Shows.refl writeName) output)
  | aggregate before after function output =>
    have hmem : SelectItem.aggregate function (.column name) output ∈
      before ++ .aggregate function (.column name) output :: after := by simp
    have hall := forall_wellFormed_of_mem hitems hmem (by simp)
    have hfront : Front (function.name ++ "(") := by
      cases function <;> exact Front.of_mark rfl
    have hback : Back ")" := Back.of_mark rfl
    exact shows_items hselect (fun item hitem => hall item (List.mem_append_left _ hitem))
      (shows_withOutput (Shows.between hfront hback) output)
  | distinct before after =>
    have hclean : ∀ part ∈ before.map writeName, Clean part :=
      List.forall_mem_map.mpr fun name _ => clean_writeName name
    have hfront : Front "DISTINCT " := Front.of_mark rfl
    have hlist : Shows writeName fun other => commas (before.map writeName ++ writeName other ::
        after.map writeName) := Shows.commas hclean (after.map writeName)
    have hitem : Shows writeName fun other =>
        (SelectItem.distinct (before ++ other :: after)).render .standard := by
      refine (hlist.trans (Shows.behind hfront)).of_eq fun other => ?_
      rw [SelectItem.render, List.map_append, List.map_cons]
    have hnone : ∀ item ∈ ([] : List SelectItem), item.WellFormed := by simp
    exact shows_items hselect hnone hitem

end Places

end FeatureSql.Sql.Query
