import FeatureSql.Proofs.Expr.Text
import FeatureSql.Proofs.Query.Statement
import FeatureSql.Proofs.Spatial.Filter
import FeatureSql.Translate.ToFeature
import FeatureSql.Translate.ToSql

/-! Parameters of a feature service query that hold parts of an SQL query: lists with bare commas
between their parts, which read back part by part. -/

set_option autoImplicit false

namespace FeatureSql.Sql

section Joined
variable {α β : Type} {reader : Reader α} {write : β → String} {value : β → α} {n : Nat}

theorem joined_readsAs {bs : List β} (hne : bs ≠ [])
    (h : ∀ b ∈ bs, ReadsAs reader (ListEnds n) (write b) (value b)) :
    ReadsAs (Reader.separated comma reader) (Ends n) (",".intercalate (bs.map write))
      (bs.map value) :=
  fun _ _ hg ht => separated_marks rfl Gap.nil ListEnds.comma hne h (Or.inr ht) (ends_comma ht) hg

theorem parseWhole_joined {bs : List β} (hne : bs ≠ [])
    (h : ∀ b ∈ bs, ReadsAs reader (ListEnds 0) (write b) (value b)) :
    parseWhole (Reader.separated comma reader) (",".intercalate (bs.map write)) =
      .ok (bs.map value) :=
  parseWhole_of_readsAs (joined_readsAs hne h) (.nil : Ends 0 [])

end Joined

/-- The word for a direction in a parameter. -/
def Direction.lowerWord : Direction → String
  | .asc => "asc"
  | .desc => "desc"

theorem Direction.spells_lowerWord (direction : Direction) :
    direction.Spells direction.lowerWord := by
  cases direction <;> exact ⟨rfl, rfl⟩

theorem orderText_some (e : Expr) (direction : Direction) :
    Query.orderText .standard { expression := e, direction := some direction } =
      e.render .standard ++ " " ++ direction.lowerWord := by
  have hasc : " asc" = " " ++ "asc" := by decide
  have hdesc : " desc" = " " ++ "desc" := by decide
  rw [String.append_assoc]
  cases direction with
  | asc => exact congrArg (e.render .standard ++ ·) hasc
  | desc => exact congrArg (e.render .standard ++ ·) hdesc

theorem orderText_readsAs {n : Nat} {order : OrderBy} (h : order.expression.WellFormed) :
    ReadsAs OrderBy.reader (ListEnds n) (Query.orderText .standard order) order.reread := by
  obtain ⟨e, direction⟩ := order
  cases direction with
  | none => exact undirected_readsAs h
  | some direction =>
    rw [orderText_some]
    exact spelled_readsAs h direction.spells_lowerWord

theorem items_parseList {items : List SelectItem} (hne : items ≠ [])
    (h : ∀ item ∈ items, item.WellFormed) :
    SelectItem.parseList (",".intercalate (items.map (SelectItem.render .standard))) =
      .ok (items.map SelectItem.reread) := by
  have hread : ∀ item ∈ items, ReadsAs SelectItem.reader (ListEnds 0) (item.render .standard)
      item.reread := fun item hitem => item_readsAs (h item hitem)
  have hlist : ReadsAs SelectItem.listReader (Ends 0)
      (",".intercalate (items.map (SelectItem.render .standard)))
      (items.map SelectItem.reread) := fun gap text hg ht =>
    listReader_of_separated (joined_readsAs hne hread gap text hg ht)
  exact parseWhole_of_readsAs hlist .nil

theorem solid_orderText {order : OrderBy} (h : order.expression.WellFormed) :
    Solid (Query.orderText .standard order).toList := by
  obtain ⟨e, direction⟩ := order
  cases direction with
  | none => exact h.solid
  | some direction =>
    have hword : Solid direction.lowerWord.toList := by
      cases direction with
      | asc => exact Solid.ends (c := 'a') (d := 'c') rfl rfl ['s']
      | desc => exact Solid.ends (c := 'd') (d := 'c') rfl rfl ['e', 's']
    rw [orderText_some, String.toList_append, String.toList_append, List.append_assoc]
    exact h.solid.append hword " ".toList

theorem solid_withOutput {sql : String} (h : Solid sql.toList) (output : Option String) :
    Solid (SelectItem.withOutput sql output).toList := by
  cases output with
  | none => exact h
  | some output =>
    have hsolid := h.append (solid_writeName output) " AS ".toList
    rw [SelectItem.withOutput, String.toList_append, String.toList_append, List.append_assoc]
    exact hsolid

theorem solid_item {item : SelectItem} (h : item.WellFormed) :
    Solid (item.render .standard).toList := by
  cases item with
  | wildcard => exact ⟨⟨'*', [], rfl, rfl⟩, ⟨[], '*', rfl, rfl⟩⟩
  | column value output => exact solid_withOutput (solid_writeName value) output
  | aggregate function argument output =>
    refine solid_withOutput ?_ output
    have hname : ∃ c cs, function.name.toList = c :: cs ∧ isBlank c = false := by
      cases function <;> exact ⟨_, _, rfl, rfl⟩
    obtain ⟨c, cs, hcs, hc⟩ := hname
    have hsolid : Solid (c :: ((cs ++ '(' :: argument.render.toList) ++ [')'])) :=
      Solid.ends hc rfl _
    have hchars : (function.name ++ "(" ++ argument.render ++ ")").toList =
        c :: ((cs ++ '(' :: argument.render.toList) ++ [')']) := by
      simp [hcs]
    rw [hchars]
    exact hsolid
  | distinct columns => exact absurd h id
  | computed e output => exact solid_withOutput h.1.solid output

end FeatureSql.Sql

namespace FeatureSql.Feature

open Sql (Expr SelectItem OrderBy SyntaxError)

theorem parsedList_parameterOf {α β : Type} {parse : String → Except SyntaxError (List α)}
    {write : β → String} {value : β → α} (bs : List β) (hsolid : ∀ b ∈ bs, Solid (write b).toList)
    (hparse : bs ≠ [] → parse (",".intercalate (bs.map write)) = .ok (bs.map value)) :
    parsedList parse (Sql.Query.parameterOf (bs.map write)) = .ok (bs.map value) := by
  cases bs with
  | nil => rfl
  | cons b bs =>
    have hne : (b :: bs).map write ≠ [] := by simp
    have htext : Solid (",".intercalate ((b :: bs).map write)).toList :=
      Solid.intercalate hne (List.forall_mem_map.mpr hsolid)
    rw [Sql.Query.parameterOf, if_neg (by simp), parsedList, given?_of_solid htext]
    dsimp only
    rw [hparse (by simp)]
    rfl

theorem groupBy_parameter_reread {es : List Expr} (h : ∀ e ∈ es, e.WellFormed) :
    parsedList Expr.parseList (Sql.Query.parameterOf (es.map (Expr.render .standard))) =
      .ok (es.map Expr.reread) :=
  parsedList_parameterOf es (fun e he => (h e he).solid) fun hne =>
    Sql.parseWhole_joined hne (Sql.exprs_readsAs h)

theorem orderBy_parameter_reread {orders : List OrderBy}
    (h : ∀ order ∈ orders, order.expression.WellFormed) :
    parsedList OrderBy.parseList (Sql.Query.parameterOf (orders.map (Sql.Query.orderText .standard))) =
      .ok (orders.map OrderBy.reread) :=
  parsedList_parameterOf orders (fun order ho => Sql.solid_orderText (h order ho)) fun hne =>
    Sql.parseWhole_joined hne fun order ho => Sql.orderText_readsAs (h order ho)

theorem items_parameter_reread {items : List SelectItem} (h : ∀ item ∈ items, item.WellFormed) :
    parsedList SelectItem.parseList
      (Sql.Query.parameterOf (items.map (SelectItem.render .standard))) =
        .ok (items.map SelectItem.reread) :=
  parsedList_parameterOf items (fun item hi => Sql.solid_item (h item hi)) fun hne =>
    Sql.items_parseList hne h

theorem groupBy_parameter {es : List Expr} (h : ∀ e ∈ es, e.WellFormed)
    (hfree : ∀ e ∈ es, e.LabelFree) :
    parsedList Expr.parseList (Sql.Query.parameterOf (es.map (Expr.render .standard))) =
      .ok (es.map Expr.leftGrouped) := by
  rw [groupBy_parameter_reread h,
    List.map_congr_left fun e he => Expr.reread_of_labelFree (hfree e he)]

theorem orderBy_parameter {orders : List OrderBy} (h : ∀ order ∈ orders, order.expression.WellFormed)
    (hfree : ∀ order ∈ orders, order.expression.LabelFree) :
    parsedList OrderBy.parseList (Sql.Query.parameterOf (orders.map (Sql.Query.orderText .standard))) =
      .ok (orders.map OrderBy.leftGrouped) := by
  rw [orderBy_parameter_reread h,
    List.map_congr_left fun order ho => OrderBy.reread_of_labelFree (hfree order ho)]

theorem items_parameter {items : List SelectItem} (h : ∀ item ∈ items, item.WellFormed)
    (hfree : ∀ item ∈ items, item.LabelFree) :
    parsedList SelectItem.parseList
      (Sql.Query.parameterOf (items.map (SelectItem.render .standard))) =
        .ok (items.map SelectItem.leftGrouped) := by
  rw [items_parameter_reread h,
    List.map_congr_left fun item hi => SelectItem.reread_of_labelFree (hfree item hi)]

end FeatureSql.Feature
