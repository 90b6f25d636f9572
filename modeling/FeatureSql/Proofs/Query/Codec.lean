import FeatureSql.Proofs.Expr.Codec
import FeatureSql.Proofs.Json.Members
import FeatureSql.Sql.Query.Codec

/-! Queries read back from their JSON values, clause by clause, and the text that these have. -/

set_option autoImplicit false

namespace FeatureSql.Sql

open Json

theorem AggregateArgument.ofJson?_toJson (argument : AggregateArgument) :
    ofJson? argument.toJson = some argument := by
  cases argument <;> rfl

theorem AggregateFunction.ofJson?_name (function : AggregateFunction) :
    ofJson? (.str function.name) = some function := by
  cases function <;> rfl

theorem list?_str (values : List String) : list? str? (.arr (values.map .str)) = some values :=
  list?_map fun _ _ => rfl

section Output
variable {members : Members} (output : Option String)

theorem optional_output (h : members.values "alias" = (output.map Json.str).toList) :
    members.optional "alias" str? = some output :=
  Members.optional_of_values .str output h fun _ => rfl

end Output

theorem SelectItem.ofJson?_toJson (item : SelectItem) : ofJson? item.toJson = some item := by
  cases item with
  | wildcard => rfl
  | column name output =>
    simp [ofJson?, toJson, variant?, Members.field, str?, optional_output output]
  | aggregate function argument output =>
    simp [ofJson?, toJson, variant?, Members.field, str?, optional_output output,
      AggregateFunction.ofJson?_name, AggregateArgument.ofJson?_toJson]
  | distinct columns =>
    simp [ofJson?, toJson, variant?, Members.field, str?, list?_str]
  | computed e output =>
    simp [ofJson?, toJson, variant?, Members.field, str?, optional_output output,
      Expr.ofJsonAt?_toJson]

theorem Statement.ofJson?_toJson (statement : Statement) :
    ofJson? statement.toJson = some statement := by
  cases statement with
  | select | delete => rfl
  | other keyword sql => simp [ofJson?, toJson, variant?, Members.field, str?]

/-- An expression is an object, never the null that may stand for no expression. -/
theorem Expr.orNull_toJson (e : Expr) : orNull ofJson? e.toJson = some (some e) := by
  have hread : (ofJson? e.toJson).map some = some (some e) := by rw [ofJson?_toJson]; rfl
  cases e <;> exact hread

theorem Direction.orNull_tag (direction : Direction) :
    orNull ofJson? (.str direction.tag) = some (some direction) := by
  cases direction <;> rfl

theorem OrderBy.ofJson?_toJson (order : OrderBy) : ofJson? order.toJson = some order := by
  obtain ⟨e, direction⟩ := order
  simp only [ofJson?, toJson, record?, Option.bind_eq_bind, Option.bind_some]
  rw [Members.field_of_values e.toJson (by simp), Expr.ofJson?_toJson,
    Members.optional_of_values _ direction (by simp) Direction.orNull_tag]
  rfl

theorem Join.ofJson?_toJson (join : Join) : ofJson? join.toJson = some join := by
  obtain ⟨kind, table, condition⟩ := join
  simp only [ofJson?, toJson, record?, Option.bind_eq_bind, Option.bind_some]
  rw [Members.optional_of_values .str kind (by simp) fun _ => rfl,
    Members.field_of_values (.str table) (by simp),
    Members.optional_of_values _ condition (by simp) Expr.orNull_toJson]
  rfl

namespace Query

theorem ofJson?_toJson (query : Query) : ofJson? query.toJson = some query := by
  obtain ⟨statement, select, tables, joins, filter, groupBy, orderBy, limit, offset⟩ := query
  simp only [ofJson?, toJson, record?, Option.bind_eq_bind, Option.bind_some]
  rw [Members.fieldOr_of_values statement.toJson (by simp), Statement.ofJson?_toJson,
    Members.fieldOr_of_values (.arr (select.map SelectItem.toJson)) (by simp),
    list?_map fun item _ => SelectItem.ofJson?_toJson item,
    Members.fieldOr_of_values (.arr (tables.map .str)) (by simp),
    list?_str,
    fieldOr_of_list _ joins (by simp) fun join _ => Join.ofJson?_toJson join,
    Members.optional_of_values _ filter (by simp) Expr.orNull_toJson,
    fieldOr_of_list _ groupBy (by simp) fun e _ => Expr.ofJson?_toJson e,
    fieldOr_of_list _ orderBy (by simp) fun order _ => OrderBy.ofJson?_toJson order,
    Members.optional_of_values countJson limit (by simp) orNull_uint64,
    Members.optional_of_values countJson offset (by simp) orNull_uint64]
  rfl

end Query

open Json.Members.ExactAmong (single append optionalMember listMember)

theorem isExact_strings (values : List String) : (Json.arr (values.map .str)).IsExact :=
  .arr (List.forall_mem_map.mpr fun value _ => .str value)

theorem AggregateArgument.isExact_toJson (argument : AggregateArgument) :
    argument.toJson.IsExact := by
  cases argument with
  | star => exact .str "star"
  | column name => exact .record (single "column" (.str name)) (by decide)

theorem SelectItem.isExact_toJson (item : SelectItem) : item.toJson.IsExact := by
  cases item with
  | wildcard => exact .record (single "type" (.str "wildcard")) (by decide)
  | column name output =>
    have hname := append (single "type" (.str "column")) (single "name" (.str name))
    exact .record (append hname (optionalMember "alias" output .str)) (by decide)
  | aggregate function argument output =>
    have htype := single "type" (.str "aggregate")
    have hfunction := append htype (single "function" (.str function.name))
    have hargument := append hfunction (single "argument" argument.isExact_toJson)
    exact .record (append hargument (optionalMember "alias" output .str)) (by decide)
  | distinct columns =>
    have hcolumns := single "columns" (isExact_strings columns)
    exact .record (append (single "type" (.str "distinct")) hcolumns) (by decide)
  | computed e output =>
    have he := append (single "type" (.str "expression")) (single "expression" e.isExact_toJson)
    exact .record (append he (optionalMember "alias" output .str)) (by decide)

theorem Statement.isExact_toJson (statement : Statement) : statement.toJson.IsExact := by
  cases statement with
  | select => exact .record (single "type" (.str "select")) (by decide)
  | delete => exact .record (single "type" (.str "delete")) (by decide)
  | other keyword sql =>
    have hsql := append (single "keyword" (.str keyword)) (single "sql" (.str sql))
    exact .record (append (single "type" (.str "other")) hsql) (by decide)

theorem OrderBy.isExact_toJson (order : OrderBy) : order.toJson.IsExact := by
  have hdirection := optionalMember "direction" order.direction
    fun direction : Direction => IsExact.str direction.tag
  exact .record (append (single "expression" order.expression.isExact_toJson) hdirection)
    (by decide)

theorem Join.isExact_toJson (join : Join) : join.toJson.IsExact := by
  have htable := append (optionalMember "kind" join.kind .str) (single "table" (.str join.table))
  exact .record (append htable (optionalMember "on" join.condition Expr.isExact_toJson))
    (by decide)

namespace Query

theorem isExact_toJson (query : Query) : query.toJson.IsExact := by
  have hselect : (Json.arr (query.select.map SelectItem.toJson)).IsExact :=
    .arr (List.forall_mem_map.mpr fun item _ => item.isExact_toJson)
  have hmembers := single "statement" query.statement.isExact_toJson
    |>.append (single "select" hselect)
    |>.append (single "from" (isExact_strings query.tables))
    |>.append (listMember "joins" query.joins fun join _ => join.isExact_toJson)
    |>.append (optionalMember "where" query.filter Expr.isExact_toJson)
    |>.append (listMember "groupBy" query.groupBy fun e _ => e.isExact_toJson)
    |>.append (listMember "orderBy" query.orderBy fun order _ => order.isExact_toJson)
    |>.append (optionalMember "limit" query.limit IsExact.uint64)
    |>.append (optionalMember "offset" query.offset IsExact.uint64)
  exact .record hmembers (by decide)

/-- As JSON a query loses nothing: its value has each key once and is read as the query itself, and
so a query that was read from any other value is written and read again without a change. -/
theorem json_lossless :
    (∀ query : Query, query.toJson.settle = query.toJson ∧ ofJson? query.toJson = some query) ∧
      ∀ json : Json, (ofJson? json).bind (fun query => ofJson? query.toJson) = ofJson? json := by
  constructor
  · intro query
    exact ⟨query.isExact_toJson.settle_eq, query.ofJson?_toJson⟩
  · intro json
    simp only [ofJson?_toJson]
    exact Option.bind_fun_some _

/-- Records and variants are read from lists as well. -/
example : ofJson? (.arr [.arr [.str "select"], .arr [.arr [.str "column", .str "a"]],
    .arr [.str "t"], .arr [], .arr [.str "not", .arr [.str "literal", .str "b"]]]) = some {
      select := [.column "a" none]
      tables := ["t"]
      filter := some (.not (.name "b")) } := by rfl

end Query
end FeatureSql.Sql
