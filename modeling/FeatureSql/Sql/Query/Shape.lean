import FeatureSql.Error
import FeatureSql.Sql.Query.Basic

/-! The shape that a query needs before it is written: a selection or a deletion on one table. -/

set_option autoImplicit false

namespace FeatureSql.Sql

def Query.validate (query : Query) : Outcome Unit :=
  match query.statement with
  | .other keyword _ => .error (.statementNotAllowed keyword)
  | _ =>
    if query.tables.isEmpty then .error .malformedQuery
    else if 1 < query.tables.length || !query.joins.isEmpty then .error .joinsNotAllowed
    else if query.select.isEmpty && !query.isDelete then .error .malformedQuery
    else .ok ()

/-- A feature service counts rows or selects columns, never both. -/
def SelectItem.validateCount (select : List SelectItem) : Outcome Unit :=
  if 1 < select.length && select.any isCountStar then .error .countWithColumns else .ok ()

end FeatureSql.Sql
