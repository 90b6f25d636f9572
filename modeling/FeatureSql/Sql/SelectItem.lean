import FeatureSql.Sql.Expr.Render

/-! What a query selects: columns, aggregates, distinct columns, or computed values. -/

set_option autoImplicit false

namespace FeatureSql.Sql

inductive AggregateFunction where
  | count
  | sum
  | min
  | max
  | avg
  | stddev
  | var
  deriving DecidableEq, Repr

namespace AggregateFunction

def all : List AggregateFunction := [.count, .sum, .min, .max, .avg, .stddev, .var]

def name : AggregateFunction → String
  | .count => "count"
  | .sum => "sum"
  | .min => "min"
  | .max => "max"
  | .avg => "avg"
  | .stddev => "stddev"
  | .var => "var"

/-- The aggregate function of a name in any ASCII case. -/
def ofName? (name : String) : Option AggregateFunction :=
  all.find? fun f => f.name.toList == lower name.toList

end AggregateFunction

inductive AggregateArgument where
  | star
  | column (name : String)
  deriving DecidableEq, Repr

inductive SelectItem where
  | wildcard
  | column (name : String) (output : Option String)
  | aggregate (function : AggregateFunction) (argument : AggregateArgument) (output : Option String)
  | distinct (columns : List String)
  /-- Any other expression, such as a call of a function that does not aggregate. -/
  | computed (expression : Expr) (output : Option String)
  deriving DecidableEq, Repr

namespace SelectItem

def countStar : SelectItem := .aggregate .count .star none

def isCountStar : SelectItem → Bool
  | .aggregate .count .star _ => true
  | _ => false

/-- The argument an aggregate can take, if the arguments of a call are just that. -/
def aggregateArgument? : List Expr → Option AggregateArgument
  | [.star] => some .star
  | [.name value] => some (.column value)
  | _ => none

/-- The narrowest item that selects an expression. -/
def ofExpr (expression : Expr) (output : Option String) : SelectItem :=
  match expression with
  | .name value => .column value output
  | .call function arguments =>
    match AggregateFunction.ofName? function, aggregateArgument? arguments with
    | some function, some argument => .aggregate function argument output
    | _, _ => .computed expression output
  | _ => .computed expression output

end SelectItem

def AggregateArgument.render : AggregateArgument → String
  | .star => "*"
  | .column name => writeName name

namespace SelectItem

def withOutput (sql : String) : Option String → String
  | some output => sql ++ " AS " ++ writeName output
  | none => sql

def render (dialect : Dialect) : SelectItem → String
  | .wildcard => "*"
  | .column name output => withOutput (writeName name) output
  | .aggregate function argument output =>
    withOutput (function.name ++ "(" ++ argument.render ++ ")") output
  | .distinct columns => "DISTINCT " ++ commas (columns.map writeName)
  | .computed expression output => withOutput (expression.render dialect) output

end SelectItem
end FeatureSql.Sql
