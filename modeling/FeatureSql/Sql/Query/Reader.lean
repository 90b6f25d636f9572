import FeatureSql.Sql.Expr.Reader
import FeatureSql.Sql.Query.Basic
import FeatureSql.Text.Blank

/-! Queries read from SQL, clause by clause. Limit and offset are kept as digits, with the place
where they stand, until the whole text is known to be a statement. -/

set_option autoImplicit false

namespace FeatureSql.Sql

namespace SelectItem

def outputReader : Reader String := (do keyword "as"; name <|> textLiteral) <|> name

def reader : Reader SelectItem :=
  (do symbol "*"; pure .wildcard) <|>
    (do
      let e ← Expr.reader
      let output ← optional outputReader
      pure (ofExpr e output))

def distinctReader : Reader (List SelectItem) := do
  keyword "distinct"
  let columns ← Reader.separated comma name
  pure [.distinct columns]

/-- The list of a select clause. `DISTINCT` stands before names only. -/
def listReader : Reader (List SelectItem) := distinctReader <|> Reader.separated comma reader

end SelectItem

def Direction.reader : Reader Direction :=
  (do keyword "asc"; pure .asc) <|> (do keyword "desc"; pure .desc)

def OrderBy.reader : Reader OrderBy := do
  let expression ← Expr.reader
  let direction ← optional Direction.reader
  pure { expression, direction }

def OrderBy.listReader : Reader (List OrderBy) := Reader.separated comma OrderBy.reader

namespace Join

def sideWord : Reader String :=
  (do keyword "left"; pure "LEFT") <|> (do keyword "right"; pure "RIGHT") <|>
    (do keyword "full"; pure "FULL")

def kindReader : Reader String :=
  (do keyword "inner"; pure "INNER") <|> (do keyword "cross"; pure "CROSS") <|>
    (do
      let side ← sideWord
      let outer ← optional (keyword "outer")
      pure (if outer.isSome then side ++ " OUTER" else side))

def reader : Reader Join := do
  let kind ← optional kindReader
  keyword "join"
  let table ← tableName
  let condition ← optional (do keyword "on"; Expr.reader)
  pure { kind, table, condition }

end Join

/-- The digits of a count, and the text from the first of them on. -/
structure Count where
  digits : List Char
  text : List Char

def Count.reader : Reader Count := lexeme fun text =>
  (Numeral.digits text).map fun (digits, left) => ({ digits, text }, left)

/-- A query whose counts are still digits. -/
structure Draft where
  query : Query
  limit : Option Count := none
  offset : Option Count := none

namespace Draft

def tablesReader : Reader (List String) := do
  keyword "from"
  Reader.separated comma tableName

def filterReader : Reader Expr := do
  keyword "where"
  Expr.reader

def groupByReader : Reader (List Expr) := do
  keyword "group"
  keyword "by"
  Expr.listReader

def orderByReader : Reader (List OrderBy) := do
  keyword "order"
  keyword "by"
  OrderBy.listReader

def countReader (word : String) : Reader Count := do
  keyword word
  Count.reader

def selectReader : Reader Draft := do
  keyword "select"
  let select ← SelectItem.listReader
  let tables ← optional tablesReader
  let joins ← Reader.many Join.reader
  let filter ← optional filterReader
  let groupBy ← optional groupByReader
  let orderBy ← optional orderByReader
  let limit ← optional (countReader "limit")
  let offset ← optional (countReader "offset")
  pure {
    query := {
      select, joins, filter
      tables := tables.getD []
      groupBy := groupBy.getD []
      orderBy := orderBy.getD [] }
    limit, offset }

def deleteReader : Reader Draft := do
  keyword "delete"
  let tables ← tablesReader
  let filter ← optional filterReader
  pure { query := { statement := .delete, tables, filter } }

/-- First words of the statements that are told apart but not taken apart. -/
def otherWords : List (List Char) :=
  ["insert", "update", "create", "drop", "alter", "truncate", "grant", "revoke", "merge",
   "replace"].map String.toList

/-- A statement of another kind reaches to the end of the text. -/
def otherReader : Reader Draft := lexeme fun text =>
  let word := lower (text.takeWhile isWordChar)
  if otherWords.contains word then
    some ({ query := { statement := .other (String.ofList word) (trim (String.ofList text)) } }, [])
  else none

def reader : Reader Draft := do
  let draft ← selectReader <|> deleteReader <|> otherReader
  let _ ← optional (symbol ";")
  lexeme Reader.atEnd
  pure draft

end Draft
end FeatureSql.Sql
