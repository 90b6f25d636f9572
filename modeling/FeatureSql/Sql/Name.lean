import FeatureSql.Sql.Word
import FeatureSql.Text.Quoted

/-! Names of columns and tables as they are written: bare when the bare text reads back as
the same name, in double quotes otherwise. -/

set_option autoImplicit false

namespace FeatureSql.Sql

def isDot (c : Char) : Bool := c == '.'

def isDotOrDash (c : Char) : Bool := c == '.' || c == '-'

def quoteName (name : String) : String := Quoted.write '\x22' name

/-- A column name that may stand bare. -/
def isBareName (name : List Char) : Bool :=
  match name with
  | [] => false
  | c :: cs =>
    isWordStart c && cs.all (fun d => isWordChar d || isDot d) &&
      !hasReservedSegment isDot name && !isConstant name

def writeName (name : String) : String :=
  if isBareName name.toList then name else quoteName name

/-- A table name that may stand bare. Tables are often named by identifiers with dashes. -/
def isBareTable (name : List Char) : Bool :=
  match name with
  | [] => false
  | c :: cs =>
    isWordChar c && cs.all (fun d => isWordChar d || isDotOrDash d) &&
      !hasReservedSegment isDotOrDash name

def writeTable (name : String) : String :=
  if isBareTable name.toList then name else quoteName name

end FeatureSql.Sql
