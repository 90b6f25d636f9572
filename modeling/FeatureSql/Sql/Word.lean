/-! Words of SQL: letters, digits and underscores. Case is ASCII case. -/

set_option autoImplicit false

namespace FeatureSql.Sql

def isWordChar (c : Char) : Bool := c.isAlphanum || c == '_'

def isWordStart (c : Char) : Bool := c.isAlpha || c == '_'

/-- Words that separate the parts of a statement; as names they are quoted. -/
def reservedWords : List (List Char) :=
  ["and", "as", "asc", "by", "cross", "delete", "desc", "distinct", "from", "full", "group",
   "having", "ilike", "in", "inner", "is", "join", "left", "like", "limit", "not", "offset", "on",
   "or", "order", "outer", "right", "select", "where"].map String.toList

def lower (cs : List Char) : List Char := cs.map Char.toLower

def upper (cs : List Char) : List Char := cs.map Char.toUpper

def isReserved (word : List Char) : Bool := reservedWords.contains (lower word)

/-- Bare words that stand for a value and not for a column. -/
def constantWords : List (List Char) := ["null", "true", "false"].map String.toList

def isConstant (word : List Char) : Bool := constantWords.contains (lower word)

/-- The parts of a name between separators; there is always one. -/
def segments (isSeparator : Char → Bool) : List Char → List (List Char)
  | [] => [[]]
  | c :: cs =>
    if isSeparator c then [] :: segments isSeparator cs
    else match segments isSeparator cs with
      | [] => [[c]]
      | word :: words => (c :: word) :: words

def hasReservedSegment (isSeparator : Char → Bool) (name : List Char) : Bool :=
  (segments isSeparator name).any isReserved

end FeatureSql.Sql
