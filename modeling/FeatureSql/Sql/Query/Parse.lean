import FeatureSql.Sql.Query.Reader

/-! Whole texts as queries and as the parts of queries that travel on their own. -/

set_option autoImplicit false

namespace FeatureSql.Sql

/-- Whether a query may hold names between backticks. -/
inductive Mode where
  | standard
  | experimental
  deriving DecidableEq, Repr

def Mode.ofExperimental (experimental : Bool) : Mode :=
  if experimental then .experimental else .standard

/-- A piece of a text, in bytes of its UTF-8 form, from its first byte to the first after it. -/
structure Span where
  start : Nat
  stop : Nat
  deriving DecidableEq, Repr

inductive SyntaxError where
  | grammar
  | backtickName (span : Span)
  | countTooLarge (span : Span)
  deriving DecidableEq, Repr

def byteLength (cs : List Char) : Nat := cs.foldl (fun n c => n + c.utf8Size) 0

/-- The piece of `whole` that its end `rest` starts with. -/
def Span.ofEnd (whole rest piece : List Char) : Span :=
  let start := byteLength whole - byteLength rest
  { start, stop := start + byteLength piece }

/-- The end of a statement that starts at its first name between backticks. Quoted text is
passed over. -/
def findBacktick : List Char → Option (List Char)
  | [] => none
  | c :: cs =>
    if c == backtick then some (c :: cs)
    else if c == '\x27' || c == '\x22' then skipTo c cs
    else findBacktick cs
where
  /-- Goes on after the quote that closes. A doubled quote closes and opens at once. -/
  skipTo (quote : Char) : List Char → Option (List Char)
    | [] => none
    | c :: cs => if c == quote then findBacktick cs else skipTo quote cs

/-- A name between backticks at the start of a text, its backticks included. -/
def backtickPiece (text : List Char) : List Char :=
  match text with
  | [] => []
  | c :: cs => c :: (cs.takeWhile (· != backtick) ++ [backtick])

def Count.value (whole : List Char) (count : Count) : Except SyntaxError UInt64 :=
  let n := natOfDigits count.digits
  if n < UInt64.size then .ok (UInt64.ofNat n)
  else .error (.countTooLarge (.ofEnd whole count.text count.digits))

namespace Query

/-- Where a text is refused because of a name between backticks. -/
def backtickSpan? (mode : Mode) (text : List Char) (query : Query) : Option Span :=
  match mode, query.statement with
  | .experimental, _ => none
  | .standard, .other _ _ => none
  | .standard, _ =>
    (findBacktick text).map fun rest => Span.ofEnd text rest (backtickPiece rest)

def parse (mode : Mode) (sql : String) : Except SyntaxError Query := do
  let text := sql.toList
  let some draft := Draft.reader.value? sql | throw .grammar
  if let some span := backtickSpan? mode text draft.query then throw (.backtickName span)
  let limit ← draft.limit.mapM (Count.value text)
  let offset ← draft.offset.mapM (Count.value text)
  pure { draft.query with limit, offset }

end Query

/-- Reads a whole text, blanks at its end included. -/
def parseWhole {α : Type} (reader : Reader α) (sql : String) : Except SyntaxError α :=
  match (do let a ← reader; lexeme Reader.atEnd; pure a : Reader α).value? sql with
  | some a => .ok a
  | none => .error .grammar

def Expr.parse (sql : String) : Except SyntaxError Expr := parseWhole Expr.reader sql

def Expr.parseList (sql : String) : Except SyntaxError (List Expr) :=
  parseWhole Expr.listReader sql

def SelectItem.parseList (sql : String) : Except SyntaxError (List SelectItem) :=
  parseWhole SelectItem.listReader sql

def OrderBy.parseList (sql : String) : Except SyntaxError (List OrderBy) :=
  parseWhole OrderBy.listReader sql

end FeatureSql.Sql
