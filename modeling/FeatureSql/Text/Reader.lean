/-! Readers: functions that take a value off the front of a text or refuse it.
Choice is ordered and a reader never returns to an alternative it has left. -/

set_option autoImplicit false

namespace FeatureSql

/-- Takes a value off the front of a text and leaves the rest, or refuses. -/
abbrev Reader (α : Type) := StateT (List Char) Option α

namespace Reader
variable {α β : Type}

/-- One character of a class. -/
def satisfy (p : Char → Bool) : Reader Char := fun
  | [] => none
  | c :: rest => if p c then some (c, rest) else none

def char (c : Char) : Reader Unit := do
  let _ ← satisfy (· == c)

/-- Exactly these characters. -/
def exactly : List Char → Reader Unit
  | [] => pure ()
  | c :: cs => do char c; exactly cs

/-- The longest run of characters of a class, possibly empty. -/
def run (p : Char → Bool) : Reader (List Char) := fun text =>
  some (text.takeWhile p, text.dropWhile p)

/-- The longest run of characters of a class, not empty. -/
def run1 (p : Char → Bool) : Reader (List Char) := do
  let cs ← run p
  if cs.isEmpty then failure else pure cs

/-- Reads after the longest run of characters of a class. -/
def after (p : Char → Bool) (reader : Reader α) : Reader α := fun text =>
  reader (text.dropWhile p)

/-- As many values as follow one another, at most one for each character of `bound`. -/
def upTo (bound : List Char) (reader : Reader α) (text : List Char) : List α × List Char :=
  match bound with
  | [] => ([], text)
  | _ :: bound =>
    match reader text with
    | none => ([], text)
    | some (a, left) =>
      let (as, left) := upTo bound reader left
      (a :: as, left)

/-- As many values as follow one another. Each takes a character at least, so the text itself
bounds their number. -/
def many (reader : Reader α) : Reader (List α) := fun text => some (upTo text reader text)

/-- One value or more, with a separator between neighbours. -/
def separated (separator : Reader Unit) (reader : Reader α) : Reader (List α) := do
  let first ← reader
  let others ← many (do separator; reader)
  pure (first :: others)

/-- Operands joined by operators, folded from the left. -/
def chain (operand : Reader α) (operator : Reader β) (join : β → α → α → α) : Reader α := do
  let first ← operand
  let others ← many (do let b ← operator; let a ← operand; pure (b, a))
  pure (others.foldl (fun left (b, right) => join b left right) first)

def atEnd : Reader Unit := fun
  | [] => some ((), [])
  | _ :: _ => none

/-- The value of a whole text. -/
def value? (reader : Reader α) (text : String) : Option α :=
  (reader text.toList).map Prod.fst

end Reader
end FeatureSql
