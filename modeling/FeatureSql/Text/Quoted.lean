import FeatureSql.Text.Reader

/-! Text between two equal marks. A mark that belongs to the text is written twice. -/

set_option autoImplicit false

namespace FeatureSql.Quoted

def double (mark : Char) : List Char → List Char
  | [] => []
  | c :: rest => if c = mark then mark :: mark :: double mark rest else c :: double mark rest

/-- The text up to the mark that closes it, and what follows that mark. -/
def close (mark : Char) : Reader (List Char)
  | [] => none
  | c :: rest =>
    if c = mark then
      match rest with
      | [] => some ([], [])
      | d :: more =>
        if d = mark then (close mark more).map fun (cs, left) => (mark :: cs, left)
        else some ([], d :: more)
    else (close mark rest).map fun (cs, left) => (c :: cs, left)

/-- A text in its marks. -/
def write (mark : Char) (text : String) : String :=
  String.ofList (mark :: (double mark text.toList ++ [mark]))

def read (mark : Char) : Reader String := do
  Reader.char mark
  let cs ← close mark
  pure (String.ofList cs)

end FeatureSql.Quoted
