/-! White space as text measures it: the characters with the Unicode property
White_Space, and the text between the blanks at its two ends. -/

set_option autoImplicit false

namespace FeatureSql

/-- The White_Space property, as ranges of code points. -/
def blankRanges : List (Nat × Nat) :=
  [(0x09, 0x0d), (0x20, 0x20), (0x85, 0x85), (0xa0, 0xa0), (0x1680, 0x1680), (0x2000, 0x200a),
   (0x2028, 0x2029), (0x202f, 0x202f), (0x205f, 0x205f), (0x3000, 0x3000)]

def isBlank (c : Char) : Bool :=
  blankRanges.any fun (low, high) => low ≤ c.toNat && c.toNat ≤ high

/-- A text without the blanks at its two ends. -/
def trim (text : String) : String :=
  String.ofList (((text.toList.dropWhile isBlank).reverse.dropWhile isBlank).reverse)

/-- A text without any blank. -/
def squeeze (text : String) : String :=
  String.ofList (text.toList.filter fun c => !isBlank c)

end FeatureSql
