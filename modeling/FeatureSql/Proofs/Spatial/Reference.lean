import FeatureSql.Proofs.Numeral
import FeatureSql.Spatial.Reference

/-! The numbers of coordinate systems read back from their text. -/

set_option autoImplicit false

namespace FeatureSql

theorem int64?_toInt (n : Int64) : (Json.int n.toInt).int64? = some n := by
  unfold Json.int64? Json.int
  dsimp only
  rw [if_pos ⟨n.minValue_le_toInt, n.toInt_le⟩, Int64.ofInt_toInt]

theorem readInt64?_minus {digits : List Char} (h : Numeral.IsDigits digits) :
    readInt64? (String.ofList ('-' :: digits)) = (Json.int (-(natOfDigits digits : Int))).int64? := by
  have hall : digits.all Char.isDigit = true := List.all_eq_true.mpr h.2
  have hempty : digits.isEmpty = false := by simpa using h.1
  unfold readInt64?
  rw [String.toList_ofList]
  simp [hall, hempty]

theorem readInt64?_digits {digits : List Char} (h : Numeral.IsDigits digits) :
    readInt64? (String.ofList digits) = (Json.int (natOfDigits digits)).int64? := by
  have hall : digits.all Char.isDigit = true := List.all_eq_true.mpr h.2
  have hempty : digits.isEmpty = false := by simpa using h.1
  have hsign : ∀ c, c.isDigit = false → ∀ rest, digits ≠ c :: rest := by
    rintro c hc rest rfl
    rw [h.2 c List.mem_cons_self] at hc
    exact absurd hc (by decide)
  unfold readInt64?
  rw [String.toList_ofList]
  simp [hall, hempty, hsign '-' rfl, hsign '+' rfl]

theorem readInt64?_repr (n : Int64) : readInt64? n.toInt.repr = some n := by
  have hdigits := Numeral.isDigits_repr n.toInt.natAbs
  have hread : readInt64? (String.ofList (Numeral.ofInt n.toInt).chars) =
      (Json.int n.toInt).int64? := by
    unfold Numeral.ofInt Numeral.chars
    dsimp only
    rw [List.isEmpty_nil, if_pos rfl, List.append_nil, List.append_nil]
    by_cases hneg : n.toInt < 0
    · have hvalue : -(n.toInt.natAbs : Int) = n.toInt := by omega
      rw [decide_eq_true hneg, if_pos rfl, List.singleton_append, readInt64?_minus hdigits,
        Numeral.natOfDigits_repr, hvalue]
    · have hvalue : (n.toInt.natAbs : Int) = n.toInt := by omega
      rw [decide_eq_false hneg, if_neg (by decide), List.nil_append, readInt64?_digits hdigits,
        Numeral.natOfDigits_repr, hvalue]
  rw [Numeral.chars_ofInt, String.ofList_toList] at hread
  rw [hread, int64?_toInt]

end FeatureSql
