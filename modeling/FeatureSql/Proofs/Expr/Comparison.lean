import FeatureSql.Proofs.Expr.Levels

/-! Operators that compare, read back with their right operand. -/

set_option autoImplicit false

namespace FeatureSql.Sql.Expr

open Reader (bind_of_some bind_of_none orElse_of_none orElse_of_some)

section Tails
variable {inner : Reader Expr} {operator : String} {rest text : List Char} {right : Expr}

theorem exactly_cons (c m : Char) (ms rest : List Char) :
    Reader.exactly (m :: ms) (c :: rest) = if c = m then Reader.exactly ms rest else none := by
  by_cases h : c = m
  · subst h
    rw [if_pos rfl, Reader.exactly, bind_of_some (Numeral.char_self c rest)]
  · rw [if_neg h, exactly_of_ne h]

/-- A comparing sign is read as far as it goes: the operand behind it starts with no other mark. -/
theorem sign_append {c : Char} (hop : operator ∈ comparisonSigns) (hc : c ∉ foreignMarks) :
    sign comparisonSigns (operator.toList ++ c :: rest) = some (operator, c :: rest) := by
  simp only [foreignMarks, List.mem_cons, List.not_mem_nil, or_false, not_or] at hc
  obtain ⟨_, hstar, heq, hgt, _⟩ := hc
  have hend : ∀ text, Reader.exactly [] text = some ((), text) := fun _ => rfl
  simp only [comparisonSigns, List.mem_cons, List.not_mem_nil, or_false] at hop
  rcases hop with rfl | rfl | rfl | rfl | rfl | rfl | rfl | rfl | rfl | rfl | rfl <;>
    simp [sign, lexeme, Reader.after, isGap, signOf, comparisonSigns, exactly_cons, hend,
      Reader.map_apply, Reader.orElse_apply, hstar, heq, hgt]

theorem tail_sign (hop : operator ∈ comparisonSigns)
    (hr : additive inner rest = some (right, text)) :
    tail inner (operator.toList ++ rest) = some ((operator, right), text) := by
  have hsign : sign comparisonSigns (operator.toList ++ rest) = some (operator, rest) := by
    cases rest with
    | nil => exact absurd hr (by rw [additive_of_none rfl]; simp)
    | cons c rest =>
      apply sign_append hop
      intro hc
      rw [additive_of_none (primary_of_foreign hc rest)] at hr
      cases hr
  have hword : isTail inner (operator.toList ++ rest) = none ∧
      inTail inner (operator.toList ++ rest) = none ∧
      likeTail inner (operator.toList ++ rest) = none := by
    simp only [comparisonSigns, List.mem_cons, List.not_mem_nil, or_false] at hop
    rcases hop with rfl | rfl | rfl | rfl | rfl | rfl | rfl | rfl | rfl | rfl | rfl <;>
      exact ⟨rfl, rfl, rfl⟩
  rw [tail, orElse_of_none hword.1, orElse_of_none hword.2.1, orElse_of_none hword.2.2, signTail,
    bind_of_some hsign, bind_of_some hr]
  rfl

theorem optionalNot_of_additive {p : Expr × List Char} (h : additive inner text = some p) :
    optionalNot text = some ([], text) := orElse_of_none (bind_of_none (not_of_additive h))

theorem isTail_of_some (negation : List String) {start mid : List Char}
    (hop : " ".intercalate ("IS" :: negation) = operator) (his : keyword "is" start = some ((), mid))
    (hnot : optionalNot mid = some (negation, ' ' :: rest))
    (hr : additive inner (' ' :: rest) = some (right, text)) :
    isTail inner start = some ((operator, right), text) := by
  rw [isTail, bind_of_some his, bind_of_some hnot, bind_of_some hr, hop]
  rfl

theorem likeTail_of_some (negation : List String) (word : String) {start mid : List Char}
    (hop : " ".intercalate (negation ++ [word]) = operator)
    (hnot : optionalNot start = some (negation, mid))
    (hlike : likeWord mid = some (word, ' ' :: rest))
    (hr : additive inner (' ' :: rest) = some (right, text)) :
    likeTail inner start = some ((operator, right), text) := by
  rw [likeTail, bind_of_some hnot, bind_of_some hlike, bind_of_some hr, hop]
  rfl

theorem tail_word (hop : operator ∈ wordOperators)
    (hr : additive inner (' ' :: rest) = some (right, text)) :
    tail inner (' ' :: (operator.toList ++ ' ' :: rest)) = some ((operator, right), text) := by
  have hlike : ∀ {start : List Char} {p : Tail × List Char}, isTail inner start = none →
      inTail inner start = none → likeTail inner start = some p → tail inner start = some p :=
    fun his hin hlike => by rw [tail, orElse_of_none his, orElse_of_none hin, orElse_of_some hlike]
  simp only [wordOperators, List.mem_cons, List.not_mem_nil, or_false] at hop
  rcases hop with rfl | rfl | rfl | rfl | rfl | rfl
  · exact orElse_of_some (isTail_of_some [] rfl rfl (optionalNot_of_additive hr) hr)
  · exact orElse_of_some (isTail_of_some ["NOT"] rfl rfl rfl hr)
  · exact hlike rfl rfl (likeTail_of_some [] "LIKE" rfl rfl rfl hr)
  · exact hlike rfl rfl (likeTail_of_some ["NOT"] "LIKE" rfl rfl rfl hr)
  · exact hlike rfl rfl (likeTail_of_some [] "ILIKE" rfl rfl rfl hr)
  · exact hlike rfl rfl (likeTail_of_some ["NOT"] "ILIKE" rfl rfl rfl hr)

theorem inTail_of_some (negation : List String) {start mid body : List Char} {items : List Expr}
    (hop : " ".intercalate (negation ++ ["IN"]) = operator)
    (hnot : optionalNot start = some (negation, mid))
    (hin : keyword "in" mid = some ((), ' ' :: '(' :: body))
    (hitems : Reader.separated comma inner body = some (items, ')' :: text)) :
    inTail inner start = some ((operator, .list items), text) := by
  have hopen : symbol "(" (' ' :: '(' :: body) = some ((), body) := rfl
  rw [inTail, bind_of_some hnot, bind_of_some hin, bind_of_some hopen, bind_of_some hitems, hop]
  rfl

theorem tail_list {body : List Char} {items : List Expr} (hop : operator ∈ listOperators)
    (hitems : Reader.separated comma inner body = some (items, ')' :: text)) :
    tail inner (' ' :: (operator.toList ++ ' ' :: '(' :: body)) =
      some ((operator, .list items), text) := by
  have hin : ∀ {start : List Char} {p : Tail × List Char}, isTail inner start = none →
      inTail inner start = some p → tail inner start = some p :=
    fun his hin => by rw [tail, orElse_of_none his, orElse_of_some hin]
  simp only [listOperators, List.mem_cons, List.not_mem_nil, or_false] at hop
  rcases hop with rfl | rfl
  · exact hin rfl (inTail_of_some [] rfl rfl rfl hitems)
  · exact hin rfl (inTail_of_some ["NOT"] rfl rfl rfl hitems)

end Tails
end FeatureSql.Sql.Expr
