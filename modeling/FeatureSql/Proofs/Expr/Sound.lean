import FeatureSql.Proofs.Expr.Shape

/-! Only well-formed expressions are read. -/

set_option autoImplicit false

namespace FeatureSql.Sql

open Reader (Yields)

theorem functionName_yields : Yields IsFunctionName functionName := by
  intro text function left h
  rw [functionName, lexeme, Reader.after] at h
  generalize text.dropWhile isGap = text at h
  rw [Reader.bind_apply, Option.bind_eq_some_iff] at h
  obtain ⟨⟨_, rest⟩, hfree, h⟩ := h
  by_cases hr : isReserved (text.takeWhile isWordChar) = true
  · rw [notReserved, if_pos hr] at hfree
    cases hfree
  rw [notReserved, if_neg hr, Option.some.injEq, Prod.mk.injEq] at hfree
  obtain ⟨-, rfl⟩ := hfree
  cases text with
  | nil => exact absurd h (by simp [Reader.bind_apply, Reader.satisfy])
  | cons c cs =>
    by_cases hc : isWordStart c = true
    · have hw := isWordChar_of_isWordStart hc
      simp only [Reader.bind_apply, Reader.satisfy, hc, if_true, Option.bind_some, Reader.run,
        Reader.pure_apply, Option.some.injEq, Prod.mk.injEq] at h
      rw [← h.1]
      refine ⟨⟨c, cs.takeWhile isWordChar, String.toList_ofList, hc, ?_⟩, ?_⟩
      · exact List.all_eq_true.mp List.all_takeWhile
      · rw [List.takeWhile_cons, if_pos hw] at hr
        simpa using hr
    · exact absurd h (by simp [Reader.bind_apply, Reader.satisfy, hc])

theorem signOf_yields (signs : List String) : Yields (· ∈ signs) (signOf signs) := by
  induction signs with
  | nil => exact Yields.failure
  | cons sign signs ih =>
    apply Yields.orElse (Yields.andThen fun _ => Yields.of_pure List.mem_cons_self)
    exact ih.weaken fun s hs => List.mem_cons_of_mem sign hs

theorem sign_yields (signs : List String) : Yields (· ∈ signs) (sign signs) :=
  Yields.after (signOf_yields signs)

namespace Expr

section Layer
variable {inner : Reader Expr} (hi : Yields WellFormed inner)
include hi

theorem argument_yields : Yields (WellFormedAt .argument) (argument inner) := by
  refine Yields.orElse ?_ (Yields.orElse ?_ ?_)
  · exact Yields.andThen fun _ => Yields.of_pure .star
  · refine Yields.andThen fun label => Yields.andThen fun _ => hi.bind fun value hv => ?_
    exact Yields.of_pure (.named label hv)
  · exact hi.weaken fun e he => .positional he

theorem callReader_yields : Yields WellFormed (callReader inner) := by
  have harguments : Yields (fun as => ∀ a ∈ as, WellFormedAt .argument a) (arguments inner) := by
    refine Yields.orElse ?_ (Yields.of_pure (by simp))
    exact (argument_yields hi).separated.weaken fun as has => has.2
  refine functionName_yields.bind fun function hf => Yields.andThen fun _ => ?_
  refine harguments.bind fun as has => Yields.andThen fun _ => ?_
  exact Yields.of_pure (.call hf has)

theorem primary_yields : Yields WellFormed (primary inner) := by
  refine Yields.orElse (callReader_yields hi) (Yields.orElse ?_ (Yields.orElse ?_
    (Yields.orElse ?_ ?_)))
  · refine Yields.andThen fun _ => hi.bind fun e he => Yields.andThen fun _ => ?_
    exact Yields.of_pure he
  · exact Yields.map (numberLiteral_yields.weaken fun value hv => .number hv)
  · exact Yields.map fun _ value _ _ => .text value
  · refine Yields.orElse ?_ (Yields.orElse ?_ ?_)
    · exact Yields.map fun _ value _ _ => .name value
    · exact Yields.map fun _ value _ _ => .name value
    · exact Yields.map fun _ value _ _ => .name _

theorem additive_yields : Yields WellFormed (additive inner) := by
  have hmultiplicative : Yields WellFormed (multiplicative inner) :=
    (primary_yields hi).chain (sign_yields multiplicativeSigns) fun operator left right hop hl hr =>
      .comparison (List.mem_append_right _ hop) hl hr
  exact hmultiplicative.chain (sign_yields additiveSigns) fun operator left right hop hl hr =>
    .comparison (List.mem_append_left _ (List.mem_append_right _ hop)) hl hr

/-- What an operator that compares may have on its right. -/
def IsTail (tail : Tail) : Prop :=
  (tail.1 ∈ binaryOperators ∧ WellFormed tail.2) ∨
    (tail.1 ∈ listOperators ∧ WellFormedAt .listed tail.2)

theorem tail_yields : Yields IsTail (tail inner) := by
  have hnot : Yields (fun ws => ws = [] ∨ ws = ["NOT"]) optionalNot :=
    Yields.orElse (Yields.andThen fun _ => Yields.of_pure (Or.inr rfl)) (Yields.of_pure (Or.inl rfl))
  have hlike : Yields (fun w => w = "LIKE" ∨ w = "ILIKE") likeWord :=
    Yields.orElse (Yields.andThen fun _ => Yields.of_pure (Or.inl rfl))
      (Yields.andThen fun _ => Yields.of_pure (Or.inr rfl))
  have hadd := additive_yields hi
  refine Yields.orElse ?_ (Yields.orElse ?_ (Yields.orElse ?_ ?_))
  · refine Yields.andThen fun _ => hnot.bind fun ws hws => hadd.bind fun right hr => ?_
    have hop : " ".intercalate ("IS" :: ws) ∈ binaryOperators := by
      rcases hws with rfl | rfl <;> decide +kernel
    exact Yields.of_pure (Or.inl ⟨hop, hr⟩)
  · refine hnot.bind fun ws hws => Yields.andThen fun _ => Yields.andThen fun _ => ?_
    have hop : " ".intercalate (ws ++ ["IN"]) ∈ listOperators := by
      rcases hws with rfl | rfl <;> decide +kernel
    refine hi.separated.bind fun items hitems => Yields.andThen fun _ => ?_
    exact Yields.of_pure (Or.inr ⟨hop, .list hitems.1 hitems.2⟩)
  · refine hnot.bind fun ws hws => hlike.bind fun w hw => hadd.bind fun right hr => ?_
    have hop : " ".intercalate (ws ++ [w]) ∈ binaryOperators := by
      rcases hws with rfl | rfl <;> rcases hw with rfl | rfl <;> decide +kernel
    exact Yields.of_pure (Or.inl ⟨hop, hr⟩)
  · refine (sign_yields comparisonSigns).bind fun operator hop => hadd.bind fun right hr => ?_
    exact Yields.of_pure (Or.inl ⟨by simp [binaryOperators, hop], hr⟩)

theorem comparisonReader_yields : Yields WellFormed (comparisonReader inner) := by
  refine (additive_yields hi).bind fun left hl => (tail_yields hi).maybe.bind fun tail ht => ?_
  cases tail with
  | none => exact Yields.of_pure hl
  | some tail =>
    rcases ht tail rfl with ⟨hop, hr⟩ | ⟨hop, hr⟩
    · exact Yields.of_pure (.comparison hop hl hr)
    · exact Yields.of_pure (.membership hop hl hr)

theorem disjunction_yields : Yields WellFormed (disjunction inner) := by
  have hnegation : Yields WellFormed (negation inner) := by
    refine Yields.andThen fun nots => (comparisonReader_yields hi).bind fun e he => ?_
    apply Yields.of_pure
    induction nots with
    | nil => exact he
    | cons _ nots ih => exact .not ih
  have hconjunction : Yields WellFormed (conjunction inner) :=
    hnegation.chain (Yields.trivially (keyword "and")) fun _ left right _ hl hr => .logical .and hl hr
  exact hconjunction.chain (Yields.trivially (keyword "or")) fun _ left right _ hl hr =>
    .logical .or hl hr

end Layer

theorem readerAt_yields (depth : Nat) : Yields WellFormed (readerAt depth) := by
  induction depth with
  | zero =>
    intro _ _ _ h
    exact absurd h (by simp [readerAt])
  | succ depth ih => exact disjunction_yields ih

theorem reader_yields : Yields WellFormed reader :=
  fun text => readerAt_yields (text.length + 1) text

theorem listReader_yields : Yields (fun es => es ≠ [] ∧ ∀ e ∈ es, WellFormed e) listReader :=
  reader_yields.separated

end Expr
end FeatureSql.Sql
