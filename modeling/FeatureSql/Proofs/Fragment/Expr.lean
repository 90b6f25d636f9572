import FeatureSql.Proofs.Fragment.Lexeme
import FeatureSql.Sql.Query.Reader

/-! Expressions, and the lists of select items, expressions and orders that are made of them, are
read as fragments of a statement the way they are read on their own. -/

set_option autoImplicit false

namespace FeatureSql.Sql

theorem isSign_mark : ∀ mark ∈ ["*", "=", "(", ")", ","] ++ (comparisonSigns ++ (additiveSigns ++
    multiplicativeSigns)), IsSign mark := by
  have hmarks : ∀ mark ∈ ["*", "=", "(", ")", ","] ++ (comparisonSigns ++ (additiveSigns ++
      multiplicativeSigns)), mark.toList.all isInk = true ∧
        mark.toList.head?.any (fun c => !isWordStart c) = true := by decide +kernel
  intro mark hmark
  obtain ⟨hink, hstart⟩ := hmarks mark hmark
  obtain ⟨c, hhead, hc⟩ := (Option.any_eq_true _ _).mp hstart
  exact ⟨List.all_eq_true.mp hink, c, hhead, Bool.not_eq_true' _ ▸ hc⟩

section Marks
variable {n : Nat}

theorem local_comma : Local n comma comma := local_symbol (isSign_mark "," (by simp))

theorem advances_comma : Advances comma := advances_symbol (isSign_mark "," (by simp))

end Marks

namespace Expr

section Layer
variable {n : Nat} {inner outer : Reader Expr}

theorem local_nameReader : Local n nameReader nameReader :=
  (local_quotedName.map _).orElse ((local_backtickName.map _).orElse (local_bareName.map _))

theorem local_optionalNot : Local n optionalNot optionalNot :=
  ((local_keyword (by decide)).bind fun _ => .pure ["NOT"]).orElse (.pure [])

theorem local_likeWord : Local n likeWord likeWord :=
  ((local_keyword (by decide)).bind fun _ => .pure "LIKE").orElse
    ((local_keyword (by decide)).bind fun _ => .pure "ILIKE")

variable (hi : Local n inner outer)
include hi

theorem local_argument : Local n (argument inner) (argument outer) := by
  have hstar : Local n (symbol "*") (symbol "*") := local_symbol (isSign_mark "*" (by simp))
  have hequals : Local n (symbol "=") (symbol "=") := local_symbol (isSign_mark "=" (by simp))
  have hlabel : Local n argumentLabel argumentLabel := local_textLiteral.orElse local_bareName
  refine (hstar.bind fun _ => .pure _).orElse (.orElse ?_ hi)
  exact hlabel.bind fun label => hequals.bind fun _ => hi.bind fun value => .pure _

theorem local_arguments : Local n (arguments inner) (arguments outer) :=
  (Local.separated local_comma advances_comma (local_argument hi)).orElse (.pure [])

/-- What stands in parentheses is shorter. -/
theorem local_primary : Local (n + 1) (primary inner) (primary outer) := by
  have hopen : ∀ {m}, Local m (symbol "(") (symbol "(") := local_symbol (isSign_mark "(" (by simp))
  have hclose : ∀ {m}, Local m (symbol ")") (symbol ")") := local_symbol (isSign_mark ")" (by simp))
  have hcall : Local (n + 1) (callReader inner) (callReader outer) :=
    local_functionName.step advances_functionName fun function => hopen.bind fun _ =>
      (local_arguments hi).bind fun as => hclose.bind fun _ => .pure _
  have hparenthesized : Local (n + 1) (parenthesized inner) (parenthesized outer) :=
    hopen.step (advances_symbol (isSign_mark "(" (by simp))) fun _ => hi.bind fun e =>
      hclose.bind fun _ => .pure e
  exact hcall.orElse (hparenthesized.orElse ((local_numberLiteral.map _).orElse
    ((local_textLiteral.map _).orElse local_nameReader)))

theorem local_additive : Local (n + 1) (additive inner) (additive outer) := by
  have hadditive : ∀ sign ∈ additiveSigns, IsSign sign := fun sign hsign =>
    isSign_mark sign (by simp [hsign])
  have hmultiplicative : ∀ sign ∈ multiplicativeSigns, IsSign sign := fun sign hsign =>
    isSign_mark sign (by simp [hsign])
  exact Local.chain (local_sign hadditive) (advances_sign hadditive) _
    (Local.chain (local_sign hmultiplicative) (advances_sign hmultiplicative) _ (local_primary hi))

theorem local_tail : Local (n + 1) (tail inner) (tail outer) := by
  have hadditive := local_additive hi
  have hcomparison : ∀ sign ∈ comparisonSigns, IsSign sign := fun sign hsign =>
    isSign_mark sign (by simp [hsign])
  have hopen : ∀ {m}, Local m (symbol "(") (symbol "(") := local_symbol (isSign_mark "(" (by simp))
  have hclose : ∀ {m}, Local m (symbol ")") (symbol ")") := local_symbol (isSign_mark ")" (by simp))
  have his : Local (n + 1) (isTail inner) (isTail outer) :=
    (local_keyword (by decide)).bind fun _ => local_optionalNot.bind fun negation =>
      hadditive.bind fun right => .pure _
  have hin : Local (n + 1) (inTail inner) (inTail outer) :=
    local_optionalNot.bind fun negation => (local_keyword (by decide)).bind fun _ =>
      hopen.step (advances_symbol (isSign_mark "(" (by simp))) fun _ =>
        (Local.separated local_comma advances_comma hi).bind fun items => hclose.bind fun _ => .pure _
  have hlike : Local (n + 1) (likeTail inner) (likeTail outer) :=
    local_optionalNot.bind fun negation => local_likeWord.bind fun word =>
      hadditive.bind fun right => .pure _
  have hsign : Local (n + 1) (signTail inner) (signTail outer) :=
    (local_sign hcomparison).bind fun operator => hadditive.bind fun right => .pure _
  exact his.orElse (hin.orElse (hlike.orElse hsign))

theorem local_comparison : Local (n + 1) (comparisonReader inner) (comparisonReader outer) :=
  (local_additive hi).bind fun left => (local_tail hi).maybe.bind fun tail => by
    cases tail with
    | none => exact .pure left
    | some tail => exact .pure _

theorem local_disjunction : Local (n + 1) (disjunction inner) (disjunction outer) := by
  have hnot : Local (n + 1) (keyword "not") (keyword "not") := local_keyword (by decide)
  have hnegation : Local (n + 1) (negation inner) (negation outer) :=
    (hnot.many (advances_keyword (by decide))).bind fun nots =>
      (local_comparison hi).bind fun e => .pure _
  have hconjunction : Local (n + 1) (conjunction inner) (conjunction outer) :=
    Local.chain (local_keyword (by decide)) (advances_keyword (by decide)) _ hnegation
  exact Local.chain (local_keyword (by decide)) (advances_keyword (by decide)) _ hconjunction

end Layer

/-- A greater depth makes no difference for a text that is shorter than the lesser one. -/
theorem local_readerAt {depth deeper : Nat} (h : depth ≤ deeper) :
    Local depth (readerAt depth) (readerAt deeper) := by
  induction depth generalizing deeper with
  | zero =>
    exact ⟨fun _ _ _ _ hread => (by cases hread), fun htext => absurd htext (Nat.not_lt_zero _)⟩
  | succ depth ih =>
    cases deeper with
    | zero => exact absurd h (Nat.not_succ_le_zero depth)
    | succ deeper => exact local_disjunction (ih (Nat.le_of_succ_le_succ h))

theorem local_reader {n : Nat} : Local n reader reader where
  shuts := fun text _ _ htext hread => (local_readerAt (Nat.le_refl _)).shuts htext hread
  agrees := by
    intro text _ hshut rest hrest gap hgap
    have hdepth : text.length + 1 ≤ (gap ++ (text ++ rest)).length + 1 := by
      simp only [List.length_append]
      omega
    exact (local_readerAt hdepth).agrees (Nat.lt_succ_self _) hshut hrest hgap

theorem local_listReader {n : Nat} : Local n listReader listReader :=
  Local.separated local_comma advances_comma local_reader

end Expr

section Lists
variable {n : Nat}

theorem SelectItem.local_listReader : Local n SelectItem.listReader SelectItem.listReader := by
  have hstar : Local n (symbol "*") (symbol "*") := local_symbol (isSign_mark "*" (by simp))
  have houtput : Local n outputReader outputReader :=
    ((local_keyword (by decide)).bind fun _ => local_name.orElse local_textLiteral).orElse local_name
  have hitem : Local n SelectItem.reader SelectItem.reader :=
    (hstar.bind fun _ => .pure _).orElse
      (Expr.local_reader.bind fun e => houtput.maybe.bind fun output => .pure (ofExpr e output))
  have hdistinct : Local n distinctReader distinctReader :=
    (local_keyword (by decide)).bind fun _ =>
      (Local.separated local_comma advances_comma local_name).bind fun columns => .pure _
  exact hdistinct.orElse (Local.separated local_comma advances_comma hitem)

theorem OrderBy.local_listReader : Local n OrderBy.listReader OrderBy.listReader := by
  have hasc : Local n (keyword "asc") (keyword "asc") := local_keyword (by decide)
  have hdesc : Local n (keyword "desc") (keyword "desc") := local_keyword (by decide)
  have hdirection : Local n Direction.reader Direction.reader :=
    (hasc.bind fun _ => .pure _).orElse (hdesc.bind fun _ => .pure _)
  exact Local.separated local_comma advances_comma
    (Expr.local_reader.bind fun e => hdirection.maybe.bind fun direction => .pure _)

end Lists
end FeatureSql.Sql
