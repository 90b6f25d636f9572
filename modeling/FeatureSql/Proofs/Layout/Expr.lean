import FeatureSql.Proofs.Fragment.Expr
import FeatureSql.Proofs.Layout.Lexeme

/-! Expressions, and the lists that are made of them, are read alike from texts with the same
tokens. -/

set_option autoImplicit false

namespace FeatureSql.Sql

section Marks
variable {advances : Bool}

theorem blind_operator : ∀ mark ∈ ["*", "="] ++ (comparisonSigns ++ (additiveSigns ++
    multiplicativeSigns)), Blind advances (symbol mark) := by
  have hmarks : ∀ mark ∈ ["*", "="] ++ (comparisonSigns ++ (additiveSigns ++ multiplicativeSigns)),
      mark.toList.all TokenKind.word.goesOn = true ∨
        mark.toList.all TokenKind.sign.goesOn = true := by decide +kernel
  intro mark hmark
  have hsign : IsSign mark := isSign_mark mark (by
    simp only [List.mem_append, List.mem_cons, List.not_mem_nil, or_false] at hmark ⊢
    rcases hmark with (h | h) | h
    · exact Or.inl (Or.inl h)
    · exact Or.inl (Or.inr (Or.inl h))
    · exact Or.inr h)
  rcases hmarks mark hmark with hword | hsigns
  · exact blind_symbol (Or.inl rfl) hsign (List.all_eq_true.mp hword)
  · exact blind_symbol (Or.inr rfl) hsign (List.all_eq_true.mp hsigns)

theorem blind_star : Blind advances (symbol "*") := blind_operator "*" (by simp)

theorem blind_equals : Blind advances (symbol "=") := blind_operator "=" (by simp)

theorem blind_open : Blind advances (symbol "(") := blind_mark (c := '(') rfl rfl

theorem blind_close : Blind advances (symbol ")") := blind_mark (c := ')') rfl rfl

theorem blind_comma : Blind advances comma := blind_mark (c := ',') rfl rfl

end Marks

namespace Expr

section Words
variable {advances : Bool}

theorem blind_nameReader : Blind advances nameReader :=
  (blind_quotedName.map _).orElse ((blind_backtickName.map _).orElse (blind_bareName.map _))

theorem blind_optionalNot : Blind false optionalNot :=
  ((blind_keyword (by decide)).bind fun _ => .pure ["NOT"]).orElse (Blind.pure [])

theorem blind_likeWord : Blind advances likeWord :=
  ((blind_keyword (by decide)).bind fun _ => .pure "LIKE").orElse
    ((blind_keyword (by decide)).bind fun _ => .pure "ILIKE")

end Words

section Layer
variable {inner : Reader Expr} (hi : Blind false inner)
include hi

theorem blind_argument : Blind false (argument inner) := by
  have hlabel : Blind false argumentLabel := blind_textLiteral.orElse blind_bareName
  refine (blind_star.bind fun _ => .pure _).orElse (.orElse ?_ hi)
  exact hlabel.bind fun label => blind_equals.bind fun _ => hi.bind fun value => .pure _

theorem blind_arguments : Blind false (arguments inner) :=
  (Blind.separated blind_comma (blind_argument hi)).orElse (Blind.pure [])

theorem blind_primary : Blind false (primary inner) := by
  have hcall : Blind false (callReader inner) :=
    blind_functionName.bind fun function => blind_open.bind fun _ =>
      (blind_arguments hi).bind fun as => blind_close.bind fun _ => .pure _
  have hparenthesized : Blind false (parenthesized inner) :=
    blind_open.bind fun _ => hi.bind fun e => blind_close.bind fun _ => .pure e
  exact hcall.orElse (hparenthesized.orElse ((blind_numberLiteral.map _).orElse
    ((blind_textLiteral.map _).orElse blind_nameReader)))

theorem blind_additive : Blind false (additive inner) := by
  have hadditive : Blind true (sign additiveSigns) :=
    blind_sign fun mark hmark => blind_operator mark (by simp [hmark])
  have hmultiplicative : Blind true (sign multiplicativeSigns) :=
    blind_sign fun mark hmark => blind_operator mark (by simp [hmark])
  exact Blind.chain hadditive _ (Blind.chain hmultiplicative _ (blind_primary hi))

theorem blind_tail : Blind false (tail inner) := by
  have hadditive := blind_additive hi
  have hcomparison : Blind false (sign comparisonSigns) :=
    blind_sign fun mark hmark => blind_operator mark (by simp [hmark])
  have his : Blind false (isTail inner) :=
    (blind_keyword (by decide)).bind fun _ => blind_optionalNot.bind fun negation =>
      hadditive.bind fun right => .pure _
  have hin : Blind false (inTail inner) :=
    blind_optionalNot.bind fun negation => (blind_keyword (by decide)).bind fun _ =>
      blind_open.bind fun _ => (Blind.separated blind_comma hi).bind fun items =>
        blind_close.bind fun _ => .pure _
  have hlike : Blind false (likeTail inner) :=
    blind_optionalNot.bind fun negation => blind_likeWord.bind fun word =>
      hadditive.bind fun right => .pure _
  have hsign : Blind false (signTail inner) :=
    hcomparison.bind fun operator => hadditive.bind fun right => .pure _
  exact his.orElse (hin.orElse (hlike.orElse hsign))

theorem blind_comparison : Blind false (comparisonReader inner) :=
  (blind_additive hi).bind fun left => (blind_tail hi).maybe.bind fun tail => by
    cases tail with
    | none => exact .pure left
    | some tail => exact .pure _

theorem blind_disjunction : Blind false (disjunction inner) := by
  have hnegation : Blind false (negation inner) :=
    (Blind.many (blind_keyword (by decide))).bind fun nots =>
      (blind_comparison hi).bind fun e => .pure _
  have hconjunction : Blind false (conjunction inner) :=
    Blind.chain (blind_keyword (by decide)) _ hnegation
  exact Blind.chain (blind_keyword (by decide)) _ hconjunction

end Layer

theorem blind_readerAt (depth : Nat) : Blind false (readerAt depth) := by
  induction depth with
  | zero => exact fun _ _ _ => .refused
  | succ depth ih => exact blind_disjunction ih

/-- A text is read at any depth that is not less than its length. -/
theorem reader_eq_readerAt {s t : List Char} (h : Alike s t) {depth : Nat}
    (hdepth : s.length < depth) : reader s = readerAt depth s := by
  have hagrees := (local_readerAt hdepth).agrees (Nat.lt_succ_self _) h.shut .nil Gap.nil
  rw [List.nil_append, List.append_nil] at hagrees
  change readerAt (s.length + 1) s = readerAt depth s
  cases hread : readerAt (s.length + 1) s with
  | none =>
    rw [hread] at hagrees
    exact hagrees.symm
  | some read =>
    rw [hread] at hagrees
    obtain ⟨ahead, hsuffix, hdeeper⟩ := hagrees
    rw [List.suffix_nil.mp hsuffix, List.nil_append, List.append_nil] at hdeeper
    exact hdeeper.symm

/-- The longer of two texts sets the depth at which both are read. -/
theorem blind_reader : Blind false reader := by
  intro s t halike
  have hs := Nat.lt_succ_of_le (Nat.le_max_left s.length t.length)
  have ht := Nat.lt_succ_of_le (Nat.le_max_right s.length t.length)
  rw [reader_eq_readerAt halike hs, reader_eq_readerAt halike.symm ht]
  exact blind_readerAt _ halike

theorem blind_listReader : Blind false listReader := Blind.separated blind_comma blind_reader

end Expr

theorem SelectItem.blind_listReader : Blind false SelectItem.listReader := by
  have houtput : Blind false outputReader :=
    ((blind_keyword (by decide)).bind fun _ => blind_name.orElse blind_textLiteral).orElse
      blind_name
  have hitem : Blind false SelectItem.reader :=
    (blind_star.bind fun _ => .pure _).orElse
      (Expr.blind_reader.bind fun e => houtput.maybe.bind fun output => .pure (ofExpr e output))
  have hdistinct : Blind false distinctReader :=
    (blind_keyword (by decide)).bind fun _ =>
      (Blind.separated blind_comma blind_name).bind fun columns => .pure _
  exact hdistinct.orElse (Blind.separated blind_comma hitem)

theorem OrderBy.blind_listReader : Blind false OrderBy.listReader := by
  have hasc : Blind false (keyword "asc") := blind_keyword (by decide)
  have hdesc : Blind false (keyword "desc") := blind_keyword (by decide)
  have hdirection : Blind false Direction.reader :=
    (hasc.bind fun _ => .pure _).orElse (hdesc.bind fun _ => .pure _)
  exact Blind.separated blind_comma
    (Expr.blind_reader.bind fun e => hdirection.maybe.bind fun direction => .pure _)

end FeatureSql.Sql
