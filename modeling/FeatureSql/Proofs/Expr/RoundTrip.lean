import FeatureSql.Proofs.Expr.Label
import FeatureSql.Sql.Query.Parse

/-! Well-formed expressions read back from their text, with chains of one logical operator
grouped from the left, and with arguments by name where they open with a label. -/

set_option autoImplicit false

namespace FeatureSql.Sql

open Reader (bind_of_some bind_of_none orElse_of_none orElse_of_some)

/-- What reads back in front of all that may follow reads back as a whole text. -/
theorem parseWhole_of_readsAs {α : Type} {reader : Reader α} {follows : List Char → Prop}
    {sql : String} {a : α} (h : ReadsAs reader follows sql a) (hnil : follows []) :
    parseWhole reader sql = .ok a := by
  have hread := h [] [] Gap.nil hnil
  rw [List.nil_append, List.append_nil] at hread
  have hend : lexeme Reader.atEnd [] = some ((), []) := rfl
  rw [parseWhole, Reader.value?, bind_of_some hread, bind_of_some hend]
  rfl

/-- A whole text stands for what the reader yields. -/
theorem forall_of_parseWhole {α : Type} {P : α → Prop} {reader : Reader α}
    (h : Reader.Yields P reader) {sql : String} {a : α} (hread : parseWhole reader sql = .ok a) :
    P a := by
  unfold parseWhole at hread
  split at hread
  · next b hvalue =>
    obtain ⟨⟨_, left⟩, hreads, rfl⟩ := Option.map_eq_some_iff.mp hvalue
    obtain rfl := Except.ok.inj hread
    have hwhole : Reader.Yields P (do let a ← reader; lexeme Reader.atEnd; pure a) :=
      h.bind fun a ha => Reader.Yields.andThen fun _ => Reader.Yields.of_pure ha
    exact hwhole _ _ _ hreads
  · cases hread

namespace Expr

section Arguments
variable {inner : Reader Expr} {gap text : List Char}

theorem argument_star (hg : Gap gap) : argument inner (gap ++ '*' :: text) = some (.star, text) := by
  have hstar : symbol "*" (gap ++ '*' :: text) = some ((), text) := symbol_gap hg "*" _
  rw [argument_eq]
  exact orElse_of_some (bind_of_some hstar)

/-- A star is an argument before it could be anything else, and nothing else starts with one. -/
theorem symbol_star_of_disjunction {p : Expr × List Char} (h : disjunction inner text = some p) :
    symbol "*" text = none := by
  have hgap : Gap (text.takeWhile isGap) := List.all_eq_true.mp List.all_takeWhile
  have hsplit : text.takeWhile isGap ++ text.dropWhile isGap = text :=
    List.takeWhile_append_dropWhile
  rw [← hsplit, symbol_gap hgap]
  cases hd : text.dropWhile isGap with
  | nil => rfl
  | cons c cs =>
    by_cases hc : c = '*'
    · subst hc
      have hnone : disjunction inner text = none := by
        rw [← hsplit, hd]
        apply disjunction_of_none
        · rw [primary_gap hgap]
          exact primary_of_foreign (by decide) cs
        · exact keyword_gap hgap "not" _
      rw [hnone] at h
      cases h
    · have hg : isGap c = false := by
        have := List.head?_dropWhile_not isGap text
        rw [hd] at this
        simpa using this
      exact symbol_of_ne rfl hg hc

theorem chars_named (label : String) (value : Expr) : (Expr.named label value).chars =
    (Quoted.write '\x27' label).toList ++ '=' :: value.chars := by
  rw [chars, render]
  simp [chars, Dialect.standard]

end Arguments

/-- What stands behind the label of an expression reads back as its value. It may start with an
operand in parentheses that the value would not need. -/
def ValueReads (e : Expr) : Prop :=
  ∀ label value, splitLabel e.labelled = some (label, value) →
    ∀ depth, (valueChars e).length ≤ depth →
      LooseReading (readerAt depth) e.rank (valueChars e) value.leftGrouped

/-- How an expression reads back in its place. -/
def ReadsAt : Place → Expr → Prop
  | .operand, e => ReadsBack e ∧ ValueReads e
  | .argument, e => ∀ depth, e.chars.length < depth →
      ReadsAs (argument (readerAt depth)) EndsArgument (e.render .standard) e.rereadArgument
  | .listed, e => ∃ items, e = .list items ∧ items ≠ [] ∧ ∀ item ∈ items, ReadsBack item

section Values
variable {e left right : Expr}

theorem valueReads_of_none (h : splitLabel e.labelled = none) : ValueReads e := by
  intro label value hsplit
  rw [h] at hsplit
  cases hsplit

theorem ReadsBack.valueReads {operator : String} (hr : ReadsBack right) :
    ValueReads (.comparison operator left right) := by
  intro label value hsplit depth hd
  rw [labelled, splitLabel] at hsplit
  split at hsplit
  case isTrue hop =>
    obtain ⟨label, _, hsplit⟩ := Option.map_eq_some_iff.mp hsplit
    cases hsplit
    have hrank : operatorRank operator = 4 := hop ▸ (rank_sign "=" (by decide)).1
    have hread : Reading (readerAt depth) 5 (valueChars (.comparison operator left right))
        right.reread := hr.operand (needsParensRight_iff 4 right) (by decide) hd
    rw [rank, hrank]
    exact .of_whole_succ hread.whole True.intro (by decide)
  case isFalse => cases hsplit

theorem ValueReads.logical (operator : Logical) (hl : ValueReads left) (hr : ReadsBack right) :
    ValueReads (.logical operator left right) := by
  intro label value hsplit depth hd
  rw [labelled, splitLabel] at hsplit
  split at hsplit
  case isTrue => cases hsplit
  case isFalse hparens =>
    obtain ⟨⟨label, value⟩, hleft, hsplit⟩ := Option.map_eq_some_iff.mp hsplit
    cases hsplit
    simp only [valueChars, List.length_append, List.length_cons] at hd
    have hrank : logicalRank operator ≤ left.rank := by
      rw [needsParens_labelled, needsParens_iff (logicalRank_ne operator)] at hparens
      omega
    have hread := (hl label value hleft depth (by omega)).le hrank (one_le_logicalRank operator)
    rw [rank_logical, valueChars, leftGrouped]
    exact hread.logical operator hr (by omega)

end Values

section Cases
variable {e : Expr}

theorem readsAt_star : ReadsAt .argument .star := by
  intro depth _ gap text hg _
  exact argument_star hg

theorem byLabel_of_value {inner : Reader Expr} {label : String} {value : Expr}
    {front rest text : List Char}
    (hlabel : argumentLabel (front ++ '=' :: (rest ++ text)) = some (label, '=' :: (rest ++ text)))
    (hread : inner (rest ++ text) = some (value, text)) :
    byLabel inner ((front ++ '=' :: rest) ++ text) = some (.named label value, text) := by
  have hequals : symbol "=" ('=' :: (rest ++ text)) = some ((), rest ++ text) := rfl
  rw [List.append_assoc, List.cons_append, byLabel, bind_of_some hlabel, bind_of_some hequals]
  exact bind_of_some hread

theorem readsAt_named (label : String) (h : ReadsBack e) : ReadsAt .argument (.named label e) := by
  intro depth hd gap text hg ht
  have hchars := chars_named label e
  have hlt : e.chars.length < depth := by
    change (Expr.named label e).chars.length < depth at hd
    rw [hchars, List.length_append, List.length_cons] at hd
    omega
  have hread := h.inside hlt [] text Gap.nil ht.closes
  have hlabel : argumentLabel ((Quoted.write '\x27' label).toList ++ '=' :: (e.chars ++ text)) =
      some (label, '=' :: (e.chars ++ text)) :=
    orElse_of_some (textLiteral_append label (Reader.breaks_cons.mpr rfl))
  have hby : byLabel (readerAt depth) ((Expr.named label e).chars ++ text) =
      some (.named label e.reread, text) := by
    rw [hchars]
    exact byLabel_of_value hlabel hread
  have hstar : symbol "*" ((Expr.named label e).chars ++ text) = none := by
    rw [hchars, toList_write]
    rfl
  rw [argument_eq]
  exact (orElse_of_none (bind_of_none ((symbol_gap hg "*" _).trans hstar))).trans
    (orElse_of_some ((byLabel_gap hg _).trans hby))

/-- By place, an argument is read by name just where a label can be split off. -/
theorem readsAt_positional (hwell : WellFormed e) (h : ReadsBack e) (hvalue : ValueReads e) :
    ReadsAt .argument e := by
  intro depth hd gap text hg ht
  have hread := h.inside hd gap text hg ht.closes
  have hstar : symbol "*" (gap ++ (e.chars ++ text)) = none := by
    cases depth with
    | zero => exact absurd hd (Nat.not_lt_zero _)
    | succ depth => exact symbol_star_of_disjunction hread
  have hfst := fst_splitLabel_labelled e
  rw [argument_eq, rereadArgument, byPlace]
  refine (orElse_of_none (bind_of_none hstar)).trans ?_
  cases hsplit : splitLabel e.labelled with
  | none =>
    rw [hsplit] at hfst
    have hby : byLabel (readerAt depth) (e.chars ++ text) = none := by
      refine byLabel_of_not_opensWithLabel (hwell.opening rfl) (fun hopens => ?_) ht
      have hsome := hwell.isSome_splitLabel rfl hopens
      rw [← Option.isSome_map (f := Prod.fst), ← hfst] at hsome
      cases hsome
    exact (orElse_of_none ((byLabel_gap hg _).trans hby)).trans hread
  | some split =>
    obtain ⟨label, value⟩ := split
    rw [hsplit] at hfst
    obtain ⟨⟨label', value'⟩, hown, hlabel'⟩ := Option.map_eq_some_iff.mp hfst.symm
    obtain rfl : label' = label := hlabel'
    obtain ⟨front, hchars, hlabel⟩ := chars_of_splitLabel hown
    cases depth with
    | zero => exact absurd hd (Nat.not_lt_zero _)
    | succ depth =>
      have hlen : (valueChars e).length ≤ depth := by
        rw [hchars, List.length_append, List.length_cons] at hd
        omega
      have hwhole := ((hvalue _ _ hsplit depth hlen).le (one_le_rank e) (Nat.le_refl 1)).whole
      have hby : byLabel (readerAt (depth + 1)) (e.chars ++ text) =
          some ((Expr.named label' value).leftGrouped, text) := by
        rw [hchars]
        exact byLabel_of_value (hlabel _) (hwhole [] text Gap.nil ht.closes)
      exact orElse_of_some ((byLabel_gap hg _).trans hby)

theorem disjunction_parenthesis (inner : Reader Expr) (text : List Char) :
    disjunction inner (')' :: text) = none :=
  disjunction_of_none (primary_of_foreign (by decide) text) rfl

theorem arguments_nil (depth : Nat) (text : List Char) :
    arguments (readerAt depth) (')' :: text) = some ([], ')' :: text) := by
  have hread : readerAt depth (')' :: text) = none := by
    cases depth with
    | zero => rfl
    | succ depth => exact disjunction_parenthesis _ text
  have hargument : argument (readerAt depth) (')' :: text) = none := by
    rw [argument_eq, orElse_of_none rfl, orElse_of_none rfl]
    exact hread
  exact orElse_of_none (Reader.separated_of_none hargument)

theorem ReadsBack.call {function : String} {as : List Expr} (hf : IsFunctionName function)
    (has : ∀ a ∈ as, ReadsAt .argument a) : ReadsBack (.call function as) := by
  intro depth hd
  have hchars : (Expr.call function as).chars =
      function.toList ++ '(' :: ((commas (as.map (render .standard))).toList ++ [')']) :=
    chars_call function as
  have hread : ∀ a ∈ as,
      ReadsAs (argument (readerAt depth)) EndsArgument (a.render .standard) a.rereadArgument := by
    intro a ha
    have hlen := length_le_commas (List.mem_map_of_mem (f := render .standard) ha)
    refine has a ha depth (Nat.lt_of_le_of_lt hlen ?_)
    rw [hchars] at hd
    simp only [List.length_append, List.length_cons] at hd
    omega
  have harguments : ∀ text, arguments (readerAt depth)
      ((commas (as.map (render .standard))).toList ++ ')' :: text) =
        some (as.map rereadArgument, ')' :: text) := by
    intro text
    by_cases hnil : as = []
    · subst hnil
      exact arguments_nil depth text
    · have hcomma : ∀ rest, EndsArgument (',' :: rest) := fun rest => ⟨',', rest, rfl, Or.inl rfl⟩
      have hclose : EndsArgument (')' :: text) := ⟨')', text, rfl, Or.inr rfl⟩
      have hsep := separated_commas hcomma hnil hread hclose rfl Gap.nil
      exact orElse_of_some hsep
  intro gap text hg _
  rw [hchars, reread_call]
  apply (primary_gap hg _).trans
  simp only [List.append_assoc, List.cons_append, List.nil_append]
  exact primary_call hf (harguments text)

end Cases

theorem WellFormedAt.readsAt {place : Place} {e : Expr} (h : WellFormedAt place e) :
    ReadsAt place e := by
  induction h with
  | name value =>
    refine ⟨fun _ _ gap text hg hc => ?_, valueReads_of_none rfl⟩
    exact (primary_gap hg _).trans (primary_name value hc.boundary)
  | text value =>
    refine ⟨fun _ _ gap text hg hc => ?_, valueReads_of_none rfl⟩
    exact (primary_gap hg _).trans (primary_text value hc.boundary)
  | number hv =>
    refine ⟨fun _ _ gap text hg hc => ?_, valueReads_of_none rfl⟩
    exact (primary_gap hg _).trans (primary_number hv hc.boundary)
  | call hf _ ih => exact ⟨ReadsBack.call hf ih, valueReads_of_none rfl⟩
  | not _ ih => exact ⟨ReadsBack.not ih.1, valueReads_of_none rfl⟩
  | logical operator _ _ ihl ihr =>
    exact ⟨ReadsBack.logical operator ihl.1 ihr.1, ValueReads.logical operator ihl.2 ihr.1⟩
  | comparison hop _ _ ihl ihr =>
    refine ⟨?_, ihr.1.valueReads⟩
    rcases binaryOperators_cases hop with hop | hop | hop | hop
    · exact ReadsBack.comparisonWord hop ihl.1 ihr.1
    · exact ReadsBack.comparisonSign hop ihl.1 ihr.1
    · exact ReadsBack.sum hop ihl.1 ihr.1
    · exact ReadsBack.product hop ihl.1 ihr.1
  | @membership operator _ _ hop _ _ ihl ihr =>
    obtain ⟨items, rfl, hne, hitems⟩ := ihr
    have hequals : operator ≠ "=" := by
      rintro rfl
      exact absurd hop (by decide)
    refine ⟨ReadsBack.membership hop ihl.1 hne hitems, valueReads_of_none ?_⟩
    rw [Expr.labelled, splitLabel, if_neg hequals]
  | list hne _ ih => exact ⟨_, rfl, hne, fun e he => (ih e he).1⟩
  | star => exact readsAt_star
  | named label _ ih => exact readsAt_named label ih.1
  | positional h ih => exact readsAt_positional h ih.1 ih.2

theorem WellFormed.readsBack {e : Expr} (h : WellFormed e) : ReadsBack e :=
  (WellFormedAt.readsAt h).1

/-- An expression reads back in front of whatever closes it, after any gap. -/
theorem WellFormed.readsAs_reread {e : Expr} (h : WellFormed e) :
    ReadsAs reader (Closes 1) (e.render .standard) e.reread := by
  intro gap text hg ht
  have hlt : e.chars.length < (gap ++ (e.chars ++ text)).length + 1 := by
    simp
    omega
  exact h.readsBack.inside hlt gap text hg ht

theorem WellFormed.readsAs {e : Expr} (h : WellFormed e) (hfree : LabelFree e) :
    ReadsAs reader (Closes 1) (e.render .standard) e.leftGrouped :=
  reread_of_labelFree hfree ▸ h.readsAs_reread

theorem parse_render_leftGrouped {e : Expr} (h : WellFormed e) (hfree : LabelFree e) :
    parse (e.render .standard) = .ok e.leftGrouped :=
  parseWhole_of_readsAs (h.readsAs hfree) closes_nil

/-- Chains, a negated group, a name in quotes, a list, and arguments of every kind. -/
theorem parse_render_nested : parse (render .standard
    (.logical .and (.not (.logical .or (.name "my col") (.name "b")))
      (.logical .and (.comparison "NOT IN" (.name "c") (.list [.text "it's", .number "-1.5e3"]))
        (.call "f" [.star, .named "srid" (.name "NULL"), .comparison "||" (.name "x") (.text "=")])))) =
    .ok (.logical .and
      (.logical .and (.not (.logical .or (.name "my col") (.name "b")))
        (.comparison "NOT IN" (.name "c") (.list [.text "it's", .number "-1.5e3"])))
      (.call "f" [.star, .named "srid" (.name "NULL"), .comparison "||" (.name "x") (.text "=")])) := by
  have hnumber : IsNumber "-1.5e3" :=
    numberLiteral_yields "-1.5e3".toList "-1.5e3" [] rfl
  have hlist : WellFormedAt .listed (.list [.text "it's", .number "-1.5e3"]) := by
    refine .list (by decide) ?_
    simp only [List.forall_mem_cons]
    exact ⟨.text _, .number hnumber, by simp⟩
  have hcall : WellFormed (.call "f" [.star, .named "srid" (.name "NULL"),
      .comparison "||" (.name "x") (.text "=")]) := by
    refine .call ⟨⟨'f', [], rfl, rfl, by simp⟩, by decide⟩ ?_
    simp only [List.forall_mem_cons]
    exact ⟨.star, .named "srid" (.name _),
      .positional (.comparison (by decide) (.name _) (.text _)), by simp⟩
  refine parse_render_leftGrouped (.logical .and (.not (.logical .or (.name _) (.name _)))
    (.logical .and (.membership (by decide) (.name _) hlist) hcall)) ?_
  simp only [LabelFree, LabelFreeAll, LabelFreeArguments, true_and, and_true]
  exact ⟨fun _ => by decide +kernel, by simp [isNamed], fun _ => by decide +kernel⟩

end Expr
end FeatureSql.Sql
