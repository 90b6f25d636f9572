import FeatureSql.Proofs.Query.Shape
import FeatureSql.Proofs.Name
import FeatureSql.Sql.Query.Parse

/-! No name between backticks is ever written: a backtick in a query's text is quoted. -/

set_option autoImplicit false

namespace FeatureSql.Sql

/-- No backtick of the text stands outside of quotes, and its quotes are closed. -/
def Clean (sql : String) : Prop :=
  ∀ rest, findBacktick (sql.toList ++ rest) = findBacktick rest

/-- Neither a backtick nor a quote. -/
def isPlain (c : Char) : Bool := c != backtick && c != '\x27' && c != '\x22'

namespace Clean

theorem append {first second : String} (hf : Clean first) (hs : Clean second) :
    Clean (first ++ second) := by
  intro rest
  rw [String.toList_append, List.append_assoc, hf, hs]

theorem of_plain {sql : String} (h : sql.toList.all isPlain = true) : Clean sql := by
  intro rest
  generalize sql.toList = cs at h
  induction cs with
  | nil => rfl
  | cons c cs ih =>
    rw [List.all_cons, Bool.and_eq_true] at h
    have hc := h.1
    simp only [isPlain, Bool.and_eq_true, bne_iff_ne, ne_eq] at hc
    rw [List.cons_append, findBacktick, if_neg (by simpa using hc.1.1),
      if_neg (by simpa using ⟨hc.1.2, hc.2⟩), ih h.2]

theorem empty : Clean "" := of_plain rfl

theorem of_forall {sql : String} {p : Char → Bool} (h : ∀ c ∈ sql.toList, p c = true)
    (hp : ∀ c, p c = true → isPlain c = true) : Clean sql :=
  of_plain (List.all_eq_true.mpr fun c hc => hp c (h c hc))

end Clean

/-- From a quote on, everything is passed over up to the quote that closes. -/
theorem findBacktick_quote {mark : Char} (hm : mark = '\x27' ∨ mark = '\x22') (text : List Char) :
    findBacktick (mark :: text) = findBacktick.skipTo mark text := by
  have hne : mark ≠ backtick := by rcases hm with rfl | rfl <;> decide
  have hquote : (mark == '\x27' || mark == '\x22') = true := by rcases hm with rfl | rfl <;> rfl
  rw [findBacktick, if_neg (by simpa using hne), if_pos hquote]

theorem skipTo_double {mark : Char} (hm : mark = '\x27' ∨ mark = '\x22') (cs rest : List Char) :
    findBacktick.skipTo mark (Quoted.double mark cs ++ mark :: rest) = findBacktick rest := by
  induction cs with
  | nil => simp [Quoted.double, findBacktick.skipTo]
  | cons c cs ih =>
    by_cases hc : c = mark
    · subst hc
      simp [Quoted.double, findBacktick.skipTo, findBacktick_quote hm, ih]
    · simp [Quoted.double, findBacktick.skipTo, hc, ih]

theorem clean_write {mark : Char} (hm : mark = '\x27' ∨ mark = '\x22') (value : String) :
    Clean (Quoted.write mark value) := by
  intro rest
  rw [toList_write, List.cons_append, findBacktick_quote hm, List.append_assoc]
  exact skipTo_double hm value.toList rest

theorem isPlain_of_isTableChar {c : Char} (h : isTableChar c = true) : isPlain c = true := by
  have hne : ∀ d : Char, isTableChar d = false → c ≠ d := by
    rintro d hd rfl
    rw [h] at hd
    exact absurd hd (by decide)
  simp [isPlain, hne backtick rfl, hne '\x27' rfl, hne '\x22' rfl]

theorem isTableChar_of_isNameChar {c : Char} (h : isNameChar c = true) : isTableChar c = true := by
  simp only [isNameChar, isTableChar, isDot, isDotOrDash, Bool.or_eq_true] at h ⊢
  rcases h with h | h
  · exact Or.inl h
  · exact Or.inr (Or.inl h)

theorem clean_writeName (value : String) : Clean (writeName value) := by
  rcases Expr.writeName_cases value with ⟨hbare, _, hwrite⟩ | hwrite
  · rw [hwrite]
    exact Clean.of_forall hbare.all fun c hc => isPlain_of_isTableChar (isTableChar_of_isNameChar hc)
  · rw [hwrite]
    exact clean_write (Or.inr rfl) value

theorem clean_writeTable (value : String) : Clean (writeTable value) := by
  unfold writeTable
  split
  case isTrue hbare =>
    exact Clean.of_forall (isBareTable_of_isBareTable hbare).all fun c => isPlain_of_isTableChar
  case isFalse => exact clean_write (Or.inr rfl) value

theorem isPlain_of_isDigit {c : Char} (h : c.isDigit = true) : isPlain c = true :=
  isPlain_of_isTableChar (isTableChar_of_isWordChar (isWordChar_of_isDigit h))

theorem clean_commas {parts : List String} (h : ∀ part ∈ parts, Clean part) : Clean (commas parts) := by
  unfold commas
  induction parts with
  | nil =>
    rw [String.intercalate_nil]
    exact Clean.empty
  | cons part parts ih =>
    have ih := ih fun p hp => h p (List.mem_cons_of_mem part hp)
    have hpart := h part List.mem_cons_self
    cases parts with
    | nil =>
      rw [String.intercalate_singleton]
      exact hpart
    | cons next parts =>
      rw [String.intercalate_cons_cons]
      exact (hpart.append (Clean.of_plain rfl)).append ih

theorem clean_number {value : String} (h : IsNumber value) : Clean value := by
  have hmarks : "+-.eE".toList.all isPlain = true := rfl
  apply Clean.of_forall (isNumeralChar_of_isNumber h)
  intro c hc
  rcases Numeral.isNumeralChar_cases hc with hdigit | hmark
  · exact isPlain_of_isDigit hdigit
  · exact List.all_eq_true.mp hmarks c hmark

theorem clean_function {function : String} (h : IsFunctionName function) : Clean function :=
  Clean.of_forall (Expr.isBare_of_isFunctionName h).1.all fun _ hc =>
    isPlain_of_isTableChar (isTableChar_of_isNameChar hc)

theorem clean_operator : ∀ operator ∈ binaryOperators ++ listOperators,
    operator.toList.all isPlain = true ∧ (operatorGap operator).toList.all isPlain = true := by
  decide +kernel

theorem clean_parenthesize {sql : String} (needed : Bool) (h : Clean sql) :
    Clean (parenthesize needed sql) := by
  unfold parenthesize
  split
  · exact ((Clean.of_plain rfl).append h).append (Clean.of_plain rfl)
  · exact h

theorem clean_comparison {operator : String} {left right : Expr}
    (hop : operator ∈ binaryOperators ++ listOperators) (hl : Clean (left.render .standard))
    (hr : Clean (right.render .standard)) :
    Clean ((Expr.comparison operator left right).render .standard) := by
  obtain ⟨hoperator, hgap⟩ := clean_operator operator hop
  have hgap := Clean.of_plain hgap
  rw [Expr.render]
  exact ((((clean_parenthesize _ hl).append hgap).append (Clean.of_plain hoperator)).append
    hgap).append (clean_parenthesize _ hr)

theorem clean_items {es : List Expr} (h : ∀ e ∈ es, Clean (e.render .standard)) :
    Clean (commas (Expr.renderAll .standard es)) := by
  rw [Expr.renderAll_eq_map]
  apply clean_commas
  intro part hpart
  obtain ⟨e, he, rfl⟩ := List.mem_map.mp hpart
  exact h e he

theorem clean_render {place : Expr.Place} {e : Expr} (h : Expr.WellFormedAt place e) :
    Clean (e.render .standard) := by
  have hmark : ∀ mark : String, mark.toList.all isPlain = true → Clean mark :=
    fun _ => Clean.of_plain
  induction h with
  | name value =>
    unfold Expr.render
    split
    case isTrue hvalue =>
      simp only [List.mem_cons, List.not_mem_nil, or_false] at hvalue
      rcases hvalue with rfl | rfl | rfl <;> exact Clean.of_plain rfl
    case isFalse => exact clean_writeName value
  | text value => exact clean_write (Or.inl rfl) value
  | number hv => exact clean_number hv
  | call hf _ ih =>
    exact (((clean_function hf).append (hmark "(" rfl)).append (clean_items ih)).append
      (hmark ")" rfl)
  | not _ ih => exact (hmark "NOT " rfl).append (clean_parenthesize _ ih)
  | logical operator _ _ ihl ihr =>
    have hword : Clean operator.word := by cases operator <;> exact Clean.of_plain rfl
    exact ((((clean_parenthesize _ ihl).append (hmark " " rfl)).append hword).append
      (hmark " " rfl)).append (clean_parenthesize _ ihr)
  | comparison hop _ _ ihl ihr => exact clean_comparison (List.mem_append_left _ hop) ihl ihr
  | membership hop _ _ ihl ihr => exact clean_comparison (List.mem_append_right _ hop) ihl ihr
  | list _ _ ih => exact ((hmark "(" rfl).append (clean_items ih)).append (hmark ")" rfl)
  | star => exact Clean.of_plain rfl
  | named label _ ih => exact ((clean_write (Or.inl rfl) label).append (hmark "=" rfl)).append ih
  | positional _ ih => exact ih

theorem clean_withOutput {sql : String} (h : Clean sql) (output : Option String) :
    Clean (SelectItem.withOutput sql output) := by
  cases output with
  | none => exact h
  | some output => exact (h.append (Clean.of_plain rfl)).append (clean_writeName output)

theorem clean_item {item : SelectItem} (h : item.WellFormed) : Clean (item.render .standard) := by
  have hmark : ∀ mark : String, mark.toList.all isPlain = true → Clean mark :=
    fun _ => Clean.of_plain
  cases item with
  | wildcard => exact Clean.of_plain rfl
  | column value output => exact clean_withOutput (clean_writeName value) output
  | aggregate function argument output =>
    have hfunction : Clean function.name := by cases function <;> exact Clean.of_plain rfl
    have hargument : Clean argument.render := by
      cases argument with
      | star => exact Clean.of_plain rfl
      | column value => exact clean_writeName value
    exact clean_withOutput (((hfunction.append (hmark "(" rfl)).append hargument).append
      (hmark ")" rfl)) output
  | distinct columns => exact absurd h id
  | computed e output => exact clean_withOutput (clean_render h.1) output

theorem clean_select {select : List SelectItem} (h : SelectItem.ListWellFormed select) :
    Clean (commas (select.map (SelectItem.render .standard))) := by
  apply clean_commas
  intro part hpart
  obtain ⟨item, hitem, rfl⟩ := List.mem_map.mp hpart
  rcases h with ⟨columns, _, rfl⟩ | ⟨_, h⟩
  · rw [List.mem_singleton.mp hitem]
    refine (Clean.of_plain rfl).append (clean_commas fun part hpart => ?_)
    obtain ⟨value, _, rfl⟩ := List.mem_map.mp hpart
    exact clean_writeName value
  · exact clean_item (h item hitem)

theorem clean_order {order : OrderBy} (h : order.expression.WellFormed) :
    Clean (order.render .standard) := by
  obtain ⟨e, direction⟩ := order
  cases direction with
  | none => exact clean_render h
  | some direction =>
    have hword : Clean direction.word := by cases direction <;> exact Clean.of_plain rfl
    exact ((clean_render h).append (Clean.of_plain rfl)).append hword

theorem clean_join {join : Join} (h : join.WellFormed) : Clean (join.render .standard) := by
  obtain ⟨kind, table, condition⟩ := join
  have hkinds : ∀ k ∈ Join.kinds, (k ++ " ").toList.all isPlain = true := by decide +kernel
  have hmark : ∀ mark : String, mark.toList.all isPlain = true → Clean mark :=
    fun _ => Clean.of_plain
  have hbody : ∀ before after : String, Clean before → Clean after →
      Clean (before ++ "JOIN " ++ writeTable table ++ after) := fun _ _ hb ha =>
    ((hb.append (hmark "JOIN " rfl)).append (clean_writeTable table)).append ha
  have hkind : ∀ k ∈ kind, Clean (k ++ " ") := fun k hk => hmark _ (hkinds k (h.kind k hk))
  have hcondition : ∀ e ∈ condition, Clean (" ON " ++ e.render .standard) := fun e he =>
    (hmark " ON " rfl).append (clean_render (h.condition e he))
  cases kind with
  | none =>
    cases condition with
    | none => exact hbody "" "" Clean.empty Clean.empty
    | some e => exact hbody "" _ Clean.empty (hcondition e rfl)
  | some k =>
    cases condition with
    | none => exact hbody _ "" (hkind k rfl) Clean.empty
    | some e => exact hbody _ _ (hkind k rfl) (hcondition e rfl)

section Clauses
variable {α : Type} {word : String} {write : α → String}

theorem clean_optional (hword : Clean word) {a : Option α} (h : ∀ b ∈ a, Clean (write b)) :
    Clean (Query.optionalClause word write a) := by
  cases a with
  | none => exact Clean.empty
  | some a => exact hword.append (h a rfl)

theorem clean_list (hword : Clean word) {items : List α} (h : ∀ a ∈ items, Clean (write a)) :
    Clean (Query.listClause word write items) := by
  cases items with
  | nil => exact Clean.empty
  | cons a items =>
    refine hword.append (clean_commas fun part hpart => ?_)
    obtain ⟨b, hb, rfl⟩ := List.mem_map.mp hpart
    exact h b hb

theorem clean_join_all {parts : List String} (h : ∀ part ∈ parts, Clean part) :
    Clean (String.join parts) := by
  induction parts with
  | nil =>
    rw [String.join_nil]
    exact Clean.empty
  | cons part parts ih =>
    rw [String.join_cons]
    exact (h part List.mem_cons_self).append (ih fun p hp => h p (List.mem_cons_of_mem part hp))

end Clauses

theorem clean_count (n : UInt64) : Clean n.toNat.repr :=
  Clean.of_forall (Numeral.isDigits_repr n.toNat).2 fun _ => isPlain_of_isDigit

/-- A selection or a deletion is written without names between backticks. -/
theorem findBacktick_render {query : Query} (h : query.WellFormed)
    (hstatement : ∀ keyword sql, query.statement ≠ .other keyword sql) :
    findBacktick (query.render .standard).toList = none := by
  have hclean : Clean (query.render .standard) := by
    cases h with
    | @select select tables joins filter groupBy orderBy limit offset hselect hjoins hfilter hgroup
        horder =>
      have hjoin : Clean (String.join (joins.map fun join => " " ++ join.render .standard)) := by
        apply clean_join_all
        intro part hpart
        obtain ⟨join, hj, rfl⟩ := List.mem_map.mp hpart
        exact (Clean.of_plain rfl).append (clean_join (hjoins join hj))
      apply ((Clean.of_plain rfl).append (clean_select hselect)).append
      refine ((((((clean_list (Clean.of_plain rfl) ?_).append hjoin).append
        (clean_optional (Clean.of_plain rfl) ?_)).append
        (clean_list (Clean.of_plain rfl) ?_)).append
        (clean_list (Clean.of_plain rfl) ?_)).append
        (clean_optional (Clean.of_plain rfl) ?_)).append
        (clean_optional (Clean.of_plain rfl) ?_)
      · intro table _
        exact clean_writeTable table
      · intro e he
        exact clean_render (hfilter e he)
      · intro e he
        exact clean_render (hgroup e he)
      · intro order ho
        exact clean_order (horder order ho)
      · intro n _
        exact clean_count n
      · intro n _
        exact clean_count n
    | @delete tables filter _ hfilter =>
      apply (Clean.of_plain rfl).append
      refine ((((((clean_list (Clean.of_plain rfl) ?_).append Clean.empty).append
        (clean_optional (Clean.of_plain rfl) ?_)).append Clean.empty).append Clean.empty).append
        Clean.empty).append Clean.empty
      · intro table _
        exact clean_writeTable table
      · intro e he
        exact clean_render (hfilter e he)
    | other _ => exact absurd rfl (hstatement _ _)
  have hend := hclean []
  rw [List.append_nil] at hend
  rw [hend]
  rfl

end FeatureSql.Sql
