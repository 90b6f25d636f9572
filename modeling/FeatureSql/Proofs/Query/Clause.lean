import FeatureSql.Proofs.Expr.RoundTrip
import FeatureSql.Proofs.Expr.Sound
import FeatureSql.Proofs.Name
import FeatureSql.Proofs.Query.Labelled

/-! The clauses of a query, each read back in front of those that may follow it. -/

set_option autoImplicit false

namespace FeatureSql.Sql

open Reader (Breaks breaks_cons bind_of_some bind_of_none orElse_of_none orElse_of_some)

/-- The words that clauses start with, in the order of the clauses. A join's condition comes first:
nothing but a table stands in front of it. -/
def clauseWords : List String :=
  ["ON", "FROM", "JOIN", "INNER", "CROSS", "LEFT", "RIGHT", "FULL", "WHERE", "GROUP", "ORDER",
   "LIMIT", "OFFSET"]

/-- The text ends, or goes on with a clause whose word is not among the first `n`. -/
inductive Ends (n : Nat) : List Char → Prop where
  | nil : Ends n []
  | word {w : String} {rest : List Char} : w ∈ clauseWords.drop n →
      Ends n (' ' :: (w.toList ++ ' ' :: rest))

/-- What may follow a part of a list. -/
def ListEnds (n : Nat) (text : List Char) : Prop := (∃ rest, text = ',' :: rest) ∨ Ends n text

theorem ListEnds.comma {n : Nat} (rest : List Char) : ListEnds n (',' :: rest) := Or.inl ⟨rest, rfl⟩

section Ends
variable {n m : Nat} {text : List Char}

theorem Ends.mono (h : Ends m text) (hnm : n ≤ m) : Ends n text := by
  cases h with
  | nil => exact .nil
  | word hw =>
    apply Ends.word
    have hdrop : clauseWords.drop m = (clauseWords.drop n).drop (m - n) := by
      rw [List.drop_drop]
      congr 1
      omega
    rw [hdrop] at hw
    exact List.mem_of_mem_drop hw

theorem clauseWords_spec : ∀ w ∈ clauseWords, w.toList.all isWordChar = true ∧ w.toList ≠ [] ∧
    isReserved w.toList = true ∧ lower w.toList ∉ Expr.tailWords ∧ lower w.toList ≠ "and".toList ∧
    lower w.toList ≠ "or".toList := by
  decide +kernel

theorem Ends.closes (h : Ends n text) : Expr.Closes 1 text := by
  cases h with
  | nil => exact Expr.closes_nil
  | @word w rest hw =>
    obtain ⟨hall, hne, _, htail, hand, hor⟩ := clauseWords_spec w (List.mem_of_mem_drop hw)
    exact Expr.closes_word (List.all_eq_true.mp hall) hne (breaks_cons.mpr rfl) (fun _ => htail)
      (fun _ => hand) (fun _ => hor)

theorem ListEnds.closes (h : ListEnds n text) : Expr.Closes 1 text := by
  rcases h with ⟨rest, rfl⟩ | h
  · exact Expr.closes_comma rest
  · exact h.closes

theorem Ends.nextWord_mem (h : Ends n text) :
    ∃ w ∈ "" :: clauseWords.drop n, nextWord text = w.toList := by
  cases h with
  | nil => exact ⟨"", List.mem_cons_self, rfl⟩
  | @word w rest hw =>
    obtain ⟨hall, hne, _⟩ := clauseWords_spec w (List.mem_of_mem_drop hw)
    exact ⟨w, List.mem_cons_of_mem _ hw,
      Expr.nextWord_blank (List.all_eq_true.mp hall) hne (breaks_cons.mpr rfl)⟩

theorem keyword_of_ends (h : Ends n text) {word : String}
    (hword : ∀ w ∈ "" :: clauseWords.drop n, lower w.toList ≠ word.toList) :
    keyword word text = none := by
  obtain ⟨w, hw, hnext⟩ := h.nextWord_mem
  apply keyword_of_ne
  rw [hnext]
  exact hword w hw

theorem name_of_ends (h : Ends n text) : name text = none := by
  cases h with
  | nil => rfl
  | @word w rest hw =>
    obtain ⟨hall, hne, hres, _⟩ := clauseWords_spec w (List.mem_of_mem_drop hw)
    apply name_of_reserved
    rw [Expr.nextWord_blank (List.all_eq_true.mp hall) hne (breaks_cons.mpr rfl)]
    exact hres

theorem outputReader_of_listEnds (h : ListEnds n text) : SelectItem.outputReader text = none := by
  rcases h with ⟨rest, rfl⟩ | h
  · rfl
  · have has : keyword "as" text = none := keyword_of_ends (h.mono (Nat.zero_le n)) (by decide)
    rw [SelectItem.outputReader, orElse_of_none (bind_of_none has)]
    exact name_of_ends h

theorem direction_of_listEnds (h : ListEnds n text) : Direction.reader text = none := by
  rcases h with ⟨rest, rfl⟩ | h
  · rfl
  · have h := h.mono (Nat.zero_le n)
    have hasc : keyword "asc" text = none := keyword_of_ends h (by decide)
    rw [Direction.reader, orElse_of_none (bind_of_none hasc)]
    exact bind_of_none (keyword_of_ends h (by decide))

theorem name_readsAs (value : String) : ReadsAs name (ListEnds n) (writeName value) value := by
  intro gap text hg ht
  have hbound := ht.closes.boundary
  rw [name_gap hg]
  exact name_append value hbound.name (hbound.quote.mono fun c hc => by simp [hc])

theorem table_append (value : String) {rest : List Char} (h : ListEnds n rest) :
    tableName ((writeTable value).toList ++ rest) = some (value, rest) := by
  have htable : Breaks isTableChar rest := by
    rcases h with ⟨rest, rfl⟩ | h
    · exact breaks_cons.mpr rfl
    · cases h with
      | nil => exact Breaks.nil _
      | word hw => exact breaks_cons.mpr rfl
  exact tableName_append value htable
    (h.closes.boundary.quote.mono fun c hc => by simp [hc])

theorem table_readsAs (value : String) : ReadsAs tableName (ListEnds n) (writeTable value) value := by
  intro gap text hg ht
  rw [tableName_gap hg]
  exact table_append value ht

end Ends

section Items
variable {n : Nat}

/-- What cannot be taken apart is read as a whole expression. -/
theorem reader_of_primary {sql : String} {e : Expr}
    (h : ∀ depth, sql.toList.length ≤ depth → Expr.Whole (Expr.readerAt depth) 7 sql.toList e) :
    ReadsAs Expr.reader (Expr.Closes 1) sql e := by
  intro gap text hg ht
  have hlen : sql.toList.length ≤ (gap ++ (sql.toList ++ text)).length := by
    simp
    omega
  exact (h _ hlen).down (by decide) (Nat.le_refl 1) gap text hg ht

theorem column_reads (value : String) :
    ReadsAs Expr.reader (Expr.Closes 1) (writeName value) (.name value) :=
  reader_of_primary fun _ _ _ _ hg hc =>
    (Expr.primary_gap hg _).trans (Expr.primary_writeName value hc.boundary)

/-- The argument of an aggregate as an expression. -/
def AggregateArgument.expr : AggregateArgument → Expr
  | .star => .star
  | .column value => .name value

theorem byLabel_writeName (inner : Reader Expr) (value : String) (text : List Char) :
    Expr.byLabel inner ((writeName value).toList ++ ')' :: text) = none := by
  rcases Expr.writeName_cases value with ⟨hbare, _, hwrite⟩ | hwrite
  · rw [hwrite, Expr.byLabel, bind_of_some (Expr.argumentLabel_bare hbare (breaks_cons.mpr rfl))]
    rfl
  · rw [hwrite, quoteName, toList_write]
    exact bind_of_none (Expr.argumentLabel_cons_of_ne rfl (by decide) rfl)

theorem aggregateArgument_reads (argument : AggregateArgument) (depth : Nat) (text : List Char) :
    Expr.arguments (Expr.readerAt (depth + 1)) (argument.render.toList ++ ')' :: text) =
      some ([argument.expr], ')' :: text) := by
  have hargument : Expr.argument (Expr.readerAt (depth + 1))
      (argument.render.toList ++ ')' :: text) = some (argument.expr, ')' :: text) := by
    cases argument with
    | star => exact Expr.argument_star Gap.nil
    | column value =>
      have hwhole : Expr.Whole (Expr.readerAt depth) 7 (writeName value).toList (.name value) :=
        fun gap text hg hc =>
          (Expr.primary_gap hg _).trans (Expr.primary_writeName value hc.boundary)
      have hread := hwhole.down (by decide) (Nat.le_refl 1) [] (')' :: text) Gap.nil
        (Expr.closes_parenthesis text)
      have hstar := Expr.symbol_star_of_disjunction hread
      rw [Expr.argument_eq]
      exact (orElse_of_none (bind_of_none hstar)).trans
        ((orElse_of_none (byLabel_writeName _ value text)).trans hread)
  have hstop : comma (')' :: text) = none := rfl
  exact orElse_of_some
    (Reader.separated_of_steps hargument (.nil _) (bind_of_none hstop))

theorem aggregate_reads (function : AggregateFunction) (argument : AggregateArgument) :
    ReadsAs Expr.reader (Expr.Closes 1) (function.name ++ "(" ++ argument.render ++ ")")
      (.call function.name [argument.expr]) := by
  have hf : IsFunctionName function.name :=
    functionName_yields function.name.toList function.name [] (by cases function <;> rfl)
  apply reader_of_primary
  intro depth hd gap text hg _
  have hchars : (function.name ++ "(" ++ argument.render ++ ")").toList =
      function.name.toList ++ '(' :: (argument.render.toList ++ [')']) := by simp
  rw [hchars] at hd ⊢
  cases depth with
  | zero => simp at hd
  | succ depth =>
    apply (Expr.primary_gap hg _).trans
    simp only [List.append_assoc, List.cons_append, List.nil_append]
    exact Expr.primary_call hf (aggregateArgument_reads argument depth text)

theorem ofExpr_aggregate (function : AggregateFunction) (argument : AggregateArgument)
    (output : Option String) : SelectItem.ofExpr (.call function.name [argument.expr]) output =
      .aggregate function argument output := by
  cases function <;> cases argument <;> rfl

theorem reader_of_reserved {text : List Char} (h : isReserved (nextWord text) = true)
    (hnot : lower (nextWord text) ≠ "not".toList) : Expr.reader text = none :=
  Expr.disjunction_of_none (Expr.primary_of_reserved h) (keyword_of_ne hnot)

/-- An expression in a select clause, with the name it is given. -/
theorem output_readsAs {sql : String} {e : Expr} (h : ReadsAs Expr.reader (Expr.Closes 1) sql e)
    (output : Option String) : ReadsAs SelectItem.reader (ListEnds n)
      (SelectItem.withOutput sql output) (SelectItem.ofExpr e output) := by
  intro gap text hg ht
  have hitem : ∀ {mid left : List Char}, Expr.Closes 1 mid →
      optional SelectItem.outputReader mid = some (output, left) →
      SelectItem.reader (gap ++ (sql.toList ++ mid)) = some (.ofExpr e output, left) := by
    intro mid left hclose hopt
    have hread := h gap mid hg hclose
    have hstar : symbol "*" (gap ++ (sql.toList ++ mid)) = none :=
      Expr.symbol_star_of_disjunction hread
    refine (orElse_of_none (bind_of_none hstar)).trans ((bind_of_some hread).trans ?_)
    exact bind_of_some hopt
  cases output with
  | none => exact hitem ht.closes (Reader.optional_of_none (outputReader_of_listEnds ht))
  | some output =>
    have hclose : Expr.Closes 1 (' ' :: ("AS".toList ++ ' ' :: ((writeName output).toList ++ text))) :=
      Expr.closes_word (List.all_eq_true.mp rfl) (by decide) (breaks_cons.mpr rfl) (by decide)
        (by decide) (by decide)
    have has : keyword "as" (' ' :: ("AS".toList ++ ' ' :: ((writeName output).toList ++ text))) =
        some ((), [' '] ++ ((writeName output).toList ++ text)) := rfl
    have hname := name_readsAs output [' '] text Gap.blank ht
    have hout : SelectItem.outputReader
        (' ' :: ("AS".toList ++ ' ' :: ((writeName output).toList ++ text))) = some (output, text) :=
      orElse_of_some ((bind_of_some has).trans (orElse_of_some hname))
    have hread := hitem hclose (Reader.optional_of_some hout)
    have hchars : (SelectItem.withOutput sql (some output)).toList = sql.toList ++
        ' ' :: ("AS".toList ++ ' ' :: (writeName output).toList) := by
      simp [SelectItem.withOutput]
    rw [hchars]
    simp only [List.append_assoc, List.cons_append] at hread ⊢
    exact hread

theorem item_readsAs {item : SelectItem} (h : item.WellFormed) :
    ReadsAs SelectItem.reader (ListEnds n) (item.render .standard) item.reread := by
  cases item with
  | wildcard =>
    intro gap text hg _
    have hstar : symbol "*" (gap ++ '*' :: text) = some ((), text) := symbol_gap hg "*" _
    exact orElse_of_some (bind_of_some hstar)
  | column value output => exact output_readsAs (column_reads value) output
  | aggregate function argument output =>
    have hread : ReadsAs SelectItem.reader (ListEnds n) _ _ :=
      output_readsAs (aggregate_reads function argument) output
    rw [ofExpr_aggregate] at hread
    exact hread
  | distinct columns => exact absurd h id
  | computed e output =>
    rw [← h.2, ← SelectItem.ofExpr_reread, h.2]
    exact output_readsAs h.1.readsAs_reread output

theorem distinct_of_reader {text : List Char} {p : SelectItem × List Char}
    (h : SelectItem.reader text = some p) : keyword "distinct" text = none := by
  rw [keyword_apply]
  split
  case isFalse => rfl
  case isTrue hword =>
    have hres : isReserved (nextWord text) = true := by
      rw [isReserved, hword]
      decide
    have hnot : lower (nextWord text) ≠ "not".toList := by
      rw [hword]
      decide
    have hnone := reader_of_reserved hres hnot
    obtain ⟨gap, c, cs, rfl, hgap, hc⟩ := Expr.reserved_start hres
    have hstar : symbol "*" (gap ++ c :: cs) = none := by
      rw [symbol_gap hgap]
      exact symbol_of_ne rfl (isGap_of_isWordChar (isWordChar_of_isWordStart hc))
        (Expr.ne_of_isWordStart hc rfl)
    rw [SelectItem.reader, orElse_of_none (bind_of_none hstar), bind_of_none hnone] at h
    cases h

/-- Where a list of items is read, no list of distinct columns stands. -/
theorem listReader_of_separated {text : List Char} {p : List SelectItem × List Char}
    (h : Reader.separated comma SelectItem.reader text = some p) :
    SelectItem.listReader text = some p := by
  have hdistinct : keyword "distinct" text = none := by
    cases hfirst : SelectItem.reader text with
    | none => rw [Reader.separated_of_none hfirst] at h; cases h
    | some first => exact distinct_of_reader hfirst
  exact (orElse_of_none (bind_of_none hdistinct)).trans h

theorem ends_comma {text : List Char} (h : Ends n text) : comma text = none := by
  cases h with
  | nil => rfl
  | @word w rest hw =>
    obtain ⟨hall, hne, _⟩ := clauseWords_spec w (List.mem_of_mem_drop hw)
    cases hcs : w.toList with
    | nil => exact absurd hcs hne
    | cons c cs =>
      rw [hcs] at hall
      have hc : isWordChar c = true := List.all_eq_true.mp hall c List.mem_cons_self
      exact (symbol_gap Gap.blank "," (c :: cs ++ ' ' :: rest)).trans
        (symbol_of_ne rfl (isGap_of_isWordChar hc) (ne_of_isWordChar hc rfl))

theorem items_readsAs {items : List SelectItem} (h : SelectItem.ListWellFormed items) :
    ReadsAs SelectItem.listReader (Ends n) (commas (items.map (SelectItem.render .standard)))
      (items.map SelectItem.reread) := by
  intro gap text hg ht
  rcases h with ⟨columns, hne, rfl⟩ | ⟨hne, hitems⟩
  · have hsep := separated_commas ListEnds.comma hne (fun value _ => name_readsAs value)
      (Or.inr ht) (ends_comma ht) Gap.blank
    have hchars : (commas ([SelectItem.distinct columns].map (SelectItem.render .standard))).toList =
        "DISTINCT".toList ++ ([' '] ++ (commas (columns.map writeName)).toList) := by
      rw [List.map_singleton, SelectItem.render, commas, String.intercalate_singleton]
      simp
    have hword : ∀ rest, keyword "distinct" (gap ++ ("DISTINCT".toList ++ ([' '] ++ rest))) =
        some ((), [' '] ++ rest) := fun rest =>
      keyword_append (List.all_eq_true.mp rfl) (by decide) rfl hg (breaks_cons.mpr rfl)
    have hread : SelectItem.distinctReader (gap ++ ("DISTINCT".toList ++ ([' '] ++
        ((commas (columns.map writeName)).toList ++ text)))) =
          some ([SelectItem.distinct (columns.map id)], text) :=
      (bind_of_some (hword _)).trans (bind_of_some hsep)
    rw [hchars]
    simp only [List.append_assoc] at hread ⊢
    rw [List.map_id] at hread
    exact orElse_of_some hread
  · have hread : ∀ item ∈ items, ReadsAs SelectItem.reader (ListEnds n) (item.render .standard)
        item.reread := fun item hitem => item_readsAs (hitems item hitem)
    exact listReader_of_separated
      (separated_commas ListEnds.comma hne hread (Or.inr ht) (ends_comma ht) hg)

end Items
end FeatureSql.Sql
