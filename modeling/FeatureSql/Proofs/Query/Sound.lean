import FeatureSql.Proofs.Expr.Sound
import FeatureSql.Proofs.Outcome
import FeatureSql.Proofs.Query.Shape
import FeatureSql.Proofs.Trim
import FeatureSql.Sql.Query.Parse

/-! Only well-formed queries are read. -/

set_option autoImplicit false

namespace FeatureSql.Sql

open Reader (Yields)

namespace SelectItem

theorem ofExpr_cases (e : Expr) (output : Option String) :
    (∃ value, ofExpr e output = .column value output) ∨
      (∃ function argument, ofExpr e output = .aggregate function argument output) ∨
      ofExpr e output = .computed e output := by
  cases e with
  | name value => exact Or.inl ⟨value, rfl⟩
  | call function arguments =>
    rw [ofExpr]
    split
    · exact Or.inr (Or.inl ⟨_, _, rfl⟩)
    · exact Or.inr (Or.inr rfl)
  | _ => exact Or.inr (Or.inr rfl)

theorem wellFormed_ofExpr {e : Expr} (h : e.WellFormed) (output : Option String) :
    (ofExpr e output).WellFormed := by
  rcases ofExpr_cases e output with ⟨value, hitem⟩ | ⟨function, argument, hitem⟩ | hitem
  · rw [hitem]
    exact True.intro
  · rw [hitem]
    exact True.intro
  · rw [hitem]
    exact ⟨h, hitem⟩

theorem reader_yields : Yields WellFormed SelectItem.reader := by
  refine Yields.orElse (Yields.andThen fun _ => Yields.of_pure True.intro) ?_
  refine Expr.reader_yields.bind fun e he => Yields.andThen fun output => ?_
  exact Yields.of_pure (wellFormed_ofExpr he output)

theorem listReader_yields : Yields ListWellFormed SelectItem.listReader := by
  refine Yields.orElse ?_ (reader_yields.separated.weaken fun items h => Or.inr h)
  refine Yields.andThen fun _ => (Yields.trivially name).separated.bind fun columns hcolumns => ?_
  exact Yields.of_pure (Or.inl ⟨columns, hcolumns.1, rfl⟩)

end SelectItem

theorem OrderBy.reader_yields : Yields (fun order => order.expression.WellFormed) OrderBy.reader :=
  Expr.reader_yields.bind fun _ he => Yields.andThen fun _ => Yields.of_pure he

theorem Join.reader_yields : Yields Join.WellFormed Join.reader := by
  have hside : Yields (fun side => side = "LEFT" ∨ side = "RIGHT" ∨ side = "FULL") Join.sideWord := by
    refine Yields.orElse ?_ (Yields.orElse ?_ ?_)
    · exact Yields.andThen fun _ => Yields.of_pure (Or.inl rfl)
    · exact Yields.andThen fun _ => Yields.of_pure (Or.inr (Or.inl rfl))
    · exact Yields.andThen fun _ => Yields.of_pure (Or.inr (Or.inr rfl))
  have hkind : Yields (· ∈ Join.kinds) Join.kindReader := by
    refine Yields.orElse ?_ (Yields.orElse ?_ ?_)
    · exact Yields.andThen fun _ => Yields.of_pure (by decide)
    · exact Yields.andThen fun _ => Yields.of_pure (by decide)
    · refine hside.bind fun side hs => Yields.andThen fun outer => Yields.of_pure ?_
      have houter : side ∈ Join.kinds ∧ side ++ " OUTER" ∈ Join.kinds := by
        rcases hs with rfl | rfl | rfl <;> decide +kernel
      split
      · exact houter.2
      · exact houter.1
  have hcondition : Yields Expr.WellFormed (do keyword "on"; Expr.reader) :=
    Yields.andThen fun _ => Expr.reader_yields
  refine hkind.maybe.bind fun kind hkind => Yields.andThen fun _ => Yields.andThen fun table => ?_
  refine hcondition.maybe.bind fun condition hcondition => ?_
  exact Yields.of_pure ⟨hkind, hcondition⟩

/-- A statement before its counts are known to fit; only a selection has counts. -/
structure Draft.Sound (draft : Draft) : Prop where
  query : draft.query.WellFormed
  counts : draft.query.limit = none ∧ draft.query.offset = none
  select : draft.query.statement ≠ .select → draft.limit = none ∧ draft.offset = none

theorem Draft.selectReader_yields : Yields Draft.Sound Draft.selectReader := by
  have hfilter : Yields Expr.WellFormed Draft.filterReader := Yields.andThen fun _ => Expr.reader_yields
  have hgroupBy : Yields (fun es => es ≠ [] ∧ ∀ e ∈ es, Expr.WellFormed e) Draft.groupByReader :=
    Yields.andThen fun _ => Yields.andThen fun _ => Expr.listReader_yields
  have horderBy : Yields (fun orders => orders ≠ [] ∧
      ∀ order ∈ orders, order.expression.WellFormed) Draft.orderByReader :=
    Yields.andThen fun _ => Yields.andThen fun _ => OrderBy.reader_yields.separated
  refine Yields.andThen fun _ => SelectItem.listReader_yields.bind fun select hselect => ?_
  refine Yields.andThen fun tables => Join.reader_yields.many.bind fun joins hjoins => ?_
  refine hfilter.maybe.bind fun filter hfilter => hgroupBy.maybe.bind fun groupBy hgroupBy => ?_
  refine horderBy.maybe.bind fun orderBy horderBy => ?_
  refine Yields.andThen fun limit => Yields.andThen fun offset => Yields.of_pure ?_
  have hgroup : ∀ e ∈ groupBy.getD [], Expr.WellFormed e := by
    cases groupBy with
    | none => exact fun e he => absurd he List.not_mem_nil
    | some es => exact (hgroupBy es rfl).2
  have horder : ∀ order ∈ orderBy.getD [], order.expression.WellFormed := by
    cases orderBy with
    | none => exact fun order ho => absurd ho List.not_mem_nil
    | some orders => exact (horderBy orders rfl).2
  exact ⟨.select hselect hjoins hfilter hgroup horder, ⟨rfl, rfl⟩, fun h => absurd rfl h⟩

theorem Draft.deleteReader_yields : Yields Draft.Sound Draft.deleteReader := by
  have hfilter : Yields Expr.WellFormed Draft.filterReader := Yields.andThen fun _ => Expr.reader_yields
  have htables : Yields (fun tables => tables ≠ [] ∧ ∀ t ∈ tables, True) Draft.tablesReader :=
    Yields.andThen fun _ => (Yields.trivially tableName).separated
  refine Yields.andThen fun _ => htables.bind fun tables htables => ?_
  refine hfilter.maybe.bind fun filter hfilter => Yields.of_pure ?_
  exact ⟨.delete htables.1 hfilter, ⟨rfl, rfl⟩, fun _ => ⟨rfl, rfl⟩⟩

theorem isOther_of_known {text : List Char}
    (h : Draft.otherWords.contains (lower (text.takeWhile isWordChar)) = true) :
    Query.IsOther (String.ofList (lower (text.takeWhile isWordChar))) (trim (String.ofList text)) := by
  have hmem : lower (text.takeWhile isWordChar) ∈ Draft.otherWords := by simpa using h
  have hfront : Reader.Breaks isBlank text := by
    cases text with
    | nil => exact Reader.Breaks.nil _
    | cons c cs =>
      by_cases hc : isWordChar c = true
      · exact Reader.breaks_cons.mpr (isBlank_of_isWordChar hc)
      · rw [List.takeWhile_cons, if_neg hc] at hmem
        exact absurd hmem (by decide)
  have htrim : (trim (String.ofList text)).toList = (text.reverse.dropWhile isBlank).reverse := by
    unfold trim
    rw [String.toList_ofList, String.toList_ofList, Reader.dropWhile_of_breaks hfront]
  obtain ⟨blanks, htext, hblanks⟩ := dropWhile_reverse_prefix text
  have hbreaks : Reader.Breaks isWordChar blanks := by
    cases blanks with
    | nil => exact Reader.Breaks.nil _
    | cons c cs =>
      apply Reader.breaks_cons.mpr
      have hblank := hblanks c List.mem_cons_self
      cases hc : isWordChar c with
      | false => rfl
      | true => rw [isBlank_of_isWordChar hc] at hblank; exact absurd hblank (by decide)
  refine ⟨?_, ?_, trim_trim _⟩
  · rw [htrim, String.toList_ofList, ← Reader.takeWhile_append hbreaks, ← htext]
  · rw [String.toList_ofList]
    exact hmem

theorem Draft.otherReader_yields : Yields Draft.Sound Draft.otherReader := by
  intro text draft left h
  rw [Draft.otherReader, lexeme, Reader.after] at h
  generalize text.dropWhile isGap = text at h
  dsimp only at h
  split at h
  case isTrue hknown =>
    rw [Option.some.injEq, Prod.mk.injEq] at h
    rw [← h.1]
    exact ⟨.other (isOther_of_known hknown), ⟨rfl, rfl⟩, fun _ => ⟨rfl, rfl⟩⟩
  case isFalse => cases h

theorem Draft.reader_yields : Yields Draft.Sound Draft.reader := by
  have hstatement := Draft.selectReader_yields.orElse
    (Draft.deleteReader_yields.orElse Draft.otherReader_yields)
  refine hstatement.bind fun draft hdraft => ?_
  exact Yields.andThen fun _ => Yields.andThen fun _ => Yields.of_pure hdraft

theorem Query.wellFormed_withCounts {query : Query} (h : query.WellFormed)
    (hselect : query.statement = .select) (limit offset : Option UInt64) :
    Query.WellFormed { query with limit, offset } := by
  cases h with
  | select hitems hjoins hfilter hgroup horder =>
    exact .select hitems hjoins hfilter hgroup horder
  | delete => exact Statement.noConfusion hselect
  | other => exact Statement.noConfusion hselect

theorem Query.parse_of_draft {mode : Mode} {sql : String} {draft : Draft}
    (hread : Draft.reader.value? sql = some draft)
    (hspan : backtickSpan? mode sql.toList draft.query = none) : Query.parse mode sql = (do
      let limit ← draft.limit.mapM (Count.value sql.toList)
      let offset ← draft.offset.mapM (Count.value sql.toList)
      pure { draft.query with limit, offset }) := by
  unfold Query.parse
  rw [hread]
  dsimp only
  rw [hspan]

theorem Query.exists_draft {mode : Mode} {sql : String} {query : Query}
    (h : Query.parse mode sql = .ok query) : ∃ draft, Draft.reader.value? sql = some draft ∧
      backtickSpan? mode sql.toList draft.query = none := by
  unfold Query.parse at h
  cases hread : Draft.reader.value? sql with
  | none =>
    rw [hread] at h
    cases h
  | some draft =>
    rw [hread] at h
    dsimp only at h
    cases hspan : backtickSpan? mode sql.toList draft.query with
    | none => exact ⟨draft, rfl, hspan⟩
    | some span =>
      rw [hspan] at h
      cases h

theorem Query.withCounts_none {query : Query} (hl : query.limit = none) (ho : query.offset = none) :
    { query with limit := none, offset := none } = query := by
  cases query
  cases hl
  cases ho
  rfl

theorem Query.wellFormed_of_parse {mode : Mode} {sql : String} {query : Query}
    (h : Query.parse mode sql = .ok query) : query.WellFormed := by
  obtain ⟨draft, hread, hspan⟩ := Query.exists_draft h
  rw [Query.parse_of_draft hread hspan] at h
  have hdraft : Draft.Sound draft := by
    obtain ⟨⟨_, left⟩, htext, rfl⟩ := Option.map_eq_some_iff.mp hread
    exact Draft.reader_yields _ _ _ htext
  obtain ⟨limit, hlimit, h⟩ := bind_eq_ok.mp h
  obtain ⟨offset, hoffset, h⟩ := bind_eq_ok.mp h
  rw [← Except.ok.inj h]
  by_cases hselect : draft.query.statement = .select
  · exact Query.wellFormed_withCounts hdraft.query hselect limit offset
  · obtain ⟨hl, ho⟩ := hdraft.select hselect
    rw [hl] at hlimit
    rw [ho] at hoffset
    have hlimit : none = limit := Except.ok.inj hlimit
    have hoffset : none = offset := Except.ok.inj hoffset
    rw [← hlimit, ← hoffset, Query.withCounts_none hdraft.counts.1 hdraft.counts.2]
    exact hdraft.query

end FeatureSql.Sql
