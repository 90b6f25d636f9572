import FeatureSql.Conversion
import FeatureSql.Proofs.Query.Backtick
import FeatureSql.Proofs.Query.Sound
import FeatureSql.Proofs.Query.Statement

/-! Whole queries read back from the text they are written as. -/

set_option autoImplicit false

namespace FeatureSql

instance decidableEqExcept {ε α : Type} [DecidableEq ε] [DecidableEq α] : DecidableEq (Except ε α)
  | .error a, .error b => decidable_of_iff (a = b) (by simp)
  | .ok a, .ok b => decidable_of_iff (a = b) (by simp)
  | .error _, .ok _ => isFalse (by simp)
  | .ok _, .error _ => isFalse (by simp)

end FeatureSql

namespace FeatureSql.Sql

open Reader (Breaks bind_of_some bind_of_none orElse_of_none orElse_of_some)

namespace Query

/-- Behind a statement nothing is left to read but blanks. -/
theorem draft_of_statement {sql : String} {draft : Draft} {gap : List Char} (hg : Gap gap)
    (h : (Draft.selectReader <|> Draft.deleteReader <|> Draft.otherReader : Reader Draft)
      sql.toList = some (draft, gap)) : Draft.reader.value? sql = some draft := by
  have hsemicolon : optional (symbol ";") gap = some (none, gap) := by
    rw [← List.append_nil gap]
    exact Reader.optional_of_none (symbol_gap hg ";" [])
  have hend : lexeme Reader.atEnd gap = some ((), []) := by
    rw [← List.append_nil gap]
    exact lexeme_gap hg []
  have hread : Draft.reader sql.toList = some (draft, []) := by
    rw [Draft.reader, bind_of_some h, bind_of_some hsemicolon, bind_of_some hend]
    rfl
  rw [Reader.value?, hread]
  rfl

theorem count_mapM (whole text : List Char) (count : Option UInt64) :
    (count.map (countOf text)).mapM (Count.value whole) = .ok count := by
  cases count with
  | none => rfl
  | some n =>
    have hvalue : Count.value whole (countOf text n) = .ok n := value_count whole n _
    rw [Option.map_some, Option.mapM_some, hvalue]
    rfl

theorem backtickSpan?_of_findBacktick {text : List Char} (h : findBacktick text = none)
    (query : Query) : backtickSpan? .standard text query = none := by
  unfold backtickSpan?
  rw [h]
  split <;> rfl

theorem parse_of_counts {sql : String} {query : Query} {limitText offsetText : List Char}
    {limit offset : Option UInt64} (hbacktick : findBacktick sql.toList = none)
    (hread : Draft.reader.value? sql = some {
      query, limit := limit.map (countOf limitText), offset := offset.map (countOf offsetText) }) :
    parse .standard sql = .ok { query with limit, offset } := by
  rw [parse_of_draft hread (backtickSpan?_of_findBacktick hbacktick query)]
  dsimp only
  rw [count_mapM, count_mapM]
  rfl

theorem lower_of_otherWords : ∀ word ∈ Draft.otherWords,
    word ≠ "select".toList ∧ word ≠ "delete".toList := by decide +kernel

theorem otherReader_of_isOther {keyword sql : String} (h : IsOther keyword sql) :
    (Draft.selectReader <|> Draft.deleteReader <|> Draft.otherReader : Reader Draft) sql.toList =
      some ({ query := { statement := .other keyword sql } }, []) := by
  have hbounded := bounded_trim sql
  rw [h.trimmed] at hbounded
  have hgap : Breaks isGap sql.toList := hbounded.front.mono fun c => isBlank_of_isGap
  have hnext : lower (nextWord sql.toList) = keyword.toList := by
    rw [nextWord, Reader.dropWhile_of_breaks hgap, h.word]
  obtain ⟨hselect, hdelete⟩ := lower_of_otherWords _ h.known
  have hknown : Draft.otherWords.contains (lower (sql.toList.takeWhile isWordChar)) = true := by
    rw [h.word]
    simpa using h.known
  have hselect : Draft.selectReader sql.toList = none :=
    bind_of_none (keyword_of_ne (by rw [hnext]; exact hselect))
  have hdelete : Draft.deleteReader sql.toList = none :=
    bind_of_none (keyword_of_ne (by rw [hnext]; exact hdelete))
  rw [orElse_of_none hselect, orElse_of_none hdelete, Draft.otherReader, lexeme_of_breaks hgap]
  dsimp only
  rw [if_pos hknown, h.word, String.ofList_toList, String.ofList_toList, h.trimmed]

/-- Whatever a well-formed query holds, its text is read, and it is read as the same statement. -/
theorem WellFormed.parse_render_reread {query : Query} (h : query.WellFormed) :
    parse .standard (query.render .standard) = .ok query.reread := by
  have hbacktick := fun hstatement => findBacktick_render h hstatement
  cases h with
  | @select select tables joins filter groupBy orderBy limit offset hselect hjoins hfilter hgroup
      horder =>
    have hread := draft_of_statement Gap.nil (orElse_of_some (@selectReader_render select tables
      joins filter groupBy orderBy limit offset hselect hjoins hfilter hgroup horder))
    exact parse_of_counts (hbacktick fun _ _ => Statement.noConfusion) hread
  | @delete tables filter htables hfilter =>
    have hselect : Draft.selectReader
        (render .standard { statement := .delete, tables, filter }).toList = none := by
      rw [render_delete_chars htables]
      rfl
    have hread := draft_of_statement Gap.nil ((orElse_of_none hselect).trans
      (orElse_of_some (deleteReader_render htables hfilter)))
    rw [parse_of_draft hread (backtickSpan?_of_findBacktick
      (hbacktick fun _ _ => Statement.noConfusion) _)]
    rfl
  | @other keyword sql hother =>
    have hread := draft_of_statement Gap.nil (otherReader_of_isOther hother)
    have hspan : backtickSpan? .standard sql.toList { statement := .other keyword sql } = none := rfl
    have hparse := parse_of_draft hread hspan
    exact hparse

theorem WellFormed.parse_render {query : Query} (h : query.WellFormed) (hfree : query.LabelFree) :
    parse .standard (query.render .standard) = .ok query.leftGrouped :=
  reread_of_labelFree hfree ▸ h.parse_render_reread

theorem validate_leftGrouped (query : Query) : query.leftGrouped.validate = query.validate := by
  obtain ⟨statement, select, tables, joins, filter, groupBy, orderBy, limit, offset⟩ := query
  cases select <;> cases joins <;> rfl

theorem ofQuery_eq_ok {dialect : Dialect} {query : Query} {conversion : Conversion} :
    Conversion.ofQuery dialect query = .ok conversion ↔
      query.validate = .ok () ∧ conversion = { query := query.render dialect, tree := query } := by
  unfold Conversion.ofQuery
  rw [bind_eq_ok]
  constructor
  · rintro ⟨_, hvalid, h⟩
    exact ⟨hvalid, (Except.ok.inj h).symm⟩
  · rintro ⟨hvalid, rfl⟩
    exact ⟨(), hvalid, rfl⟩

/-- Whatever was read, in either mode, is written as a text that reads back as the same query, its
chains grouped from the left; that query has the same text again, and so what a check answers
passes the check unchanged. -/
theorem parse_render_of_parse {mode : Mode} {sql : String} {query : Query}
    (h : parse mode sql = .ok query) (hfree : query.LabelFree) :
    parse .standard (query.render .standard) = .ok query.leftGrouped ∧
      query.leftGrouped.render .standard = query.render .standard ∧
      ∀ conversion, Conversion.ofQuery .standard query = .ok conversion →
        Converter.check {} conversion.query =
          .ok { conversion with tree := query.leftGrouped } := by
  have hparse := (wellFormed_of_parse h).parse_render hfree
  refine ⟨hparse, render_leftGrouped .standard query, ?_⟩
  intro conversion hconversion
  obtain ⟨hvalid, rfl⟩ := ofQuery_eq_ok.mp hconversion
  rw [Converter.check, Converter.parse, hparse]
  exact ofQuery_eq_ok.mpr ⟨(validate_leftGrouped query).trans hvalid,
    by rw [render_leftGrouped]⟩

/-- A name between backticks, a join, arguments of every kind, and a chain grouped from the right. -/
theorem parse_render_of_parse_joined :
    let sql := "select count(*) n, f(*, x = 1, a + '=') from `t 1` left outer join v on a = b " ++
      "where a and (b and c) order by a desc limit 10"
    let query : Query := {
      select := [.aggregate .count .star (some "n"),
        .computed (.call "f" [.star, .named "x" (.number "1"), .comparison "+" (.name "a") (.text "=")])
          none]
      tables := ["t 1"]
      joins := [⟨some "LEFT OUTER", "v", some (.comparison "=" (.name "a") (.name "b"))⟩]
      filter := some (.logical .and (.name "a") (.logical .and (.name "b") (.name "c")))
      orderBy := [⟨.name "a", some .desc⟩]
      limit := some 10 }
    parse .experimental sql = .ok query ∧ query.LabelFree ∧
      parse .standard (query.render .standard) = .ok query.leftGrouped := by
  intro sql query
  have hparse : parse .experimental sql = .ok query := by decide +kernel
  have hfree : query.LabelFree := by
    refine ⟨?_, ?_, ?_, ?_, ?_⟩
    · simp only [query, List.forall_mem_cons, SelectItem.LabelFree, Expr.LabelFree,
        Expr.LabelFreeArguments, true_and, and_true]
      exact ⟨⟨fun _ => by decide +kernel, by simp [Expr.isNamed], fun _ => by decide +kernel⟩, by simp⟩
    · simp [query, Join.LabelFree, Expr.LabelFree]
    · simp [query, Expr.LabelFree]
    · simp [query]
    · simp [query, Expr.LabelFree]
  exact ⟨hparse, hfree, (parse_render_of_parse hparse hfree).1⟩

end Query
end FeatureSql.Sql
