import FeatureSql.Proofs.Translate.Check

/-! Trees that callers write down themselves. They are validated by their shape alone, so their text
is read again only if its parts can be read and a deletion ends with its condition. -/

set_option autoImplicit false

namespace FeatureSql

open Sql (Query)
open Reader (bind_of_some bind_of_none orElse_of_some orElse_of_none)

namespace Sql

/-- Where a further clause stands, the text of a statement neither ends nor goes on to its end. -/
theorem Ends.not_atEnd {n : Nat} {text : List Char} (h : Ends n text) (hne : text ≠ []) :
    symbol ";" text = none ∧ lexeme Reader.atEnd text = none := by
  cases h with
  | nil => exact absurd rfl hne
  | @word w rest hw =>
    obtain ⟨hall, hne, _⟩ := clauseWords_spec w (List.mem_of_mem_drop hw)
    cases hchars : w.toList with
    | nil => exact absurd hchars hne
    | cons c cs =>
      have hc : isWordChar c = true := by
        rw [hchars, List.all_cons, Bool.and_eq_true] at hall
        exact hall.1
      have hgap := isGap_of_isWordChar hc
      have hsign : c ≠ ';' := by
        rintro rfl
        cases hc
      constructor
      · exact (symbol_gap Gap.blank ";" _).trans (symbol_of_ne rfl hgap hsign)
      · exact (lexeme_gap Gap.blank _).trans (lexeme_cons hgap)

namespace Query

/-- The clauses behind the condition of a query are all empty. -/
structure EndsWithFilter (query : Query) : Prop where
  groupBy : query.groupBy = []
  orderBy : query.orderBy = []
  limit : query.limit = none
  offset : query.offset = none

/-- The text of the clauses behind the condition. -/
def lastClauses (query : Query) : List Char :=
  groupChars query.groupBy (orderChars query.orderBy (limitChars query.limit query.offset))

theorem lastClauses_ends (query : Query) : Ends 9 query.lastClauses :=
  group_ends (order_ends (limit_ends query.limit query.offset))

section Clauses
variable {β : Type} (word : String) (write : β → String) (hword : word.toList ≠ [])
include hword

theorem optionalClause_eq_nil (b : Option β) :
    (optionalClause word write b).toList = [] ↔ b = none := by
  cases b <;> simp [optionalClause, hword]

theorem listClause_eq_nil (bs : List β) : (listClause word write bs).toList = [] ↔ bs = [] := by
  cases bs <;> simp [listClause, hword]

end Clauses

theorem endsWithFilter_iff (query : Query) : query.EndsWithFilter ↔ query.lastClauses = [] := by
  have hgroup := listClause_eq_nil " GROUP BY " (Expr.render .standard) (by decide) query.groupBy
  have horder := listClause_eq_nil " ORDER BY " (OrderBy.render .standard) (by decide) query.orderBy
  have hcount := fun word => optionalClause_eq_nil word fun n : UInt64 => n.toNat.repr
  rw [lastClauses, groupChars, orderChars, limitChars, offsetChars, List.append_nil]
  simp only [List.append_eq_nil_iff, hgroup, horder, hcount " LIMIT " (by decide),
    hcount " OFFSET " (by decide)]
  constructor
  · rintro ⟨hgroup, horder, hlimit, hoffset⟩
    exact ⟨hgroup, horder, hlimit, hoffset⟩
  · rintro ⟨hgroup, horder, hlimit, hoffset⟩
    exact ⟨hgroup, horder, hlimit, hoffset⟩

section Deletion
variable {query : Query} {table : String} (hdelete : query.statement = .delete)
variable (htables : query.tables = [table]) (hjoins : query.joins = [])
include hdelete htables hjoins

theorem render_deletion_chars : (query.render .standard).toList = "DELETE".toList ++
    (" FROM ".toList ++ ((commas ([table].map writeTable)).toList ++
      filterChars query.filter query.lastClauses)) := by
  simp [Query.render, hdelete, Query.renderClauses, htables, hjoins, Query.listClause, lastClauses,
    filterChars, groupChars, orderChars, limitChars, offsetChars]

/-- Up to its condition a deletion is read, whatever comes behind. -/
theorem deleteReader_deletion (hfilter : ∀ e ∈ query.filter, e.WellFormed) :
    (Draft.selectReader <|> Draft.deleteReader <|> Draft.otherReader : Reader Draft)
      (query.render .standard).toList = some ({ query := {
        statement := .delete, tables := [table], filter := query.filter.map Expr.reread } },
          query.lastClauses) := by
  have hlast := query.lastClauses_ends
  have hword : ∀ rest, keyword "delete" ("DELETE".toList ++ (" FROM ".toList ++ rest)) =
      some ((), " FROM ".toList ++ rest) := fun rest => rfl
  have hselect : ∀ rest, Draft.selectReader ("DELETE".toList ++ (" FROM ".toList ++ rest)) = none :=
    fun rest => rfl
  have hfrom := tables_append (List.cons_ne_nil table []) (@filter_ends query.filter _ hlast)
  have hwhere := optional_filter hfilter hlast
  rw [render_deletion_chars hdelete htables hjoins, orElse_of_none (hselect _)]
  apply orElse_of_some
  rw [Draft.deleteReader, bind_of_some (hword _), bind_of_some hfrom, bind_of_some hwhere]
  rfl

theorem parse_deletion (hfilter : ∀ e ∈ query.filter, e.WellFormed) (h : ¬ query.EndsWithFilter) :
    parse .standard (query.render .standard) = .error .grammar := by
  have hmore : query.lastClauses ≠ [] := fun hnil => h ((endsWithFilter_iff query).mpr hnil)
  obtain ⟨hsemicolon, hend⟩ := query.lastClauses_ends.not_atEnd hmore
  have hread : Draft.reader (query.render .standard).toList = none := by
    have hdraft := deleteReader_deletion hdelete htables hjoins hfilter
    rw [Draft.reader, bind_of_some hdraft, bind_of_some (Reader.optional_of_none hsemicolon)]
    exact bind_of_none hend
  have hvalue : Draft.reader.value? (query.render .standard) = none := by
    rw [Reader.value?, hread]
    rfl
  unfold parse
  rw [hvalue]
  rfl

end Deletion

/-- The parts that the grammar has for a statement can stand for themselves: the condition and, in
a selection, its select list and what it groups and orders by. -/
structure HasReadableParts (query : Query) : Prop where
  filter : ∀ e ∈ query.filter, e.WellFormed
  select : query.statement = .select → SelectItem.ListWellFormed query.select
  groupBy : query.statement = .select → ∀ e ∈ query.groupBy, e.WellFormed
  orderBy : query.statement = .select → ∀ order ∈ query.orderBy, order.expression.WellFormed

theorem WellFormed.hasReadableParts {query : Query} (h : query.WellFormed) :
    query.HasReadableParts := by
  cases h with
  | select hselect _ hfilter hgroup horder =>
    exact ⟨hfilter, fun _ => hselect, fun _ => hgroup, fun _ => horder⟩
  | delete _ hfilter => exact ⟨hfilter, nofun, nofun, nofun⟩
  | other _ => exact ⟨nofun, nofun, nofun, nofun⟩

/-- A tree without what its statement does not write: the select list of a deletion. -/
def written (query : Query) : Query :=
  match query.statement with
  | .delete => { query with select := [] }
  | _ => query

theorem render_written (query : Query) (dialect : Dialect) :
    query.written.render dialect = query.render dialect := by
  obtain ⟨statement, select, tables, joins, filter, groupBy, orderBy, limit, offset⟩ := query
  cases statement <;> rfl

theorem validate_written (query : Query) : query.written.validate = query.validate := by
  obtain ⟨statement, select, tables, joins, filter, groupBy, orderBy, limit, offset⟩ := query
  cases statement <;> cases select <;> rfl

/-- What is written for a tree is read as the same statement on the same tables. -/
theorem reread_written (query : Query) :
    query.written.reread.statement = query.statement ∧ query.written.reread.tables = query.tables := by
  obtain ⟨statement, select, tables, joins, filter, groupBy, orderBy, limit, offset⟩ := query
  cases statement <;> exact ⟨rfl, rfl⟩

theorem HasReadableParts.wellFormed_written {query : Query} (h : query.HasReadableParts)
    (hvalid : query.validate = .ok ()) (hends : query.statement = .delete → query.EndsWithFilter) :
    query.written.WellFormed := by
  obtain ⟨hkind, ⟨table, htables⟩, hjoins⟩ := shape_of_validate hvalid
  obtain ⟨statement, select, tables, joins, filter, groupBy, orderBy, limit, offset⟩ := query
  obtain rfl : tables = [table] := htables
  obtain rfl : joins = [] := hjoins
  rcases hkind with rfl | rfl
  · exact .select (h.select rfl) (fun join hjoin => absurd hjoin List.not_mem_nil) h.filter
      (h.groupBy rfl) (h.orderBy rfl)
  · obtain ⟨rfl, rfl, rfl, rfl⟩ := hends rfl
    exact .delete (List.cons_ne_nil _ _) h.filter

end Query
end Sql

namespace Converter
variable {geostore : Geostore} {tree : Query} {conversion : Conversion}

theorem check_of_syntaxError {sql : String} {error : Sql.SyntaxError}
    (h : Query.parse .standard sql = .error error) :
    Converter.check { geostore } sql = .error .malformedQuery := by
  rw [Converter.check, Converter.parse, h]
  rfl

/-- What is written for a tree is read as that tree again, up to how it is grouped and labelled. -/
theorem check_written (hwell : tree.written.WellFormed) (hvalid : tree.validate = .ok ()) :
    Converter.check { geostore } (tree.render .standard) =
      .ok { query := tree.written.reread.render .standard, tree := tree.written.reread } := by
  have hparse := hwell.parse_render_reread
  rw [Query.render_written] at hparse
  exact check_eq_ok hparse ((Query.validate_reread _).trans ((Query.validate_written _).trans hvalid))

/-- A deletion that goes on behind its condition is written and not read again. -/
theorem check_deletion (hfilter : ∀ e ∈ tree.filter, e.WellFormed) (hvalid : tree.validate = .ok ())
    (hdelete : tree.statement = .delete) (h : ¬ tree.EndsWithFilter) :
    Converter.check { geostore } (tree.render .standard) = .error .malformedQuery := by
  obtain ⟨_, ⟨table, htables⟩, hjoins⟩ := Query.shape_of_validate hvalid
  exact check_of_syntaxError (Query.parse_deletion hdelete htables hjoins hfilter h)

/-- A check accepts what was written for a tree, as the same statement on the same table, just where
a deletion ends with its condition. -/
theorem check_write (hparts : tree.HasReadableParts)
    (h : Converter.write { geostore } tree = .ok conversion) :
    (∃ second, Converter.check { geostore } conversion.query = .ok second ∧
      second.tree.statement = tree.statement ∧
        ∃ table, tree.tables = [table] ∧ second.tree.tables = [table]) ↔
      (tree.statement = .delete → tree.EndsWithFilter) := by
  obtain ⟨hvalid, rfl⟩ := Query.ofQuery_eq_ok.mp h
  obtain ⟨_, ⟨table, htables⟩, _⟩ := Query.shape_of_validate hvalid
  constructor
  · rintro ⟨second, hsecond, _⟩ hdelete
    by_contra hends
    have hrefused := @check_deletion geostore tree hparts.filter hvalid hdelete hends
    cases hsecond.symm.trans hrefused
  · intro hends
    have hwell := hparts.wellFormed_written hvalid hends
    obtain ⟨hstatement, hsame⟩ := Query.reread_written tree
    exact ⟨_, check_written hwell hvalid, hstatement, table, htables, hsame.trans htables⟩

theorem check_write_called :
    let tree : Query := {
      select := [.computed (.call "f" [.number "1.5e3", .named "a" (.name "b")]) (some "x y")]
      tables := ["t"]
      filter := some (.comparison "IN" (.name "a") (.list [.number "1", .text "it's"]))
      limit := some 5 }
    ∃ conversion second, Converter.write {} tree = .ok conversion ∧
      conversion.query = "SELECT f(1.5e3, 'a'=b) AS \"x y\" FROM t WHERE a IN (1, 'it''s') LIMIT 5" ∧
      Converter.check {} conversion.query = .ok second ∧ second.tree.statement = .select ∧
        second.tree.tables = ["t"] := by
  intro tree
  have htext : tree.render .standard =
      "SELECT f(1.5e3, 'a'=b) AS \"x y\" FROM t WHERE a IN (1, 'it''s') LIMIT 5" := by decide +kernel
  have hparse : Query.parse .standard (tree.render .standard) = .ok tree := by decide +kernel
  have hparts := (Query.wellFormed_of_parse hparse).hasReadableParts
  have hwrite : Converter.write {} tree = .ok { query := tree.render .standard, tree } := rfl
  obtain ⟨second, hsecond, hstatement, table, htable, hsame⟩ :=
    (check_write hparts hwrite).mpr fun h => nomatch h
  cases htable
  exact ⟨_, second, hwrite, htext, hsecond, hstatement, hsame⟩

/-- Numbers are written as they stand, and a check may find no query in what they make of the text. -/
theorem write_notChecked :
    let tree : Query :=
      { select := [.wildcard], tables := ["t"], filter := some (.number "1; DROP TABLE t") }
    ∃ conversion, Converter.write {} tree = .ok conversion ∧
      conversion.query = "SELECT * FROM t WHERE 1; DROP TABLE t" ∧
        Converter.check {} conversion.query = .error .malformedQuery := by
  intro tree
  have htext : tree.render .standard = "SELECT * FROM t WHERE 1; DROP TABLE t" := by decide +kernel
  have hparse : Query.parse .standard (tree.render .standard) = .error .grammar := by decide +kernel
  exact ⟨_, rfl, htext, check_of_syntaxError hparse⟩

/-- They may also make it a query on a table that the tree does not name. -/
theorem write_otherTable :
    let tree : Query := {
      select := [.computed (.number "a FROM secret WHERE b='") none]
      tables := ["t"]
      filter := some (.number "'") }
    ∃ conversion second, Converter.write {} tree = .ok conversion ∧
      conversion.query = "SELECT a FROM secret WHERE b=' FROM t WHERE '" ∧
        Converter.check {} conversion.query = .ok second ∧ second.tree.tables = ["secret"] := by
  intro tree
  let other : Query := {
    select := [.column "a" none]
    tables := ["secret"]
    filter := some (.comparison "=" (.name "b") (.text " FROM t WHERE ")) }
  have htext : tree.render .standard = "SELECT a FROM secret WHERE b=' FROM t WHERE '" := by
    decide +kernel
  have hparse : Query.parse .standard (tree.render .standard) = .ok other := by decide +kernel
  exact ⟨_, _, rfl, htext, check_eq_ok hparse rfl, rfl⟩

end Converter
end FeatureSql
