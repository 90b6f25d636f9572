import FeatureSql.Proofs.Expr.Constant
import FeatureSql.Proofs.Query.Occurrence
import FeatureSql.Proofs.Translate.Check

/-! How the names and the constants of a selection come through a check. Inside of an expression the
constants in capitals stay bare, whether they were read from bare words or from quotes; as the name
of a column they are put in quotes. -/

set_option autoImplicit false

namespace FeatureSql

open Sql (Query Expr Shows Statement writeName quoteName isConstant normalizeConstant constants)
open Sql.Expr (Frames Whole)
open Sql.Query (Clause Column)

namespace Sql.Expr

/-- A name inside of an expression is written as it is if it is a constant. -/
theorem render_name (name : String) :
    (Expr.name name).render .standard = if name ∈ constants then name else writeName name := by
  rw [render]
  rfl

theorem writeName_eq_or (name : String) : writeName name = quoteName name ∨
    (writeName name = name ∧ isConstant name.toList = false) := by
  rw [writeName]
  split
  case isTrue hbare => exact Or.inr ⟨rfl, isConstant_of_isBareName hbare⟩
  case isFalse => exact Or.inl rfl

end Sql.Expr

namespace Conversion

/-- The text of a selection has each of its names at the place of that name alone: no quotes are
open in front of it, no other name touches it, and another name would stand at the same place. -/
structure Spells (conversion : Conversion) : Prop where
  text : conversion.query = conversion.tree.render .standard
  value : ∀ (clause : Clause) (frames : Frames) (query : Query) (name : String),
    conversion.tree = clause.put query (frames.plug (.name name)) →
      Shows (fun other => (Expr.name other).render .standard)
        fun other => (clause.put query (frames.plug (.name other))).render .standard
  column : ∀ (column : Column) (query : Query) (name : String),
    conversion.tree = column.put query name →
      Shows writeName fun other => (column.put query other).render .standard

theorem Spells.of_wellFormed {conversion : Conversion} (h : conversion.tree.WellFormed)
    (htext : conversion.query = conversion.tree.render .standard)
    (hselect : conversion.tree.statement = .select) : conversion.Spells where
  text := htext
  value := by
    intro clause frames query name htree
    rw [htree] at h hselect
    have hstatement : query.statement = .select := by cases clause <;> exact hselect
    have hplaced : Expr.Placed (frames.plug (.name name)) := ⟨_, Clause.inner h hstatement⟩
    exact Clause.shows h hstatement (Frames.shows hplaced fun _ => rfl)
  column := by
    intro column query name htree
    rw [htree] at h hselect
    have hstatement : query.statement = .select := by cases column <;> exact hselect
    exact Column.shows h hstatement

end Conversion

namespace Converter

/-- Names in quotes and bare constants are read wherever an operand may stand, and the two are the
same tree just where the name is the constant in capitals. A check writes that tree as the bare
constant inside of an expression, and in quotes where it is a column. -/
theorem check_spells (geostore : Geostore) :
    (∀ inner name, Whole inner 7 (quoteName name).toList (.name name)) ∧
    (∀ inner word, isConstant word.toList = true →
      Whole inner 7 word.toList (.name (normalizeConstant word)) ∧
        normalizeConstant word ∈ constants) ∧
    (∀ name word, isConstant word.toList = true →
      (Expr.parse (quoteName name) = Expr.parse word ↔ name = normalizeConstant word)) ∧
    (∀ name, (Expr.name name).render .standard =
      if name ∈ constants then name else writeName name) ∧
    (∀ name, writeName name = quoteName name ∨
      (writeName name = name ∧ isConstant name.toList = false)) ∧
    ∀ sql conversion, Converter.check { geostore } sql = .ok conversion →
      conversion.tree.statement = .select → conversion.Spells := by
  refine ⟨Expr.whole_quoted, ?_, ?_, Expr.render_name, Expr.writeName_eq_or, ?_⟩
  · exact fun inner word h => ⟨Expr.whole_constant inner h, Sql.normalizeConstant_mem h⟩
  · exact fun name word h => Expr.parse_quoted_eq_iff name h
  · intro sql conversion h hselect
    obtain ⟨hwell, _, htext⟩ := (Emits.check h).tree
    exact .of_wellFormed hwell htext hselect

/-- A constant among the arguments of a call, and a name in quotes that is no constant yet. -/
theorem check_spells_coalesce :
    let sql := "select coalesce(\"null\", null) from t where b is true"
    let tree (name : String) : Query := {
      select := [.computed (.call "coalesce" [.name "null", .name name]) none]
      tables := ["t"]
      filter := some (.comparison "IS" (.name "b") (.name "TRUE")) }
    ∃ conversion, Converter.check {} sql = .ok conversion ∧
      conversion.query = "SELECT coalesce(\"null\", NULL) FROM t WHERE b IS TRUE" ∧
      (Shows (fun other => (Expr.name other).render .standard)
        fun other => (tree other).render .standard) ∧
      Expr.parse (quoteName "null") ≠ Expr.parse "null" := by
  intro sql tree
  have hparse : Query.parse .standard sql = .ok (tree "NULL") := by decide +kernel
  have hcheck := @check_eq_ok Geostore.disabled sql (tree "NULL") hparse rfl
  obtain ⟨_, _, hsame, _, _, hspells⟩ := check_spells Geostore.disabled
  have hshows := (hspells _ _ hcheck rfl).value (.computed [] [] none)
    [.argument "coalesce" [.name "null"] []] (tree "NULL") "NULL" rfl
  have hword : isConstant "null".toList = true := by decide
  have hcapitals : "null" ≠ normalizeConstant "null" := by decide
  exact ⟨_, hcheck, by decide +kernel, hshows, fun h => hcapitals ((hsame _ _ hword).mp h)⟩

/-- A name in quotes turns into a constant, and constants turn into names in quotes. -/
theorem check_spells_otherwise :
    Expr.parse (quoteName "NULL") = Expr.parse "null" ∧
    (∃ conversion, Converter.check {} "SELECT * FROM t WHERE \"NULL\" = 1" = .ok conversion ∧
      conversion.query = "SELECT * FROM t WHERE NULL=1") ∧
    ∃ conversion, Converter.check {} "SELECT null, count(true) FROM t" = .ok conversion ∧
      conversion.query = "SELECT \"NULL\", count(\"TRUE\") FROM t" := by
  let quoted : Query := {
    select := [.wildcard], tables := ["t"]
    filter := some (.comparison "=" (.name "NULL") (.number "1")) }
  let bare : Query := {
    select := [.column "NULL" none, .aggregate .count (.column "TRUE") none], tables := ["t"] }
  have hquoted : Query.parse .standard "SELECT * FROM t WHERE \"NULL\" = 1" = .ok quoted := by
    decide +kernel
  have hbare : Query.parse .standard "SELECT null, count(true) FROM t" = .ok bare := by
    decide +kernel
  refine ⟨by decide +kernel, ⟨_, check_eq_ok hquoted rfl, ?_⟩, ⟨_, check_eq_ok hbare rfl, ?_⟩⟩
  · decide +kernel
  · decide +kernel

end Converter
end FeatureSql
