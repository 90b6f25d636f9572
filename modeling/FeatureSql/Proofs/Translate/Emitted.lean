import FeatureSql.Proofs.Translate.Reading

/-! The SQL text of a feature service query says what the tree beside it says, whatever texts the
parameters hold: none of them can end a name or a literal, or begin a clause. -/

set_option autoImplicit false

namespace FeatureSql

open Sql (Expr SelectItem)

/-- The text reads back as the query that was read from the parameters, on the one table that they
name, and every other clause comes from the parameter that stands for it. -/
theorem Conversion.parse_query {fs : Feature.Query} {given : Option SpatialFilter}
    {conversion : Conversion} (h : Conversion.ofFeature .standard fs given = .ok conversion)
    (halone : ∀ columns, .distinct columns ∈ conversion.tree.select →
      conversion.tree.select = [.distinct columns])
    (hfree : conversion.tree.LabelFree) :
    fs.IsReadAs given conversion.tree ∧
      ∃ name read, fs.tableName = some name ∧
        Sql.Query.parse .standard conversion.query = .ok read ∧
        read = conversion.tree.leftGrouped ∧
        read.statement = .select ∧ read.tables = [trim name] ∧ read.joins = [] := by
  obtain ⟨tree, htree, _, rfl⟩ := Conversion.ofFeature_eq_ok.mp h
  have hreads := Feature.Query.toSql_eq_ok.mp htree
  have hparse := (hreads.wellFormed (hreads.listWellFormed halone)).parse_render hfree
  obtain ⟨table, htable, htables⟩ := hreads.tables
  obtain ⟨⟨name, hname, rfl⟩, _⟩ := Feature.given?_eq_some.mp htable
  have hjoins : tree.leftGrouped.joins = [] := by
    rw [Sql.Query.leftGrouped, hreads.joins, List.map_nil]
  exact ⟨hreads, name, _, hname, hparse, rfl, hreads.statement, htables, hjoins⟩

/-- A table, a column, an output and a geometry with quotes, ends of statements and comments. -/
theorem Conversion.parse_query_quoted :
    let fs : Feature.Query := {
      tableName := some " t\"; DELETE FROM u -- "
      outStatistics := [{ field := "n) FROM u; --", type := "Sum", output := some "s\" FROM u '" }] }
    let area : SpatialFilter := { geometry := .obj [("'); --", .str "\x22 OR 1=1")], srid := -1 }
    let tree : Sql.Query := {
      select := [.aggregate .sum (.column "n) FROM u; --") (some "s\" FROM u '")]
      tables := ["t\"; DELETE FROM u --"]
      filter := some (Spatial.predicate area .vector) }
    ∃ conversion, Conversion.ofFeature .standard fs (some area) = .ok conversion ∧
      conversion.tree = tree ∧ tree.LabelFree ∧
      Sql.Query.parse .standard conversion.query = .ok tree := by
  intro fs area tree
  have htree : fs.toSql (some area) = .ok tree := eq_ok_of_toOption (by decide +kernel)
  have hconversion := Conversion.ofFeature_eq_ok.mpr ⟨tree, htree, rfl, rfl⟩
  have hfree : tree.LabelFree := by
    refine ⟨?_, by simp [tree], ?_, by simp [tree], by simp [tree]⟩
    · simp [tree, SelectItem.LabelFree]
    · intro e he
      exact Option.some.inj he ▸ Spatial.labelFree_predicate area .vector
  obtain ⟨_, name, read, _, hparse, rfl, _⟩ :=
    Conversion.parse_query hconversion (by simp [tree]) hfree
  exact ⟨_, hconversion, rfl, hfree, hparse⟩

end FeatureSql
