import FeatureSql.Proofs.Query.Codec
import FeatureSql.Proofs.Translate.Check

/-! Trees that a check hands out, handed back as JSON text. They come back as they were unless they
nest deeper than a text may, as the tree of a long condition does. -/

set_option autoImplicit false

namespace FeatureSql

open Sql (Expr Query)

namespace Sql.Expr

/-- One condition after another, all of which are to hold. -/
def conjoin (first : Expr) (others : List Expr) : Expr := others.foldl (.logical .and) first

theorem nesting_logical (operator : Logical) (left right : Expr) :
    (logical operator left right).toJson.nesting =
      max left.toJson.nesting right.toJson.nesting + 1 := by
  simp [toJson, tagged, Json.nesting, Json.nestingMembers]

/-- Side by side in the text, conditions stand one inside the other in the tree. -/
theorem nesting_conjoin {first : Expr} {others : List Expr}
    (h : ∀ e ∈ others, e.toJson.nesting ≤ first.toJson.nesting) :
    (first.conjoin others).toJson.nesting = first.toJson.nesting + others.length := by
  induction others generalizing first with
  | nil => rfl
  | cons e others ih =>
    rw [List.forall_mem_cons] at h
    have hstep : (logical .and first e).toJson.nesting = first.toJson.nesting + 1 := by
      rw [nesting_logical, Nat.max_eq_left h.1]
    have hothers : ∀ e' ∈ others, e'.toJson.nesting ≤ (logical .and first e).toJson.nesting :=
      fun e' he => hstep ▸ Nat.le_succ_of_le (h.2 e' he)
    have hrest : (conjoin first (e :: others)).toJson.nesting = _ := ih hothers
    rw [hrest, hstep, List.length_cons]
    omega

theorem wellFormed_conjoin {first : Expr} {others : List Expr} (hfirst : first.WellFormed)
    (h : ∀ e ∈ others, e.WellFormed) : (first.conjoin others).WellFormed := by
  induction others generalizing first with
  | nil => exact hfirst
  | cons e others ih =>
    rw [List.forall_mem_cons] at h
    exact ih (.logical .and hfirst h.1) h.2

theorem needsParens_and {e : Expr} (h : logicalRank .and ≤ e.rank) :
    needsParens (logicalRank .and) e = false := by
  rw [← Bool.not_eq_true, needsParens_iff (logicalRank_ne .and)]
  exact Nat.not_lt.mpr h

section Tight
variable {others : List Expr} (h : ∀ e ∈ others, logicalRank .and < e.rank)
include h

theorem reread_conjoin (first : Expr) :
    (first.conjoin others).reread = first.reread.conjoin (others.map reread) := by
  induction others generalizing first with
  | nil => rfl
  | cons e others ih =>
    rw [List.forall_mem_cons] at h
    have hrest : (conjoin first (e :: others)).reread = _ := ih h.2 (.logical .and first e)
    have hrank : e.reread.rank ≠ logicalRank .and := by
      rw [rank_reread]
      exact Nat.ne_of_gt h.1
    rw [hrest, reread_logical, attach_of_ne _ hrank]
    rfl

theorem render_conjoin (dialect : Dialect) (first : Expr)
    (hfirst : logicalRank .and ≤ first.rank) : (first.conjoin others).render dialect =
      " AND ".intercalate ((first :: others).map (render dialect)) := by
  induction others generalizing first with
  | nil => simp [conjoin]
  | cons e others ih =>
    rw [List.forall_mem_cons] at h
    have hleft := needsParens_and hfirst
    have hright := needsParens_and (Nat.le_of_lt h.1)
    have hrest : (conjoin first (e :: others)).render dialect = _ :=
      ih h.2 (.logical .and first e) (Nat.le_refl _)
    have hword : " " ++ Logical.and.word ++ " " = " AND " := by decide
    rw [hrest, List.map_cons, List.map_cons, List.map_cons, render_logical, hleft, hright,
      String.intercalate_cons_append, String.intercalate_cons_cons, ← hword]
    simp only [parenthesize, String.append_assoc, Bool.false_eq_true, if_false]

end Tight

end Sql.Expr

namespace Sql.Query

/-- The rows of a table in which all these columns are true. -/
def whereAll (table first : String) (others : List String) : Query :=
  { select := [.wildcard], tables := [table]
    filter := some ((Expr.name first).conjoin (others.map .name)) }

section WhereAll
variable (table first : String) (others : List String)

theorem rank_name (name : String) : Expr.logicalRank .and < (Expr.name name).rank := by
  show 2 < 10
  omega

theorem rank_names : ∀ e ∈ others.map Expr.name, Expr.logicalRank .and < e.rank :=
  List.forall_mem_map.mpr fun name _ => rank_name name

theorem wellFormed_whereAll : (whereAll table first others).WellFormed := by
  have hnames : ∀ e ∈ others.map Expr.name, e.WellFormed :=
    List.forall_mem_map.mpr fun name _ => .name name
  have hfilter := Expr.wellFormed_conjoin (.name first) hnames
  apply WellFormed.select
  · exact .inr ⟨List.cons_ne_nil _ _, by simp [SelectItem.WellFormed]⟩
  · simp
  · simpa using hfilter
  · simp
  · simp

theorem reread_whereAll : (whereAll table first others).reread = whereAll table first others := by
  have hfilter := Expr.reread_conjoin (rank_names others) (.name first)
  rw [List.map_map] at hfilter
  rw [reread_eq, whereAll, Option.map_some, hfilter]
  rfl

theorem render_whereAll : (whereAll table first others).render .standard =
    "SELECT * FROM " ++ writeTable table ++ " WHERE " ++
      " AND ".intercalate ((first :: others).map fun name => (Expr.name name).render .standard) := by
  have hfilter := Expr.render_conjoin (rank_names others) .standard (.name first)
    (Nat.le_of_lt (rank_name first))
  rw [← List.map_cons, List.map_map] at hfilter
  have hhead : "SELECT * FROM " = "SELECT " ++ ("*" ++ " FROM ") := by decide
  simp only [render, renderClauses, whereAll, listClause, optionalClause, hfilter, commas,
    SelectItem.render, List.map_cons, List.map_nil, String.intercalate_singleton, String.join_nil,
    hhead, String.append_assoc, String.append_empty]
  rfl

theorem nesting_whereAll :
    (whereAll table first others).toJson.nesting = max (others.length + 2) 3 := by
  have hnames : ∀ e ∈ others.map Expr.name, e.toJson.nesting ≤ (Expr.name first).toJson.nesting :=
    List.forall_mem_map.mpr fun name _ => Nat.le_refl 1
  have hfilter := Expr.nesting_conjoin hnames
  rw [List.length_map] at hfilter
  have hname : (Expr.name first).toJson.nesting = 1 := rfl
  simp [toJson, whereAll, Json.optionalMember, Json.listMember, SelectItem.toJson, Statement.toJson,
    Json.nesting, Json.nestingMembers, Json.nestingItems, hfilter, hname]
  omega

end WhereAll
end Sql.Query

/-- What is written in full is read from its text, or it nests too deep and is refused. -/
theorem decode_compact {α : Type} {read : Json → Option α} {json : Json} {a : α}
    (h : json.IsExact) (hread : read json = some a) :
    decode read json.compact = if json.nesting ≤ Json.maxDepth then .ok a else .error .json := by
  have htext := h.ofText?_compact
  by_cases hdepth : json.nesting ≤ Json.maxDepth
  · rw [if_pos hdepth] at htext ⊢
    have hvalue : Json.ofText? json.compact >>= read = some a := htext ▸ hread
    delta decode
    rw [hvalue]
  · rw [if_neg hdepth] at htext ⊢
    have hvalue : Json.ofText? json.compact >>= read = none := htext ▸ rfl
    delta decode
    rw [hvalue]

namespace Converter

section Check
variable {converter : Converter} {sql : String} {conversion : Conversion}

theorem write_tree (h : converter.check sql = .ok conversion) :
    converter.write conversion.tree = .ok conversion := by
  obtain ⟨tree, _, h⟩ := bind_eq_ok.mp h
  obtain ⟨hvalid, rfl⟩ := Query.ofQuery_eq_ok.mp h
  exact Query.ofQuery_eq_ok.mpr ⟨hvalid, rfl⟩

/-- The tree of a check, written as JSON text and read again, gives that check's own answer if it
nests no deeper than texts are read, and is refused otherwise. -/
theorem write_handedBack (h : converter.check sql = .ok conversion) :
    (do converter.write (← decode Query.ofJson? conversion.tree.toJson.compact)) =
      if conversion.tree.toJson.nesting ≤ Json.maxDepth then .ok conversion
      else .error .json := by
  rw [decode_compact conversion.tree.isExact_toJson conversion.tree.ofJson?_toJson]
  split
  · exact write_tree h
  · rfl

end Check

theorem write_handedBack_ordered :
    let sql := "select a from t where b > 1 and not c order by a desc"
    ∃ conversion, Converter.check {} sql = .ok conversion ∧
      conversion.query = "SELECT a FROM t WHERE b>1 AND NOT c ORDER BY a DESC" ∧
      (do Converter.write {} (← decode Query.ofJson? conversion.tree.toJson.compact)) =
        .ok conversion := by
  intro sql
  let tree : Query := {
    select := [.column "a" none]
    tables := ["t"]
    filter := some (.logical .and (.comparison ">" (.name "b") (.number "1")) (.not (.name "c")))
    orderBy := [{ expression := .name "a", direction := some .desc }] }
  have hparse : Query.parse .standard sql = .ok tree := by decide +kernel
  have hcheck := @check_eq_ok Geostore.disabled sql tree hparse rfl
  have hdepth : tree.toJson.nesting ≤ Json.maxDepth := by decide
  exact ⟨_, hcheck, by decide +kernel, (write_handedBack hcheck).trans (if_pos hdepth)⟩

/-- Columns side by side in a condition are accepted however many there are. Up to 126 of them can
be handed back, and more cannot, although no part of the condition is nested. -/
theorem whereAll_handedBack {geostore : Geostore} (table first : String) (others : List String) :
    let sql := (Query.whereAll table first others).render .standard
    ∃ conversion, Converter.check { geostore } sql = .ok conversion ∧ conversion.query = sql ∧
      (do Converter.write { geostore } (← decode Query.ofJson? conversion.tree.toJson.compact)) =
        if others.length < 126 then .ok conversion else .error .json := by
  intro sql
  let tree := Query.whereAll table first others
  have hparse : Query.parse .standard sql = .ok tree := by
    rw [(Query.wellFormed_whereAll table first others).parse_render_reread,
      Query.reread_whereAll]
  have hdepth : tree.toJson.nesting ≤ Json.maxDepth ↔ others.length < 126 := by
    rw [Query.nesting_whereAll, Json.maxDepth]
    omega
  refine ⟨_, check_eq_ok hparse rfl, rfl, ?_⟩
  rw [decode_compact tree.isExact_toJson tree.ofJson?_toJson]
  simp only [hdepth]
  split <;> rfl

theorem longCondition_not_handedBack :
    let sql := "SELECT * FROM t WHERE " ++ " AND ".intercalate (List.replicate 127 "a")
    ∃ conversion, Converter.check {} sql = .ok conversion ∧ conversion.query = sql ∧
      (do Converter.write {} (← decode Query.ofJson? conversion.tree.toJson.compact)) =
        .error .json := by
  intro sql
  have ha : (Expr.name "a").render .standard = "a" := by decide
  have hhead : "SELECT * FROM " ++ Sql.writeTable "t" ++ " WHERE " = "SELECT * FROM t WHERE " := by
    decide
  have hrender : (Query.whereAll "t" "a" (List.replicate 126 "a")).render .standard = sql := by
    rw [Query.render_whereAll, ← List.replicate_succ, List.map_replicate, ha, hhead]
  have hlength : ¬ (List.replicate 126 "a").length < 126 := by
    rw [List.length_replicate]
    omega
  obtain ⟨conversion, hcheck, hquery, hback⟩ :=
    @whereAll_handedBack Geostore.disabled "t" "a" (List.replicate 126 "a")
  rw [hrender] at hcheck hquery
  exact ⟨conversion, hcheck, hquery, hback.trans (if_neg hlength)⟩

end Converter
end FeatureSql
