import FeatureSql.Proofs.Query.RoundTrip
import FeatureSql.Proofs.Spatial.Condition
import FeatureSql.Proofs.Spatial.Predicate

/-! Injected filters behave as a stack, also where a query is written and read again between two
injections. -/

set_option autoImplicit false

namespace FeatureSql.Spatial

open Sql (Expr Query)
open Sql.Expr (leftGrouped)

/-- A filter and the column that is tested against it. -/
structure Injection where
  filter : SpatialFilter
  column : SpatialColumn

def Injection.predicate (injection : Injection) : Expr :=
  Spatial.predicate injection.filter injection.column

/-- The predicates of injections, the last one first, in front of a condition. -/
def stack (condition : Option Expr) : List Injection → Option Expr
  | [] => condition
  | injection :: earlier => some (inFrontOf (stack condition earlier) injection.predicate)

/-- A condition after its first spatial predicate is removed so many times. -/
def takeOff : Nat → Option Expr → Option Expr
  | 0, condition => condition
  | n + 1, condition => takeOff n (condition >>= remove)

theorem takeOff_congr {first second : Option Expr}
    (h : first.map leftGrouped = second.map leftGrouped) (n : Nat) :
    (takeOff n first).map leftGrouped = (takeOff n second).map leftGrouped := by
  induction n generalizing first second with
  | zero => exact h
  | succ n ih =>
    apply ih
    rw [← bind_remove_leftGrouped first, h, bind_remove_leftGrouped]

theorem takeOff_stack (condition : Option Expr) (earlier : List Injection) {lasts : List Injection}
    (h : ∀ injection ∈ lasts, IsReadable injection.filter.geometry) :
    takeOff lasts.length (stack condition (lasts ++ earlier)) = stack condition earlier := by
  induction lasts with
  | nil => rfl
  | cons injection lasts ih =>
    have hremove : remove (inFrontOf (stack condition (lasts ++ earlier)) injection.predicate) =
        stack condition (lasts ++ earlier) :=
      remove_inFrontOf (takeOut?_predicate injection.column (h injection List.mem_cons_self))
    rw [List.length_cons, List.cons_append, stack, takeOff, Option.bind_eq_bind, Option.bind_some,
      hremove]
    exact ih fun i hi => h i (List.mem_cons_of_mem injection hi)

/-- The last injection is the one that is found. -/
theorem find?_stack (condition : Option Expr) (earlier : List Injection) {injection : Injection}
    (h : IsReadable injection.filter.geometry) :
    stack condition (injection :: earlier) >>= find? = some injection.filter := by
  rw [stack, Option.bind_eq_bind, Option.bind_some]
  exact find?_inFrontOf (find?_predicate injection.column h)

/-- A step of a run: a filter is injected, or the query is written and read again. -/
inductive Hop where
  | inject (injection : Injection)
  | reparse

namespace Hop

def run (query : Query) : Hop → Except Sql.SyntaxError Query
  | .inject injection => .ok (Spatial.inject query injection.filter injection.column)
  | .reparse => Query.parse .standard (query.render .standard)

/-- The injections up to and with this step, the last one first. -/
def record (earlier : List Injection) : Hop → List Injection
  | .inject injection => injection :: earlier
  | .reparse => earlier

end Hop

def run (query : Query) (hops : List Hop) : Except Sql.SyntaxError Query := hops.foldlM Hop.run query

/-- The injections of a run, the last one first. -/
def injections (hops : List Hop) : List Injection := hops.foldl Hop.record []

theorem wellFormed_inject {query : Query} (h : query.WellFormed)
    (hkind : query.statement = .select ∨ query.statement = .delete) (filter : SpatialFilter)
    (column : SpatialColumn) : (Spatial.inject query filter column).WellFormed := by
  have hp := wellFormed_predicate filter column
  cases h with
  | select hselect hjoins hfilter hgroup horder =>
    refine .select hselect hjoins ?_ hgroup horder
    intro e he
    exact Option.some.inj he ▸ wellFormed_inFrontOf hp hfilter
  | delete htables hfilter =>
    refine .delete htables ?_
    intro e he
    exact Option.some.inj he ▸ wellFormed_inFrontOf hp hfilter
  | other hother => rcases hkind with hkind | hkind <;> cases hkind

/-- A query that differs from the first one by its injections, and in how its chains are grouped. -/
structure Stacked (start : Query) (earlier : List Injection) (query : Query) : Prop where
  wellFormed : query.WellFormed
  kind : query.statement = .select ∨ query.statement = .delete
  labelFree : query.LabelFree
  grouped : query.leftGrouped = { start with filter := stack start.filter earlier }.leftGrouped

namespace Stacked
variable {start query : Query} {earlier : List Injection}

theorem filter (h : Stacked start earlier query) :
    query.filter.map leftGrouped = (stack start.filter earlier).map leftGrouped :=
  congrArg Query.filter h.grouped

theorem inject (h : Stacked start earlier query) (injection : Injection) :
    Stacked start (injection :: earlier)
      (Spatial.inject query injection.filter injection.column) where
  wellFormed := wellFormed_inject h.wellFormed h.kind injection.filter injection.column
  kind := h.kind
  labelFree :=
    { h.labelFree with
      filter := fun e he => Option.some.inj he ▸ labelFree_inFrontOf
        (labelFree_predicate injection.filter injection.column) h.labelFree.filter }
  grouped := by
    have hfilter := leftGrouped_inFrontOf_congr h.filter injection.predicate
    calc (Spatial.inject query injection.filter injection.column).leftGrouped
      _ = { query.leftGrouped with
            filter := some (inFrontOf query.filter injection.predicate).leftGrouped } := rfl
      _ = { ({ start with filter := stack start.filter earlier } : Query).leftGrouped with
            filter := some (inFrontOf (stack start.filter earlier) injection.predicate).leftGrouped } := by
        rw [h.grouped, hfilter]

theorem reparse (h : Stacked start earlier query) :
    ∃ next, Hop.reparse.run query = .ok next ∧ Stacked start earlier next := by
  have hparse := h.wellFormed.parse_render h.labelFree
  refine ⟨query.leftGrouped, hparse, ?_⟩
  exact {
    wellFormed := Query.wellFormed_of_parse hparse
    kind := h.kind
    labelFree := h.labelFree.leftGrouped
    grouped := (Query.leftGrouped_leftGrouped query).trans h.grouped }

theorem step (h : Stacked start earlier query) (hop : Hop) :
    ∃ next, hop.run query = .ok next ∧ Stacked start (hop.record earlier) next := by
  cases hop with
  | inject injection => exact ⟨_, rfl, h.inject injection⟩
  | reparse => exact h.reparse

theorem run (h : Stacked start earlier query) (hops : List Hop) :
    ∃ final, Spatial.run query hops = .ok final ∧
      Stacked start (hops.foldl Hop.record earlier) final := by
  induction hops generalizing query earlier with
  | nil => exact ⟨query, rfl, h⟩
  | cons hop hops ih =>
    obtain ⟨next, hnext, hstacked⟩ := h.step hop
    obtain ⟨final, hfinal, hlast⟩ := ih hstacked
    refine ⟨final, ?_, hlast⟩
    rw [Spatial.run, List.foldlM_cons, hnext]
    exact hfinal

end Stacked

theorem run_stacks {mode : Sql.Mode} {sql : String} {start : Query}
    (hparse : Query.parse mode sql = .ok start)
    (hkind : start.statement = .select ∨ start.statement = .delete) (hfree : start.LabelFree)
    (hops : List Hop) : ∃ final, run start hops = .ok final ∧
      final.leftGrouped = { start with filter := stack start.filter (injections hops) }.leftGrouped ∧
      ∀ lasts earlier, injections hops = lasts ++ earlier →
        (∀ injection ∈ lasts, IsReadable injection.filter.geometry) →
          (takeOff lasts.length final.filter).map leftGrouped =
              (stack start.filter earlier).map leftGrouped ∧
            ∀ injection ∈ earlier.head?, IsReadable injection.filter.geometry →
              takeOff lasts.length final.filter >>= find? = some injection.filter := by
  have hstart : Stacked start [] start :=
    ⟨Query.wellFormed_of_parse hparse, hkind, hfree, rfl⟩
  obtain ⟨final, hrun, hstacked⟩ := hstart.run hops
  refine ⟨final, hrun, hstacked.grouped, ?_⟩
  intro lasts earlier hsplit hread
  have hrest : (takeOff lasts.length final.filter).map leftGrouped =
      (stack start.filter earlier).map leftGrouped := by
    rw [takeOff_congr hstacked.filter, ← takeOff_stack start.filter earlier hread, ← hsplit]
    rfl
  refine ⟨hrest, ?_⟩
  intro injection hhead hreadable
  obtain ⟨others, rfl⟩ := List.head?_eq_some_iff.mp hhead
  rw [← bind_find?_leftGrouped, hrest, bind_find?_leftGrouped]
  exact find?_stack start.filter others hreadable

/-- An `OR` in the first condition, and columns of both kinds. -/
theorem run_stacks_twice :
    let condition : Expr :=
      .logical .or (.comparison "=" (.name "x") (.number "1")) (.name "y")
    let start : Query := { select := [.column "a" none], tables := ["t"], filter := some condition }
    let point : Json := .obj [("type", .str "Point"), ("coordinates", .arr [.int 1, .int (-2)])]
    let first : Injection := { filter := { geometry := point, srid := 3857 }, column := .raster }
    let last : Injection := { filter := { geometry := .obj [] }, column := .vector }
    ∃ final, run start [.inject first, .reparse, .inject last, .reparse] = .ok final ∧
      final.filter.map leftGrouped =
        some (.logical .and (.logical .and last.predicate first.predicate) condition) ∧
      final.filter >>= find? = some last.filter ∧
      takeOff 1 final.filter >>= find? = some first.filter ∧
      (takeOff 2 final.filter).map leftGrouped = some condition := by
  intro condition start point first last
  have hparse : Query.parse .standard "select a from t where x = 1 or y" = .ok start := by
    decide +kernel
  have hfree : start.LabelFree := by
    refine ⟨?_, by simp [start], ?_, by simp [start], by simp [start]⟩
    · simp [start, Sql.SelectItem.LabelFree]
    · rintro e he
      cases he
      exact ⟨⟨True.intro, True.intro⟩, True.intro⟩
  have hpoint : IsReadable point := by
    refine .of_exact (.obj (by decide) ?_) rfl
    simp only [List.forall_mem_cons]
    refine ⟨.str _ _, .arr ?_, by simp⟩
    simp only [List.forall_mem_cons]
    exact ⟨.int _ (by decide) (by decide), .int _ (by decide) (by decide), by simp⟩
  have hempty : IsReadable (.obj []) := .of_exact (.obj (by simp) (by simp)) rfl
  obtain ⟨final, hrun, hgrouped, hstack⟩ := run_stacks hparse (Or.inl rfl) hfree
    [.inject first, .reparse, .inject last, .reparse]
  have hlast := hstack [] [last, first] rfl (by simp)
  have hfirst := hstack [last] [first] rfl (by simpa using hempty)
  have hnone := hstack [last, first] [] rfl (by simpa using ⟨hempty, hpoint⟩)
  exact ⟨final, hrun, congrArg Query.filter hgrouped, hlast.2 last rfl hempty,
    hfirst.2 first rfl hpoint, hnone.1⟩

end FeatureSql.Spatial
