import FeatureSql.Proofs.Spatial.Truth
import FeatureSql.Proofs.Translate.Given

/-! What the parameters of a query ask for, next to what its condition asked for. A feature service
returns what meets the geometry and the condition that are its parameters. -/

set_option autoImplicit false

namespace FeatureSql

open Sql (Expr IsNumber)
open Sql.Expr (always holds)
open Spatial (IsConjunct)

/-- What the condition among the parameters asks for, where it was written from `rest`. The default
asks for nothing. -/
def Feature.Query.asks (fs : Feature.Query) (rest : Option Expr) (leaf : Expr → Bool) : Bool :=
  fs.hasDefaultWhere || rest.any (holds leaf)

theorem Feature.Query.asks_eq {fs : Feature.Query} {rest : Option Expr}
    (htext : fs.IsWrittenFrom rest) (hrest : ∀ e ∈ rest, e.WellFormed) {leaf : Expr → Bool}
    (hleaf : leaf always = true ∨ rest ≠ some always) :
    fs.asks rest leaf = rest.all (holds leaf) := by
  cases rest with
  | none =>
    have hdefault : fs.hasDefaultWhere = true := hasDefaultWhere_of_default htext
    rw [asks, hdefault, Bool.true_or, Option.all_none]
  | some e =>
    have hdefault := hasDefaultWhere_of_text (hrest e rfl) htext
    rw [asks, Option.any_some, Option.all_some]
    by_cases he : e = always
    · have hholds : holds leaf e = true := by
        rw [he, Expr.holds_leaf leaf (by simp [always])]
        exact hleaf.resolve_right fun hne => hne (congrArg some he)
      rw [hdefault.mpr he, hholds, Bool.true_or]
    · rw [Bool.eq_false_iff.mpr (mt hdefault.mp he), Bool.false_or]

namespace Sql.Query

/-- The parameters that a condition with a spatial predicate goes to. -/
theorem StandsFor.split {query : Query} {table : String} {selected : Feature.Query}
    {found : Option RingFilter} (h : StandsFor query table selected found) {condition : Expr}
    (hcondition : query.filter = some condition) {filter : SpatialFilter}
    (hfind : Spatial.find? condition = some filter) :
    (query.assemble selected found).IsWrittenFrom (Spatial.remove condition) ∧
      ∃ rings, Geometry.rings filter.geometry = .ok rings ∧
        (query.assemble selected found).geometry = some (Geometry.esri rings).compact ∧
        (query.assemble selected found).inSR =
          some (SpatialReference.toJson filter.srid).compact := by
  constructor
  · have hdefault : (selected.withRingFilter found).condition = Feature.defaultWhere :=
      (Feature.Query.condition_withRingFilter selected found).trans h.select.untouched.2.1
    change ((query.filter >>= Spatial.remove).map (Expr.render .standard)).getD
      (selected.withRingFilter found).condition = _
    rw [hdefault, hcondition]
    rfl
  · have hextract := h.filter
    rw [hcondition, Spatial.extract_of_some hfind, map_eq_ok] at hextract
    obtain ⟨_, hring, rfl⟩ := hextract
    obtain ⟨rings, hrings, rfl⟩ := map_eq_ok.mp hring
    exact ⟨rings, hrings, rfl, rfl⟩

end Sql.Query

namespace Converter

/-- The parameters of a condition with a spatial predicate: the rings of the one, and the text of
the other without it. -/
theorem condition_parameters {geostore : Geostore} {sql : String} {excludeGeometries : Bool}
    {conversion : Conversion} {condition : Expr} {filter : SpatialFilter}
    (h : Converter.toFeature { geostore } { sql, excludeGeometries } = .ok conversion)
    (hcondition : conversion.tree.filter = some condition)
    (hfind : Spatial.find? condition = some filter) :
    ∃ fs rings, conversion.feature = some fs ∧ Geometry.rings filter.geometry = .ok rings ∧
      fs.geometry = some (Geometry.esri rings).compact ∧
      fs.inSR = some (SpatialReference.toJson filter.srid).compact ∧
      fs.IsWrittenFrom (Spatial.remove condition) ∧
      ∀ e ∈ Spatial.remove condition, e.WellFormed := by
  obtain ⟨tree, fs, hparse, hfs, rfl⟩ := (toFeature_resolved rfl).mp h
  rw [Sql.Query.toFeature_given, map_eq_ok] at hfs
  obtain ⟨_, hfs, rfl⟩ := hfs
  obtain ⟨base, hbase, hsame⟩ := bind_eq_ok.mp hfs
  obtain rfl := Except.ok.inj hsame
  have hquery := Sql.Query.wellFormed_of_parse hparse
  obtain ⟨table, selected, found, hstands, rfl⟩ := Sql.Query.standsFor_of_toFeature hquery hbase
  obtain ⟨hwritten, rings, hrings, hgeometry, hsrid⟩ := hstands.split hcondition hfind
  have hrest := Spatial.wellFormed_remove (hquery.clauses.1 condition hcondition)
  exact ⟨_, rings, rfl, hrings, hgeometry, hsrid, hwritten, hrest⟩

/-- A condition whose first spatial predicate has only `AND` above it says what its parameters ask
for: that the predicate holds, and the rest of the condition. Only a rest of `1=1` has to be true for
that, since it is not asked for. -/
theorem condition_split {geostore : Geostore} {sql : String} {excludeGeometries : Bool}
    {conversion : Conversion} {condition p : Expr}
    (h : Converter.toFeature { geostore } { sql, excludeGeometries } = .ok conversion)
    (hcondition : conversion.tree.filter = some condition) (hp : IsConjunct p condition) :
    ∃ fs filter rings, conversion.feature = some fs ∧
      Spatial.find? condition = some filter ∧ Spatial.filterOf? p = some filter ∧
      Geometry.rings filter.geometry = .ok rings ∧
      fs.geometry = some (Geometry.esri rings).compact ∧
      fs.inSR = some (SpatialReference.toJson filter.srid).compact ∧
      fs.IsWrittenFrom (Spatial.remove condition) ∧
      ∀ leaf : Expr → Bool, leaf always = true ∨ Spatial.remove condition ≠ some always →
        condition.holds leaf = (leaf p && fs.asks (Spatial.remove condition) leaf) := by
  obtain ⟨filter, hfilter⟩ := Option.isSome_iff_exists.mp hp.filterOf?_isSome
  have hfind : Spatial.find? condition = some filter := hp.find?.trans hfilter
  obtain ⟨fs, rings, hfs, hrings, hgeometry, hsrid, hwritten, hrest⟩ :=
    condition_parameters h hcondition hfind
  refine ⟨fs, filter, rings, hfs, hfind, hfilter, hrings, hgeometry, hsrid, hwritten, ?_⟩
  intro leaf hleaf
  rw [hp.holds_eq leaf, Feature.Query.asks_eq hwritten hrest hleaf]

/-- A selection of all columns of one table, under a condition. -/
theorem selection_reads {condition : Expr} (h : condition.WellFormed) (hfree : condition.LabelFree)
    (hgrouped : condition.leftGrouped = condition) {excludeGeometries : Bool} {fs : Feature.Query} :
    let tree : Sql.Query := { select := [.wildcard], tables := ["t"], filter := some condition }
    tree.toFeature .standard none excludeGeometries = .ok fs →
      Converter.toFeature {} { sql := tree.render .standard, excludeGeometries } =
        .ok { query := fs.queryString, feature := some fs, tree } := by
  intro tree hfs
  have htree : tree.WellFormed := by
    refine .select (Or.inr ⟨by simp, by simp [Sql.SelectItem.WellFormed]⟩) (by simp) ?_ (by simp)
      (by simp)
    intro e he
    exact Option.some.inj he ▸ h
  have hlabels : tree.LabelFree := by
    refine ⟨by simp [tree, Sql.SelectItem.LabelFree], by simp [tree], ?_, by simp [tree],
      by simp [tree]⟩
    intro e he
    exact Option.some.inj he ▸ hfree
  have hsame : tree.leftGrouped = tree := by
    simp [tree, Sql.Query.leftGrouped, Sql.SelectItem.leftGrouped, hgrouped]
  have hread := @toFeature_render Geostore.disabled tree htree hlabels _ _ (hsame ▸ hfs)
  rw [hsame] at hread
  exact hread

/-- Of two predicates the first is taken; the other one, below `OR`, stays. -/
theorem condition_split_nested :
    let p := Spatial.predicate { geometry := Geometry.polygon (.arr []) } .vector
    let other := Spatial.predicate { geometry := .obj [] } .raster
    let condition : Expr :=
      .logical .and (.logical .and (.name "a") p) (.logical .or (.name "b") other)
    let rest : Expr := .logical .and (.name "a") (.logical .or (.name "b") other)
    let tree : Sql.Query := { select := [.wildcard], tables := ["t"], filter := some condition }
    ∃ conversion fs,
      Converter.toFeature {} { sql := tree.render .standard, excludeGeometries := true } =
        .ok conversion ∧ conversion.tree = tree ∧ IsConjunct p condition ∧
      conversion.feature = some fs ∧ fs.IsWrittenFrom (some rest) ∧
      ∀ leaf : Expr → Bool, condition.holds leaf = (leaf p && fs.asks (some rest) leaf) := by
  intro p other condition rest tree
  have hwell : condition.WellFormed :=
    .logical .and (.logical .and (.name "a") (Spatial.wellFormed_predicate _ _))
      (.logical .or (.name "b") (Spatial.wellFormed_predicate _ _))
  have hfree : condition.LabelFree := ⟨⟨True.intro, Spatial.labelFree_predicate _ _⟩,
    True.intro, Spatial.labelFree_predicate _ _⟩
  obtain ⟨fs, hfs⟩ : ∃ fs, tree.toFeature .standard none true = .ok fs :=
    exists_of_toOption (by decide +kernel)
  have hconversion := selection_reads hwell hfree (by decide +kernel) hfs
  have hp : IsConjunct p condition := .left (.right rfl (.itself (by decide +kernel)))
  have hrest : Spatial.remove condition = some rest := by decide +kernel
  obtain ⟨fs, _, _, hfeature, _, _, _, _, _, hwritten, hholds⟩ :=
    condition_split hconversion rfl hp
  rw [hrest] at hwritten hholds
  have hasked : some rest ≠ some always := by simp [rest, always]
  exact ⟨_, fs, hconversion, rfl, hp, hfeature, hwritten, fun leaf => hholds leaf (Or.inr hasked)⟩

/-- Below `OR` a predicate is taken out as well, and a rest of `1=1` is not asked for: a row that
meets only the other side of `OR` is lost, and one that fails `1=1` comes through. -/
theorem condition_not_split :
    let area : SpatialFilter := { geometry := Geometry.polygon (.arr []) }
    let p := Spatial.predicate area .vector
    let one : Expr := .comparison "=" (.name "a") (.number "1")
    let disjunction : Expr := .logical .or one p
    let tautology : Expr := .logical .and always p
    let tree (condition : Expr) : Sql.Query :=
      { select := [.wildcard], tables := ["t"], filter := some condition }
    (∃ conversion fs leaf,
      Converter.toFeature {} { sql := (tree disjunction).render .standard } = .ok conversion ∧
      conversion.tree = tree disjunction ∧ Spatial.find? disjunction = some area ∧
      conversion.feature = some fs ∧ fs.IsWrittenFrom (some one) ∧
      disjunction.holds leaf = true ∧ (leaf p && fs.asks (some one) leaf) = false) ∧
    ∃ conversion fs leaf,
      Converter.toFeature {} { sql := (tree tautology).render .standard } = .ok conversion ∧
      conversion.tree = tree tautology ∧ Spatial.find? tautology = some area ∧
      conversion.feature = some fs ∧ fs.IsWrittenFrom (some always) ∧
      tautology.holds leaf = false ∧ (leaf p && fs.asks (some always) leaf) = true := by
  intro area p one disjunction tautology tree
  have harea : Spatial.IsReadable area.geometry := by
    refine .of_exact (.obj (by decide) ?_) rfl
    simp only [List.forall_mem_cons]
    exact ⟨.str _ _, .arr (by simp), by simp⟩
  have hfind : ∀ operator e, Spatial.find? e = none →
      Spatial.find? (.logical operator e p) = some area := by
    intro operator e he
    rw [Spatial.find?_logical, he, Option.none_or]
    exact Spatial.find?_predicate .vector harea
  have hequals : ∀ left right, IsNumber right → left.WellFormed → ∀ operator,
      (Expr.logical operator (.comparison "=" left (.number right)) p).WellFormed :=
    fun _ _ hright hleft operator => .logical operator
      (.comparison (by decide) hleft (.number hright)) (Spatial.wellFormed_predicate area .vector)
  have hfree : p.LabelFree := Spatial.labelFree_predicate area .vector
  have hnumber : IsNumber "1" := Spatial.isNumber_int 1
  constructor
  · obtain ⟨fs, hfs⟩ : ∃ fs, (tree disjunction).toFeature .standard none false = .ok fs :=
      exists_of_toOption (by decide +kernel)
    have hconversion := selection_reads (hequals _ _ hnumber (.name "a") .or)
      ⟨⟨True.intro, True.intro⟩, hfree⟩ rfl hfs
    obtain ⟨fs, _, hfeature, _, _, _, hwritten, _⟩ :=
      condition_parameters hconversion rfl (hfind .or one rfl)
    have hrest : Spatial.remove disjunction = some one := by decide +kernel
    rw [hrest] at hwritten
    refine ⟨_, fs, fun e => decide (e ≠ p), hconversion, rfl, hfind .or one rfl, hfeature, hwritten,
      ?_, ?_⟩
    · have hone : one ≠ p := by simp [one, p, Spatial.predicate]
      rw [Expr.holds_logical, Expr.holds_leaf _ (by simp [one]), decide_eq_true hone]
      rfl
    · simp
  · obtain ⟨fs, hfs⟩ : ∃ fs, (tree tautology).toFeature .standard none false = .ok fs :=
      exists_of_toOption (by decide +kernel)
    have hconversion := selection_reads (hequals _ _ hnumber (.number hnumber) .and)
      ⟨⟨True.intro, True.intro⟩, hfree⟩ rfl hfs
    obtain ⟨fs, _, hfeature, _, _, _, hwritten, _⟩ :=
      condition_parameters hconversion rfl (hfind .and always rfl)
    have hrest : Spatial.remove tautology = some always := by decide +kernel
    change fs.IsWrittenFrom (Spatial.remove tautology) at hwritten
    rw [hrest] at hwritten
    refine ⟨_, fs, fun e => decide (e = p), hconversion, rfl, hfind .and always rfl, hfeature,
      hwritten, ?_, ?_⟩
    · have halways : always ≠ p := by simp [always, p, Spatial.predicate]
      rw [Expr.holds_logical, Expr.holds_leaf _ (by simp [always]), decide_eq_false halways]
      rfl
    · have hdefault : fs.hasDefaultWhere = true :=
        Feature.Query.hasDefaultWhere_of_default (hwritten.trans Feature.Query.render_always)
      simp [Feature.Query.asks, hdefault]

end Converter
end FeatureSql
