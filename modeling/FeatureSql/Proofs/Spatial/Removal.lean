import FeatureSql.Proofs.Spatial.Leaves
import FeatureSql.Proofs.Spatial.Stack

/-! Taking a spatial predicate out of a condition. The first leaf that is one goes, its sibling
moves up in its place, and all other nodes stay as they are. -/

set_option autoImplicit false

namespace FeatureSql

namespace Sql

namespace Expr

/-- The truth of a condition whose leaves have these truth values, from left to right. Equal leaves
may differ. -/
def truth : Expr → List Bool → Bool
  | .logical operator left right, values =>
    operator.join (truth left (values.take left.leaves.length))
      (truth right (values.drop left.leaves.length))
  | _, values => values.headD true

theorem truth_logical (operator : Logical) {left : Expr} (right : Expr) {first : List Bool}
    (second : List Bool) (h : first.length = left.leaves.length) :
    truth (.logical operator left right) (first ++ second) =
      operator.join (truth left first) (truth right second) := by
  rw [truth, ← h, List.take_left, List.drop_left]

theorem truth_leaf {e : Expr} (h : ∀ operator left right, e ≠ .logical operator left right)
    (value : Bool) : truth e [value] = value := by
  cases e with
  | logical operator left right => exact absurd rfl (h operator left right)
  | _ => rfl

end Expr

/-- A step down from a node of `AND` or `OR` to one of its operands, past the other one. -/
inductive Branch where
  | left (operator : Logical) (sibling : Expr)
  | right (operator : Logical) (sibling : Expr)

namespace Branch

def operator : Branch → Logical
  | .left operator _ | .right operator _ => operator

def sibling : Branch → Expr
  | .left _ sibling | .right _ sibling => sibling

/-- The node, with this operand. -/
def join : Branch → Expr → Expr
  | .left operator sibling, e => .logical operator e sibling
  | .right operator sibling, e => .logical operator sibling e

def leavesBefore : Branch → List Expr
  | .left _ _ => []
  | .right _ sibling => sibling.leaves

def leavesAfter : Branch → List Expr
  | .left _ sibling => sibling.leaves
  | .right _ _ => []

theorem leaves_join (branch : Branch) (e : Expr) :
    (branch.join e).leaves = branch.leavesBefore ++ e.leaves ++ branch.leavesAfter := by
  cases branch <;> simp [join, leavesBefore, leavesAfter, Expr.leaves]

theorem leaves_sibling (branch : Branch) :
    branch.sibling.leaves = branch.leavesBefore ++ branch.leavesAfter := by
  cases branch <;> simp [sibling, leavesBefore, leavesAfter]

end Branch

/-- The way down to a place in a condition, from its topmost node on. -/
abbrev Path := List Branch

namespace Path

/-- The condition that has this expression at the place. -/
def plug (path : Path) (e : Expr) : Expr := path.foldr Branch.join e

theorem plug_cons (branch : Branch) (path : Path) (e : Expr) :
    plug (branch :: path) e = branch.join (plug path e) := rfl

theorem plug_concat (path : Path) (branch : Branch) (e : Expr) :
    plug (path ++ [branch]) e = plug path (branch.join e) := by
  simp [plug]

def leavesBefore (path : Path) : List Expr := path.flatMap Branch.leavesBefore

/-- The leaves behind a place; those next to the deeper nodes come first. -/
def leavesAfter (path : Path) : List Expr := path.reverse.flatMap Branch.leavesAfter

theorem leavesBefore_cons (branch : Branch) (path : Path) :
    leavesBefore (branch :: path) = branch.leavesBefore ++ leavesBefore path := List.flatMap_cons

theorem leavesAfter_cons (branch : Branch) (path : Path) :
    leavesAfter (branch :: path) = leavesAfter path ++ branch.leavesAfter := by
  simp [leavesAfter]

theorem leavesBefore_concat (path : Path) (branch : Branch) :
    leavesBefore (path ++ [branch]) = leavesBefore path ++ branch.leavesBefore := by
  simp [leavesBefore]

theorem leavesAfter_concat (path : Path) (branch : Branch) :
    leavesAfter (path ++ [branch]) = branch.leavesAfter ++ leavesAfter path := by
  simp [leavesAfter]

theorem leaves_plug (path : Path) (e : Expr) :
    (plug path e).leaves = leavesBefore path ++ e.leaves ++ leavesAfter path := by
  induction path with
  | nil => simp [plug, leavesBefore, leavesAfter]
  | cons branch path ih =>
    rw [plug_cons, Branch.leaves_join, ih, leavesBefore_cons, leavesAfter_cons]
    simp only [List.append_assoc]

theorem exists_plug_single {e p : Expr} {before after : List Expr}
    (h : [e] = before ++ p :: after) :
    ∃ path, e = plug path p ∧ leavesBefore path = before ∧ leavesAfter path = after := by
  cases before with
  | nil =>
    obtain ⟨rfl, rfl⟩ := List.cons.inj h
    exact ⟨[], rfl, rfl, rfl⟩
  | cons first before => simp at h

/-- Each leaf has its place. -/
theorem exists_plug {e p : Expr} {before after : List Expr}
    (h : e.leaves = before ++ p :: after) :
    ∃ path, e = plug path p ∧ leavesBefore path = before ∧ leavesAfter path = after := by
  induction e generalizing before after with
  | logical operator left right ihl ihr =>
    have hright : ∀ front, before = left.leaves ++ front → right.leaves = front ++ p :: after →
        ∃ path, Expr.logical operator left right = plug path p ∧ leavesBefore path = before ∧
          leavesAfter path = after := by
      rintro front rfl hleaves
      obtain ⟨path, rfl, rfl, rfl⟩ := ihr hleaves
      refine ⟨.right operator left :: path, rfl, leavesBefore_cons _ path, ?_⟩
      exact (leavesAfter_cons _ path).trans (List.append_nil _)
    rw [Expr.leaves_logical, List.append_eq_append_iff] at h
    rcases h with ⟨front, hbefore, hleaves⟩ | ⟨back, hleaves, hback⟩
    · exact hright front hbefore hleaves
    · cases back with
      | nil => exact hright [] (by simpa using hleaves.symm) hback.symm
      | cons first back =>
        obtain ⟨rfl, rfl⟩ := List.cons.inj hback
        obtain ⟨path, rfl, rfl, rfl⟩ := ihl hleaves
        refine ⟨.left operator right :: path, rfl, leavesBefore_cons _ path, ?_⟩
        exact leavesAfter_cons _ path
  | _ => exact exists_plug_single h

theorem exists_append_of_length {values : List Bool} {m n : Nat} (h : values.length = m + n) :
    ∃ first second, values = first ++ second ∧ first.length = m ∧ second.length = n := by
  refine ⟨values.take m, values.drop m, (List.take_append_drop m values).symm, ?_, ?_⟩
  · rw [List.length_take]
    omega
  · rw [List.length_drop]
    omega

/-- What stands beside a place in a conjunction holds or not, whatever stands at the place. -/
theorem exists_truth_plug {path : Path} (h : ∀ branch ∈ path, branch.operator = .and)
    {front back : List Bool} (hfront : front.length = (leavesBefore path).length)
    (hback : back.length = (leavesAfter path).length) :
    ∃ sides, ∀ (e : Expr) (values : List Bool), values.length = e.leaves.length →
      (plug path e).truth (front ++ values ++ back) = (e.truth values && sides) := by
  induction path generalizing front back with
  | nil =>
    have hfront : front = [] := List.eq_nil_of_length_eq_zero hfront
    have hback : back = [] := List.eq_nil_of_length_eq_zero hback
    refine ⟨true, fun e values _ => ?_⟩
    simp [plug, hfront, hback]
  | cons branch path ih =>
    rw [List.forall_mem_cons] at h
    rw [leavesBefore_cons, List.length_append] at hfront
    rw [leavesAfter_cons, List.length_append] at hback
    have hlength : ∀ {front back values : List Bool} {e : Expr},
        front.length = (leavesBefore path).length → back.length = (leavesAfter path).length →
        values.length = e.leaves.length →
          (front ++ values ++ back).length = (plug path e).leaves.length := by
      intro front back values e hfront hback hvalues
      simp only [leaves_plug, List.length_append, hfront, hback, hvalues]
    cases branch with
    | left operator sibling =>
      obtain rfl : operator = .and := h.1
      have hfront : front.length = (leavesBefore path).length := by
        simpa [Branch.leavesBefore] using hfront
      obtain ⟨back, outer, rfl, hback, _⟩ := exists_append_of_length hback
      obtain ⟨sides, hsides⟩ := ih h.2 hfront hback
      refine ⟨sides && sibling.truth outer, fun e values hvalues => ?_⟩
      rw [plug_cons, Branch.join, ← List.append_assoc,
        Expr.truth_logical .and sibling outer (hlength hfront hback hvalues),
        hsides e values hvalues]
      exact Bool.and_assoc _ _ _
    | right operator sibling =>
      obtain rfl : operator = .and := h.1
      have hback : back.length = (leavesAfter path).length := by
        simpa [Branch.leavesAfter] using hback
      obtain ⟨outer, front, rfl, houter, hfront⟩ := exists_append_of_length hfront
      obtain ⟨sides, hsides⟩ := ih h.2 hfront hback
      refine ⟨sibling.truth outer && sides, fun e values hvalues => ?_⟩
      rw [plug_cons, Branch.join, List.append_assoc, List.append_assoc,
        Expr.truth_logical .and (plug path e) _ houter, ← List.append_assoc,
        hsides e values hvalues]
      exact Bool.and_left_comm _ _ _

end Path
end Sql

namespace Spatial

open Sql (Expr Logical Branch Path)
open Sql.Path (plug leavesBefore leavesAfter)

section First
variable {path : Path} {p : Expr}

theorem leaves_predicate (hp : (filterOf? p).isSome) : p.leaves = [p] :=
  Expr.leaves_leaf (ne_logical_of_filterOf? hp)

theorem takeOut?_predicate_itself (hp : (filterOf? p).isSome) : takeOut? p = some none := by
  rw [takeOut?_leaf (ne_logical_of_filterOf? hp), if_pos hp]

/-- The sibling of the first predicate moves up in the place of their node. -/
theorem takeOut?_plug (hp : (filterOf? p).isSome) {branch : Branch}
    (hfirst : ∀ leaf ∈ leavesBefore (path ++ [branch]), filterOf? leaf = none) :
    takeOut? (plug (path ++ [branch]) p) = some (some (plug path branch.sibling)) := by
  have hsibling : ∀ {operator : Logical} {e right : Expr} {rest : Option Expr},
      takeOut? e = some rest → takeOut? (.logical operator e right) =
        some (rejoin operator rest (some right)) := by
    intro operator e right rest h
    rw [takeOut?_logical, h, Option.map_some, Option.some_or]
  have hpast : ∀ {operator : Logical} {left e : Expr} {rest : Option Expr},
      (∀ leaf ∈ left.leaves, filterOf? leaf = none) → takeOut? e = some rest →
        takeOut? (.logical operator left e) = some (rejoin operator (some left) rest) := by
    intro operator left e rest hleft h
    rw [takeOut?_logical, takeOut?_of_find?_none (find?_eq_none_iff.mpr hleft), h, Option.map_none,
      Option.none_or, Option.map_some]
  induction path with
  | nil =>
    cases branch with
    | left operator sibling => exact hsibling (takeOut?_predicate_itself hp)
    | right operator sibling =>
      exact hpast (by simpa [leavesBefore, Branch.leavesBefore] using hfirst)
        (takeOut?_predicate_itself hp)
  | cons outer path ih =>
    rw [List.cons_append, Sql.Path.leavesBefore_cons, List.forall_mem_append] at hfirst
    have hrest := ih hfirst.2
    cases outer with
    | left operator sibling => exact hsibling hrest
    | right operator sibling => exact hpast hfirst.1 hrest

theorem remove_itself (hp : (filterOf? p).isSome) : remove p = none := by
  rw [remove, takeOut?_predicate_itself hp, Option.getD_some]

theorem remove_plug (hp : (filterOf? p).isSome) {branch : Branch}
    (hfirst : ∀ leaf ∈ leavesBefore (path ++ [branch]), filterOf? leaf = none) :
    remove (plug (path ++ [branch]) p) = some (plug path branch.sibling) := by
  rw [remove, takeOut?_plug hp hfirst, Option.getD_some]

theorem filterOf?_plug_concat (path : Path) (branch : Branch) (e : Expr) :
    filterOf? (plug (path ++ [branch]) e) = none := by
  have hjoin : ∀ (branch : Branch) (e : Expr), filterOf? (branch.join e) = none := by
    intro branch e
    cases branch <;> rfl
  cases path with
  | nil => exact hjoin branch e
  | cons outer path => exact hjoin outer (plug (path ++ [branch]) e)

/-- Where only `AND` stands above the predicate, a condition says that the predicate holds and that
what is left holds. -/
theorem truth_plug (hp : (filterOf? p).isSome)
    (hfirst : ∀ leaf ∈ leavesBefore path, filterOf? leaf = none)
    (hand : ∀ branch ∈ path, branch.operator = .and) {front back : List Bool} (value : Bool)
    (hfront : front.length = (leavesBefore path).length)
    (hback : back.length = (leavesAfter path).length) :
    (plug path p).truth (front ++ value :: back) =
      (value && (remove (plug path p)).all fun rest => rest.truth (front ++ back)) := by
  have hleaf : ∀ value, p.truth [value] = value := Expr.truth_leaf (ne_logical_of_filterOf? hp)
  rcases List.eq_nil_or_concat' path with rfl | ⟨outer, branch, rfl⟩
  · obtain rfl : front = [] := List.eq_nil_of_length_eq_zero hfront
    obtain rfl : back = [] := List.eq_nil_of_length_eq_zero hback
    have hremove : remove (plug [] p) = none := remove_itself hp
    rw [hremove, Option.all_none, Bool.and_true]
    exact hleaf value
  · rw [remove_plug hp hfirst, Option.all_some]
    rw [List.forall_mem_append, List.forall_mem_singleton] at hand
    rw [Sql.Path.leavesBefore_concat, List.length_append] at hfront
    rw [Sql.Path.leavesAfter_concat, List.length_append] at hback
    obtain ⟨front, inner, rfl, hfront, hinner⟩ := Sql.Path.exists_append_of_length hfront
    obtain ⟨behind, back, rfl, hbehind, hback⟩ := Sql.Path.exists_append_of_length hback
    obtain ⟨sides, hsides⟩ := Sql.Path.exists_truth_plug hand.1 hfront hback
    have hnode : (branch.join p).truth (inner ++ value :: behind) =
        (value && branch.sibling.truth (inner ++ behind)) := by
      cases branch with
      | left operator sibling =>
        obtain rfl : operator = .and := hand.2
        obtain rfl : inner = [] := List.eq_nil_of_length_eq_zero hinner
        have hvalue : [value].length = p.leaves.length := by rw [leaves_predicate hp]; rfl
        exact (Expr.truth_logical .and sibling behind hvalue).trans (by rw [hleaf]; rfl)
      | right operator sibling =>
        obtain rfl : operator = .and := hand.2
        obtain rfl : behind = [] := List.eq_nil_of_length_eq_zero hbehind
        rw [Branch.join, Expr.truth_logical .and p _ hinner, hleaf, List.append_nil]
        exact Bool.and_comm _ _
    have hjoined : (inner ++ value :: behind).length = (branch.join p).leaves.length := by
      rw [Branch.leaves_join, leaves_predicate hp]
      simp only [List.length_append, List.length_cons, List.length_nil, hinner, hbehind]
      omega
    have hsibling : (inner ++ behind).length = branch.sibling.leaves.length := by
      rw [Branch.leaves_sibling, List.length_append, List.length_append, hinner, hbehind]
    have hwhole := hsides (branch.join p) _ hjoined
    have hrest := hsides branch.sibling _ hsibling
    simp only [List.append_assoc, List.cons_append] at hwhole hrest ⊢
    rw [Sql.Path.plug_concat, hwhole, hnode, hrest, Bool.and_assoc]

end First

/-- How a condition loses its first spatial predicate, which stands between these leaves. -/
structure Loses (e p : Expr) (before after : List Expr) : Prop where
  found : find? e = filterOf? p
  whole : remove e = none ↔ e = p
  leaves : ∀ rest ∈ remove e, rest.leaves = before ++ after
  next : ∀ rest ∈ remove e, find? rest = after.findSome? filterOf?
  /-- Of the nodes above the predicate the lowest gives way to its other operand; operators and
  operands stay as they are everywhere else. If all of them are `AND`, the condition says that the
  predicate holds and what is left holds, whatever the truth of each leaf is. -/
  place : ∃ path, e = plug path p ∧ leavesBefore path = before ∧ leavesAfter path = after ∧
    (∀ rest ∈ remove e, ∃ outer branch, path = outer ++ [branch] ∧
      rest = plug outer branch.sibling) ∧
    ((∀ branch ∈ path, branch.operator = .and) → ∀ front value back,
      front.length = before.length → back.length = after.length →
        e.truth (front ++ value :: back) =
          (value && (remove e).all fun rest => rest.truth (front ++ back)))

theorem Loses.of_leaves {e p : Expr} {before after : List Expr}
    (hleaves : e.leaves = before ++ p :: after) (hp : (filterOf? p).isSome)
    (hfirst : ∀ leaf ∈ before, filterOf? leaf = none) : Loses e p before after := by
  obtain ⟨filter, hfilter⟩ := Option.isSome_iff_exists.mp hp
  have hfound : find? e = filterOf? p := by
    rw [hfilter, find?_eq_some_iff]
    exact ⟨before, p, after, hleaves, hfilter, hfirst⟩
  obtain ⟨path, rfl, rfl, rfl⟩ := Sql.Path.exists_plug hleaves
  have htruth := fun hand front value back => @truth_plug path p hp hfirst hand front back value
  rcases List.eq_nil_or_concat' path with rfl | ⟨outer, branch, rfl⟩
  · have hremove : remove (plug [] p) = none := remove_itself hp
    refine ⟨hfound, ⟨fun _ => rfl, fun _ => hremove⟩, ?_, ?_, _, rfl, rfl, rfl, ?_, htruth⟩
    all_goals simp [hremove]
  · have hremove := remove_plug hp hfirst
    have hrest : ∀ rest ∈ remove (plug (outer ++ [branch]) p),
        rest = plug outer branch.sibling := by
      intro rest h
      rw [hremove] at h
      exact (Option.some.inj h).symm
    have hsibling : (plug outer branch.sibling).leaves =
        leavesBefore (outer ++ [branch]) ++ leavesAfter (outer ++ [branch]) := by
      rw [Sql.Path.leaves_plug, Branch.leaves_sibling, Sql.Path.leavesBefore_concat,
        Sql.Path.leavesAfter_concat]
      simp only [List.append_assoc]
    refine ⟨hfound, ?_, ?_, ?_, _, rfl, rfl, rfl, ?_, htruth⟩
    · rw [hremove]
      refine ⟨fun h => absurd h (by simp), fun h => ?_⟩
      rw [← h, filterOf?_plug_concat] at hp
      cases hp
    · intro rest h
      rw [hrest rest h, hsibling]
    · intro rest h
      rw [hrest rest h, find?_eq_findSome?, hsibling, List.findSome?_append,
        List.findSome?_eq_none_iff.mpr hfirst, Option.none_or]
    · exact fun rest h => ⟨outer, branch, rfl, hrest rest h⟩

/-- The filters of a condition's leaves, from left to right. -/
def filters (condition : Option Expr) : List SpatialFilter :=
  (condition.elim [] Expr.leaves).filterMap filterOf?

theorem bind_find?_eq_head? (condition : Option Expr) :
    condition >>= find? = (filters condition).head? := by
  cases condition with
  | none => rfl
  | some e =>
    change find? e = (e.leaves.filterMap filterOf?).head?
    rw [find?_eq_findSome?, List.head?_filterMap]

theorem filters_remove (condition : Option Expr) :
    filters (condition >>= remove) = (filters condition).tail := by
  cases condition with
  | none => rfl
  | some e =>
    change filters (remove e) = (e.leaves.filterMap filterOf?).tail
    cases hfind : find? e with
    | none =>
      have hnil : e.leaves.filterMap filterOf? = [] :=
        List.filterMap_eq_nil_iff.mpr (find?_eq_none_iff.mp hfind)
      rw [remove_of_find?_none hfind, hnil]
      exact hnil
    | some filter =>
      obtain ⟨before, p, after, hleaves, hp, hfirst⟩ := find?_eq_some_iff.mp hfind
      have hbefore : before.filterMap filterOf? = [] := List.filterMap_eq_nil_iff.mpr hfirst
      have hloses := Loses.of_leaves hleaves (by rw [hp]; rfl) hfirst
      rw [hleaves, List.filterMap_append, hbefore, List.nil_append, List.filterMap_cons_some hp,
        List.tail_cons]
      cases hremove : remove e with
      | none =>
        obtain rfl := hloses.whole.mp hremove
        rw [leaves_predicate (by rw [hp]; rfl)] at hleaves
        obtain ⟨-, hafter⟩ | ⟨_, hnil⟩ := List.singleton_eq_append_iff.mp hleaves
        · obtain rfl := (List.cons.inj hafter).2
          rfl
        · cases hnil
      | some rest =>
        change rest.leaves.filterMap filterOf? = _
        rw [hloses.leaves rest hremove, List.filterMap_append, hbefore, List.nil_append]

theorem find?_takeOff (n : Nat) (condition : Option Expr) :
    takeOff n condition >>= find? = (filters condition)[n]? := by
  induction n generalizing condition with
  | zero => rw [takeOff, bind_find?_eq_head?, List.head?_eq_getElem?]
  | succ n ih => rw [takeOff, ih, filters_remove, List.getElem?_tail]

/-- Finding and removing agree on every condition: both turn on the first leaf that is a spatial
predicate, and removing again and again takes the predicates off one by one. -/
theorem find?_remove_agree (e : Expr) :
    find? e = e.leaves.findSome? filterOf? ∧
    (∀ leaf filter, filterOf? leaf = some filter ↔
      ∃ function arguments, leaf = .call function arguments ∧
        Sql.lower function.toList = "st_intersects".toList ∧
        (Expr.atomsAmong arguments).findSome? objectOf? = some filter.geometry ∧
        ((Expr.atomsAmong arguments).findSome? integerOf?).getD defaultWkid = filter.srid) ∧
    (find? e = none → remove e = some e) ∧
    (∀ filter, find? e = some filter → ∃ before p after, e.leaves = before ++ p :: after ∧
      (∀ leaf ∈ before, filterOf? leaf = none) ∧ filterOf? p = some filter ∧
        Loses e p before after) ∧
    ∀ n, takeOff n (some e) >>= find? = (e.leaves.filterMap filterOf?)[n]? ∧
      ((takeOff n (some e) >>= find?).isSome ↔
        n < e.leaves.countP fun leaf => (filterOf? leaf).isSome) := by
  refine ⟨find?_eq_findSome? e, fun _ _ => filterOf?_eq_some_iff, remove_of_find?_none, ?_, ?_⟩
  · intro filter hfind
    obtain ⟨before, p, after, hleaves, hp, hfirst⟩ := find?_eq_some_iff.mp hfind
    exact ⟨before, p, after, hleaves, hfirst, hp, .of_leaves hleaves (by rw [hp]; rfl) hfirst⟩
  · intro n
    have htaken : takeOff n (some e) >>= find? = (e.leaves.filterMap filterOf?)[n]? :=
      find?_takeOff n (some e)
    refine ⟨htaken, ?_⟩
    rw [htaken, isSome_getElem?, List.length_filterMap_eq_countP]

end Spatial
end FeatureSql
