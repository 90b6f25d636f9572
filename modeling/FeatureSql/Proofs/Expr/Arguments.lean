import FeatureSql.Proofs.Expr.RoundTrip
import FeatureSql.Proofs.Expr.Sound
import Mathlib.Data.List.Basic

/-! Calls and their arguments, by place or by name. When a text is written and read again every call
keeps its arguments, and an argument goes over from a place to a name where it opens with a label. -/

set_option autoImplicit false

namespace FeatureSql.Sql.Expr

mutual

/-- The calls in an expression, from left to right, each in front of those among its arguments. -/
def calls : Expr → List (String × List Expr)
  | .name _ | .text _ | .number _ | .star => []
  | .call function arguments => (function, arguments) :: callsAmong arguments
  | .named _ value => calls value
  | .list items => callsAmong items
  | .not operand => calls operand
  | .logical _ left right => calls left ++ calls right
  | .comparison _ left right => calls left ++ calls right

def callsAmong : List Expr → List (String × List Expr)
  | [] => []
  | e :: es => calls e ++ callsAmong es

end

attribute [local simp] calls callsAmong

theorem callsAmong_eq_flatMap (es : List Expr) : callsAmong es = es.flatMap calls := by
  induction es with
  | nil => rfl
  | cons e es ih => simp [ih]

/-- The function of a call, and for each of its arguments whether it is of some kind. -/
def signature (kind : Expr → Bool) (call : String × List Expr) : String × List Bool :=
  (call.1, call.2.map kind)

/-- The signatures of all calls. -/
def signatures (kind : Expr → Bool) (e : Expr) : List (String × List Bool) :=
  e.calls.map (signature kind)

section Signatures
variable (kind : Expr → Bool)

theorem signatures_call (function : String) (arguments : List Expr) :
    (Expr.call function arguments).signatures kind =
      (function, arguments.map kind) :: arguments.flatMap (signatures kind) := by
  rw [signatures, calls, callsAmong_eq_flatMap, List.map_cons, List.map_flatMap]
  rfl

theorem signatures_list (items : List Expr) :
    (Expr.list items).signatures kind = items.flatMap (signatures kind) := by
  rw [signatures, calls, callsAmong_eq_flatMap, List.map_flatMap]
  rfl

theorem signatures_named (label : String) (value : Expr) :
    (Expr.named label value).signatures kind = value.signatures kind := by
  rw [signatures, calls, signatures]

theorem signatures_not (operand : Expr) :
    (Expr.not operand).signatures kind = operand.signatures kind := by
  rw [signatures, calls, signatures]

theorem signatures_logical (operator : Logical) (left right : Expr) :
    (Expr.logical operator left right).signatures kind =
      left.signatures kind ++ right.signatures kind := by
  rw [signatures, calls, List.map_append, signatures, signatures]

theorem signatures_comparison (operator : String) (left right : Expr) :
    (Expr.comparison operator left right).signatures kind =
      left.signatures kind ++ right.signatures kind := by
  rw [signatures, calls, List.map_append, signatures, signatures]

theorem signatures_attach (operator : Logical) (first second : Expr) :
    (attach operator first second).signatures kind =
      first.signatures kind ++ second.signatures kind := by
  induction second with
  | logical other left right ihl _ =>
    by_cases h : other = operator
    · subst h
      rw [attach_logical, signatures_logical, ihl, signatures_logical, List.append_assoc]
    · rw [attach, if_neg h, signatures_logical]
  | _ => exact signatures_logical kind operator first _

end Signatures

/-- Grouping changes no call. -/
theorem signatures_leftGrouped (e : Expr) :
    e.leftGrouped.signatures isNamed = e.signatures isNamed := by
  induction e with
  | name | text | number | star => rfl
  | call function arguments ih =>
    have hkinds : (arguments.map leftGrouped).map isNamed = arguments.map isNamed := by
      rw [List.map_map]
      exact List.map_congr_left fun a _ => isNamed_leftGrouped a
    rw [leftGrouped, leftGroupedAll_eq_map, signatures_call, signatures_call, hkinds,
      List.flatMap_map, List.flatMap_congr ih]
  | named label value ih => rw [leftGrouped, signatures_named, ih, signatures_named]
  | list items ih =>
    rw [leftGrouped, leftGroupedAll_eq_map, signatures_list, signatures_list, List.flatMap_map,
      List.flatMap_congr ih]
  | not operand ih => rw [leftGrouped, signatures_not, ih, signatures_not]
  | logical operator left right ihl ihr =>
    rw [leftGrouped, signatures_attach, ihl, ihr, signatures_logical]
  | comparison operator left right ihl ihr =>
    rw [leftGrouped, signatures_comparison, ihl, ihr, signatures_comparison]

/-- What stands in front of a label's equals sign holds no call. -/
theorem signatures_of_splitLabel (kind : Expr → Bool) {e value : Expr} {label : String}
    (h : splitLabel e = some (label, value)) : value.signatures kind = e.signatures kind := by
  refine splitLabel_cases (motive := fun e _ value => value.signatures kind = e.signatures kind)
    ?_ ?_ h
  · intro left right label hlabel
    rw [signatures_comparison]
    cases left with
    | name | text => rfl
    | _ => cases hlabel
  · intro operator left right label value _ _ ih
    rw [signatures_logical, ih, signatures_logical]

theorem signatures_byPlace (kind : Expr → Bool) (a : Expr) :
    (byPlace a).signatures kind = a.signatures kind := by
  cases hsplit : splitLabel a with
  | none => rw [byPlace_of_none hsplit]
  | some split =>
    rw [byPlace, hsplit]
    exact (signatures_named kind split.1 split.2).trans (signatures_of_splitLabel kind hsplit)

/-- An argument that is given by name, or by place behind something that reads as a label. -/
def readsNamed (a : Expr) : Bool := a.isNamed || (splitLabel a).isSome

theorem isNamed_byPlace_labelled (a : Expr) : (byPlace a.labelled).isNamed = a.readsNamed := by
  have hnamed : a.labelled.isNamed = a.isNamed := by cases a <;> rfl
  have hsplit : (splitLabel a.labelled).isSome = (splitLabel a).isSome := by
    rw [← Option.isSome_map (f := Prod.fst), fst_splitLabel_labelled, Option.isSome_map]
  rw [readsNamed, ← hsplit]
  cases h : splitLabel a.labelled with
  | none => rw [byPlace_of_none h, hnamed, Option.isSome_none, Bool.or_false]
  | some split =>
    rw [byPlace, h, Option.isSome_some, Bool.or_true]
    rfl

theorem signatures_labelled (e : Expr) :
    e.labelled.signatures isNamed = e.signatures readsNamed := by
  induction e with
  | name | text | number | star => rfl
  | call function arguments ih =>
    have hkinds : (arguments.map fun a => byPlace a.labelled).map isNamed =
        arguments.map readsNamed := by
      rw [List.map_map]
      exact List.map_congr_left fun a _ => isNamed_byPlace_labelled a
    have hinside : ∀ a ∈ arguments,
        (byPlace a.labelled).signatures isNamed = a.signatures readsNamed := fun a ha =>
      (signatures_byPlace isNamed a.labelled).trans (ih a ha)
    rw [labelled, labelledArguments_eq_map, signatures_call, signatures_call, hkinds,
      List.flatMap_map, List.flatMap_congr hinside]
  | named label value ih => rw [labelled, signatures_named, ih, signatures_named]
  | list items ih =>
    rw [labelled, labelledAll_eq_map, signatures_list, signatures_list, List.flatMap_map,
      List.flatMap_congr ih]
  | not operand ih => rw [labelled, signatures_not, ih, signatures_not]
  | logical operator left right ihl ihr =>
    rw [labelled, signatures_logical, ihl, ihr, signatures_logical]
  | comparison operator left right ihl ihr =>
    rw [labelled, signatures_comparison, ihl, ihr, signatures_comparison]

theorem signatures_reread (e : Expr) : e.reread.signatures isNamed = e.signatures readsNamed := by
  rw [reread, signatures_leftGrouped, signatures_labelled]

theorem forall_mem_callsAmong {es : List Expr} {p : String × List Expr → Prop} :
    (∀ call ∈ callsAmong es, p call) ↔ ∀ e ∈ es, ∀ call ∈ e.calls, p call := by
  rw [callsAmong_eq_flatMap, List.forall_mem_flatMap]

theorem WellFormedAt.arguments {place : Place} {e : Expr} (h : WellFormedAt place e) :
    ∀ call ∈ e.calls, ∀ a ∈ call.2, WellFormedAt .argument a := by
  induction h with
  | name | text | number | star => simp [calls]
  | call _ has ih => exact List.forall_mem_cons.mpr ⟨has, forall_mem_callsAmong.mpr ih⟩
  | not _ ih => exact ih
  | logical _ _ _ ihl ihr => exact List.forall_mem_append.mpr ⟨ihl, ihr⟩
  | comparison _ _ _ ihl ihr => exact List.forall_mem_append.mpr ⟨ihl, ihr⟩
  | membership _ _ _ ihl ihr => exact List.forall_mem_append.mpr ⟨ihl, ihr⟩
  | list _ _ ih => exact forall_mem_callsAmong.mpr ih
  | named _ _ ih => exact ih
  | positional _ ih => exact ih

/-- An argument that is given by name, or whose text looks as if it were. -/
def looksNamed (a : Expr) : Bool := a.isNamed || decide (OpensWithLabel (a.render .standard))

theorem looksNamed_eq_isNamed_iff (a : Expr) : a.looksNamed = a.isNamed ↔
    (a.isNamed = false → ¬ OpensWithLabel (a.render .standard)) := by
  rw [looksNamed]
  cases a.isNamed <;> simp

theorem labelFree_iff_calls (e : Expr) :
    LabelFree e ↔ ∀ call ∈ e.calls, ∀ a ∈ call.2, a.looksNamed = a.isNamed := by
  induction e with
  | name | text | number | star => simp [LabelFree, calls]
  | call function arguments ih =>
    rw [LabelFree, labelFreeArguments_iff, calls, List.forall_mem_cons, forall_mem_callsAmong,
      ← forall₂_and]
    apply forall₂_congr
    intro a ha
    rw [looksNamed_eq_isNamed_iff, ih a ha]
  | named label value ih => rw [LabelFree, ih, calls]
  | list items ih =>
    rw [LabelFree, labelFreeAll_iff, calls, forall_mem_callsAmong]
    exact forall₂_congr ih
  | not operand ih => rw [LabelFree, ih, calls]
  | logical operator left right ihl ihr => rw [LabelFree, ihl, ihr, calls, List.forall_mem_append]
  | comparison operator left right ihl ihr =>
    rw [LabelFree, ihl, ihr, calls, List.forall_mem_append]

theorem signatures_eq_iff (e : Expr) (kind other : Expr → Bool) :
    e.signatures kind = e.signatures other ↔
      ∀ call ∈ e.calls, ∀ a ∈ call.2, kind a = other a := by
  rw [signatures, signatures, List.map_inj_left]
  apply forall₂_congr
  intro call _
  rw [signature, signature, Prod.mk.injEq, List.map_inj_left]
  exact and_iff_right rfl

/-- In a text an argument is read by name just where it looks like that. -/
theorem WellFormedAt.readsNamed_eq {a : Expr} (h : WellFormedAt .argument a) :
    a.readsNamed = a.looksNamed := by
  cases h with
  | star => decide +kernel
  | named => rw [readsNamed, looksNamed, isNamed, Bool.true_or, Bool.true_or]
  | positional h =>
    rw [readsNamed, looksNamed]
    congr 1
    cases hsplit : splitLabel a with
    | none =>
      have hclosed : ¬ OpensWithLabel (a.render .standard) := by
        intro hopens
        have hsome := h.isSome_splitLabel rfl hopens
        rw [hsplit] at hsome
        cases hsome
      rw [decide_eq_false hclosed, Option.isSome_none]
    | some split => rw [decide_eq_true (opensWithLabel_of_splitLabel hsplit), Option.isSome_some]

/-- A text that was written and is read again has the same calls with as many arguments. Those that
look as if they were given by name are read by name, so that all of them stay as they were just where
none by place looks like that. -/
theorem parse_render_signatures {sql : String} {e : Expr} (h : parse sql = .ok e) :
    ∃ again, parse (e.render .standard) = .ok again ∧
      again.signatures isNamed = e.signatures looksNamed ∧
      (again.signatures isNamed = e.signatures isNamed ↔ e.LabelFree) := by
  have hwell : e.WellFormed := forall_of_parseWhole reader_yields h
  have hread : e.reread.signatures isNamed = e.signatures looksNamed := by
    rw [signatures_reread, signatures_eq_iff]
    exact fun call hcall a ha => (hwell.arguments call hcall a ha).readsNamed_eq
  refine ⟨e.reread, parseWhole_of_readsAs hwell.readsAs_reread closes_nil, hread, ?_⟩
  rw [hread, signatures_eq_iff, labelFree_iff_calls]

/-- At the depth of an inner call a comparison goes over to a named argument. -/
theorem parse_render_signatures_nested :
    let e : Expr := .call "f" [.call "g" [.comparison "=" (.name "a") (.number "1"), .name "b"],
      .named "c" (.number "2")]
    parse "f(g((a = 1), b), 'c' = 2)" = .ok e ∧ e.signatures isNamed =
      [("f", [false, true]), ("g", [false, false])] ∧
      ∃ again, parse (e.render .standard) = .ok again ∧ again.signatures isNamed =
        [("f", [false, true]), ("g", [true, false])] := by
  intro e
  have hparse : parse "f(g((a = 1), b), 'c' = 2)" = .ok e := by decide +kernel
  obtain ⟨again, hagain, hlooks, _⟩ := parse_render_signatures hparse
  have hkinds : e.signatures looksNamed = [("f", [false, true]), ("g", [true, false])] := by
    decide +kernel
  exact ⟨hparse, by decide +kernel, again, hagain, hlooks.trans hkinds⟩

/-- Parentheses and quotes keep an argument by place apart from one by name, and neither is
written. -/
theorem parse_render_not_byPlace :
    let e : Expr := .call "f" [.comparison "=" (.name "a") (.number "1")]
    parse "f((a=1))" = .ok e ∧ parse "f(\"a\"=1)" = .ok e ∧ e.render .standard = "f(a=1)" ∧
      parse (e.render .standard) = .ok (.call "f" [.named "a" (.number "1")]) := by
  decide +kernel

end FeatureSql.Sql.Expr
