import FeatureSql.Proofs.Json.Exact

/-! How deep values nest. A text is read to a limited depth, so a value comes back from its compact
text just where it nests no deeper. -/

set_option autoImplicit false

namespace FeatureSql.Json

mutual

/-- How many arrays and objects a value holds inside one another. -/
def nesting : Json → Nat
  | .arr items => nestingItems items + 1
  | .obj members => nestingMembers members + 1
  | _ => 0

def nestingItems : List Json → Nat
  | [] => 0
  | item :: items => max (nesting item) (nestingItems items)

def nestingMembers : List (String × Json) → Nat
  | [] => 0
  | (_, value) :: members => max (nesting value) (nestingMembers members)

end

section Nesting
variable {depth : Nat}

theorem nestingItems_le_iff {items : List Json} :
    nestingItems items ≤ depth ↔ ∀ item ∈ items, item.nesting ≤ depth := by
  induction items with
  | nil => simp [nestingItems]
  | cons item items ih => rw [nestingItems, Nat.max_le, ih, List.forall_mem_cons]

theorem nestingMembers_le_iff {members : List (String × Json)} :
    nestingMembers members ≤ depth ↔ ∀ member ∈ members, member.2.nesting ≤ depth := by
  induction members with
  | nil => simp [nestingMembers]
  | cons member members ih => rw [nestingMembers, Nat.max_le, ih, List.forall_mem_cons]

theorem nesting_arr_le {items : List Json} (h : ∀ item ∈ items, item.nesting ≤ depth) :
    (Json.arr items).nesting ≤ depth + 1 :=
  Nat.succ_le_succ (nestingItems_le_iff.mpr h)

theorem nesting_obj_le {members : List (String × Json)}
    (h : ∀ member ∈ members, member.2.nesting ≤ depth) :
    (Json.obj members).nesting ≤ depth + 1 :=
  Nat.succ_le_succ (nestingMembers_le_iff.mpr h)

end Nesting

/-- Where a reader gets to the end of a value, the value nests no deeper than it goes. -/
def BoundedAt (depth : Nat) (json : Json) : Prop := ∀ rest, Stops rest →
  Reaches (fun _ => json.nesting ≤ depth) (readerAt depth) json.compact.toList rest

theorem boundedAt_arr {depth : Nat} {items : List Json} (h : ∀ item ∈ items, BoundedAt depth item) :
    BoundedAt (depth + 1) (.arr items) := by
  intro rest _
  have hreach := reaches_arr (R := fun item _ => item.nesting ≤ depth) h rest
  apply hreach.weaken
  rintro _ ⟨reads, rfl, hall⟩
  have hboth := hall.imp fun _ _ h => And.intro h True.intro
  exact nesting_arr_le ((List.forall₂_and_left items reads).mp hboth).1

theorem boundedAt_obj {depth : Nat} {members : List (String × Json)}
    (h : ∀ member ∈ members, BoundedAt depth member.2) : BoundedAt (depth + 1) (.obj members) := by
  intro rest _
  have hreach := reaches_obj (R := fun value _ => value.nesting ≤ depth) h rest
  apply hreach.weaken
  rintro _ ⟨reads, rfl, hall⟩
  have hboth := hall.imp fun _ _ h => And.intro h.2 True.intro
  exact nesting_obj_le ((List.forall₂_and_left members reads).mp hboth).1

theorem boundedAt_scalar {json : Json} (h : json.nesting = 0) (depth : Nat) :
    BoundedAt depth json := by
  intro rest hrest
  have hreach : Reaches _ _ _ _ := reachesAt depth json rest hrest
  apply hreach.weaken
  intro _ _
  omega

theorem boundedAt : ∀ (depth : Nat) (json : Json), BoundedAt depth json
  | 0, .arr _ => fun _ _ => .of_none (by rw [chars_arr]; rfl)
  | 0, .obj _ => fun _ _ => .of_none (by rw [chars_obj]; rfl)
  | depth + 1, .arr _ => boundedAt_arr fun item _ => boundedAt depth item
  | depth + 1, .obj _ => boundedAt_obj fun member _ => boundedAt depth member.2
  | depth, .null | depth, .bool _ | depth, .number _ | depth, .str _ => boundedAt_scalar rfl depth

/-- Values that their text has in full, if it may nest deep enough. -/
inductive IsExact : Json → Prop where
  | null : IsExact .null
  | bool (value : Bool) : IsExact (.bool value)
  | number {value : Number} : value.IsExact → IsExact (.number value)
  | str (value : String) : IsExact (.str value)
  | arr {items : List Json} : (∀ item ∈ items, IsExact item) → IsExact (.arr items)
  | obj {members : List (String × Json)} : (members.map Prod.fst).Nodup →
      (∀ member ∈ members, IsExact member.2) → IsExact (.obj members)

namespace IsExact
variable {json : Json}

theorem int {value : Int} (hlow : Int64.minValue.toInt ≤ value) (hhigh : value < UInt64.size) :
    IsExact (.int value) :=
  .number (isExact_int hlow hhigh)

theorem exactAt (h : json.IsExact) {depth : Nat} (hdepth : json.nesting ≤ depth) :
    IsExactAt depth json := by
  induction h generalizing depth with
  | null => exact .null depth
  | bool value => exact .bool depth value
  | number hvalue => exact .number depth hvalue
  | str value => exact .str depth value
  | arr _ ih =>
    cases depth with
    | zero => exact absurd hdepth (Nat.not_succ_le_zero _)
    | succ depth =>
      have hitems := nestingItems_le_iff.mp (Nat.le_of_succ_le_succ hdepth)
      exact .arr fun item hitem => ih item hitem (hitems item hitem)
  | obj hkeys _ ih =>
    cases depth with
    | zero => exact absurd hdepth (Nat.not_succ_le_zero _)
    | succ depth =>
      have hmembers := nestingMembers_le_iff.mp (Nat.le_of_succ_le_succ hdepth)
      exact .obj hkeys fun member hmember => ih member hmember (hmembers member hmember)

theorem settle_eq (h : json.IsExact) : json.settle = json :=
  (h.exactAt (Nat.le_refl _)).settle_eq

/-- A value is read from its compact text, or it nests too deep and nothing is. -/
theorem ofText?_compact (h : json.IsExact) :
    ofText? json.compact = if json.nesting ≤ maxDepth then some json else none := by
  split
  · next hdepth => exact Json.ofText?_compact (h.exactAt hdepth)
  · next hdepth =>
    rw [Option.eq_none_iff_forall_ne_some]
    intro read hread
    have hstops : Stops [] := by simp [Stops]
    have hreach : Reaches _ _ _ _ := boundedAt maxDepth json [] hstops
    exact hdepth (hreach.of_ofText? hread)

end IsExact

end FeatureSql.Json
