import FeatureSql.Json.Record
import FeatureSql.Proofs.Json.Depth

/-! Records put together from parts: what is read from their fields, and that their text has them in
full. -/

set_option autoImplicit false

namespace FeatureSql.Json

namespace Members
variable {α : Type} {members : Members} {key : String}

@[simp] theorem values_nil (key : String) : values [] key = [] := rfl

@[simp] theorem values_cons (k : String) (value : Json) (members : Members) (key : String) :
    values ((k, value) :: members) key =
      if k = key then value :: members.values key else members.values key := by
  by_cases h : k = key
  · simp [values, h]
  · simp [values, h]

@[simp] theorem values_append (first second : Members) (key : String) :
    values (first ++ second) key = first.values key ++ second.values key := by
  simp [values]

@[simp] theorem values_optionalMember (k : String) (write : α → Json) (a : Option α)
    (key : String) : values (optionalMember k write a) key =
      if k = key then (a.map write).toList else [] := by
  cases a <;> simp [optionalMember]

@[simp] theorem values_listMember (k : String) (write : α → Json) (items : List α) (key : String) :
    values (listMember k write items) key =
      if k = key ∧ items ≠ [] then [.arr (items.map write)] else [] := by
  cases items <;> simp [listMember]

theorem values_eq_nil_iff : members.values key = [] ↔ key ∉ members.map Prod.fst := by
  simp only [values, List.map_eq_nil_iff, List.filter_eq_nil_iff, beq_iff_eq, List.mem_map, not_exists,
    not_and]

theorem optionalMember_none (write : α → Json) : optionalMember key write none = [] := rfl

theorem optionalMember_map (write : α → Json) (a : Option α) :
    optionalMember key id (a.map write) = optionalMember key write a := by
  cases a <;> rfl

theorem forall_optionalMember {P : String × Json → Prop} (write : α → Json) (a : Option α) :
    (∀ member ∈ optionalMember key write a, P member) ↔ ∀ x ∈ a, P (key, write x) := by
  cases a <;> simp [optionalMember]

theorem field_of_values {read : Json → Option α} (value : Json)
    (h : members.values key = [value]) : members.field key read = read value := by
  rw [field, h]

theorem fieldOr_of_values {default : α} {read : Json → Option α} (value : Json)
    (h : members.values key = [value]) : members.fieldOr key default read = read value := by
  rw [fieldOr, h]

theorem fieldOr_of_nil {default : α} {read : Json → Option α} (h : members.values key = []) :
    members.fieldOr key default read = some default := by
  rw [fieldOr, h]

/-- What an optional field is read from, if each value it may have is read as itself and not as
null. -/
theorem optional_of_values {read : Json → Option α} (write : α → Json) (a : Option α)
    (h : members.values key = (a.map write).toList)
    (hread : ∀ a, orNull read (write a) = some (some a)) : members.optional key read = some a := by
  cases a with
  | none => exact fieldOr_of_nil h
  | some a => exact (fieldOr_of_values (write a) h).trans (hread a)

end Members

/-- A list that is written item by item is read item by item. -/
theorem list?_map {α : Type} {read : Json → Option α} {write : α → Json} {items : List α}
    (h : ∀ item ∈ items, read (write item) = some item) :
    list? read (.arr (items.map write)) = some items := by
  induction items with
  | nil => rfl
  | cons item items ih =>
    rw [List.forall_mem_cons] at h
    rw [List.map_cons, list?, List.mapM_cons, h.1]
    have ih : (items.map write).mapM read = some items := ih h.2
    rw [ih]
    rfl

theorem fieldOr_of_list {α : Type} {read : Json → Option α} (write : α → Json) (items : List α)
    {members : Members} {key : String}
    (h : members.values key = (listMember key write items).values key)
    (hread : ∀ item ∈ items, read (write item) = some item) :
    members.fieldOr key [] (list? read) = some items := by
  cases items with
  | nil => exact Members.fieldOr_of_nil h
  | cons item items =>
    rw [Members.values_listMember, if_pos ⟨rfl, List.cons_ne_nil item items⟩] at h
    exact (Members.fieldOr_of_values _ h).trans (list?_map hread)

theorem orNull_uint64 (n : UInt64) : orNull uint64? (.int n.toNat) = some (some n) := by
  have hsize : (n.toNat : Int) < UInt64.size := Int.ofNat_lt.mpr n.toNat_lt_size
  simp only [Json.int, orNull, uint64?]
  rw [if_pos ⟨Int.natCast_nonneg _, hsize⟩, Int.toNat_natCast, UInt64.ofNat_toNat, Option.map_some]

theorem IsExact.uint64 (n : UInt64) : (Json.int n.toNat).IsExact :=
  .int (Int.le_trans (by decide) (Int.natCast_nonneg _)) (Int.ofNat_lt.mpr n.toNat_lt_size)

namespace Members

/-- Members under some of these keys, in this order, with values that their text has in full. -/
structure ExactAmong (keys : List String) (members : Members) : Prop where
  ordered : (members.map Prod.fst).Sublist keys
  values : ∀ member ∈ members, member.2.IsExact

namespace ExactAmong
variable {α : Type}

theorem single (key : String) {value : Json} (h : value.IsExact) :
    ExactAmong [key] [(key, value)] where
  ordered := List.Sublist.refl _
  values member hmember := by
    rw [List.mem_singleton.mp hmember]
    exact h

theorem nil (keys : List String) : ExactAmong keys [] where
  ordered := List.nil_sublist _
  values _ hmember := absurd hmember List.not_mem_nil

theorem append {first second : List String} {members more : Members}
    (h : ExactAmong first members) (hmore : ExactAmong second more) :
    ExactAmong (first ++ second) (members ++ more) where
  ordered := by
    rw [List.map_append]
    exact h.ordered.append hmore.ordered
  values := List.forall_mem_append.mpr ⟨h.values, hmore.values⟩

theorem optionalMember (key : String) {write : α → Json} (a : Option α)
    (h : ∀ a, (write a).IsExact) : ExactAmong [key] (Json.optionalMember key write a) := by
  cases a with
  | none => exact nil [key]
  | some a => exact single key (h a)

theorem listMember (key : String) {write : α → Json} (items : List α)
    (h : ∀ item ∈ items, (write item).IsExact) :
    ExactAmong [key] (Json.listMember key write items) := by
  cases items with
  | nil => exact nil [key]
  | cons item items => exact single key (.arr (List.forall_mem_map.mpr h))

end ExactAmong
end Members

theorem IsExact.record {keys : List String} {members : Members}
    (h : members.ExactAmong keys) (hkeys : keys.Nodup) : (Json.obj members).IsExact :=
  .obj (hkeys.sublist h.ordered) h.values

end FeatureSql.Json
