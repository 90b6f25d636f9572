import FeatureSql.Proofs.Expr.Shape
import FeatureSql.Proofs.Json.Members
import FeatureSql.Sql.Expr.Codec

/-! Expressions read back from their JSON values, at any depth and in any place, and from the text
of these. -/

set_option autoImplicit false

namespace FeatureSql.Sql

@[simp] theorem Logical.ofTag?_tag (operator : Logical) : ofTag? operator.tag = some operator := by
  cases operator <;> rfl

namespace Expr

@[simp] theorem Kind.ofJson?_tag (inside : Bool) (kind : Kind) :
    ofJson? inside (.str kind.tag) = some kind := by
  cases kind <;> rfl

theorem toJsonAll_eq_map (es : List Expr) : toJsonAll es = es.map toJson := by
  induction es with
  | nil => rfl
  | cons e es ih => rw [toJsonAll, ih, List.map_cons]

theorem ofJsonItems?_toJsonAll {es : List Expr} (h : ∀ e ∈ es, ofJsonAt? true e.toJson = some e) :
    ofJsonItems? (toJsonAll es) = some es := by
  induction es with
  | nil => rfl
  | cons e es ih =>
    rw [List.forall_mem_cons] at h
    rw [toJsonAll, ofJsonItems?, h.1, ih h.2]
    rfl

/-- What is tagged is read by the members of its kind, whatever stands at other keys. -/
theorem ofJsonAt?_tagged (inside : Bool) (kind : Kind) {members : Json.Members}
    (h : members.values "type" = []) :
    ofJsonAt? inside (tagged kind members) =
      ofFields? kind (fieldsOf (("type", .str kind.tag) :: members)) := by
  have hkind : Json.Members.field (("type", .str kind.tag) :: members) "type"
      (Kind.ofJson? inside) = some kind := by
    simp [Json.Members.field, h]
  rw [tagged, ofJsonAt?, hkind]
  rfl

theorem ofJsonAt?_toJson (e : Expr) (inside : Bool) : ofJsonAt? inside e.toJson = some e := by
  induction e generalizing inside with
  | name value | text value | number value =>
    simp [toJson, ofJsonAt?_tagged, fieldsOf, ofFields?, Field.only?, Json.str?]
  | star => exact ofJsonAt?_tagged inside .star rfl
  | call function arguments ih =>
    have harguments := ofJsonItems?_toJsonAll fun a ha => ih a ha true
    simp [toJson, ofJsonAt?_tagged, fieldsOf, ofFields?, Field.only?, Json.str?, ofJsonList?,
      harguments]
  | list items ih =>
    have hitems := ofJsonItems?_toJsonAll fun e he => ih e he true
    simp [toJson, ofJsonAt?_tagged, fieldsOf, ofFields?, Field.only?, ofJsonList?, hitems]
  | named label value ih =>
    simp [toJson, ofJsonAt?_tagged, fieldsOf, ofFields?, Field.only?, Json.str?, ih]
  | not operand ih =>
    simp [toJson, ofJsonAt?_tagged, fieldsOf, ofFields?, Field.only?, ih]
  | logical operator left right ihl ihr =>
    simp [toJson, ofJsonAt?_tagged, fieldsOf, ofFields?, Field.only?, Json.variantName?, ihl, ihr]
  | comparison operator left right ihl ihr =>
    simp [toJson, ofJsonAt?_tagged, fieldsOf, ofFields?, Field.only?, Json.str?, ihl, ihr]

theorem ofJson?_toJson (e : Expr) : ofJson? e.toJson = some e :=
  ofJsonAt?_toJson e false

open Json (IsExact)
open Json.Members.ExactAmong (single append nil)

theorem isExact_tagged {keys : List String} {members : Json.Members} (kind : Kind)
    (h : members.ExactAmong keys) (hkeys : ("type" :: keys).Nodup) :
    (tagged kind members).IsExact :=
  .record (append (single "type" (.str kind.tag)) h) hkeys

theorem isExact_toJsonAll {es : List Expr} (h : ∀ e ∈ es, e.toJson.IsExact) :
    (Json.arr (toJsonAll es)).IsExact := by
  rw [toJsonAll_eq_map]
  exact .arr (List.forall_mem_map.mpr h)

theorem isExact_toJson (e : Expr) : e.toJson.IsExact := by
  induction e with
  | name value | text value | number value =>
    exact isExact_tagged _ (single "value" (.str value)) (by decide)
  | star => exact isExact_tagged _ (nil []) (by decide)
  | call function arguments ih =>
    have harguments := single "arguments" (isExact_toJsonAll ih)
    exact isExact_tagged _ (append (single "name" (.str function)) harguments) (by decide)
  | list items ih => exact isExact_tagged _ (single "items" (isExact_toJsonAll ih)) (by decide)
  | named label value ih =>
    exact isExact_tagged _ (append (single "name" (.str label)) (single "value" ih)) (by decide)
  | not operand ih => exact isExact_tagged _ (single "expression" ih) (by decide)
  | logical operator left right ihl ihr =>
    have hsides := append (single "left" ihl) (single "right" ihr)
    exact isExact_tagged _ (append (single "operator" (.str operator.tag)) hsides) (by decide)
  | comparison operator left right ihl ihr =>
    have hsides := append (single "left" ihl) (single "right" ihr)
    exact isExact_tagged _ (append (single "operator" (.str operator)) hsides) (by decide)

end Expr
end FeatureSql.Sql
