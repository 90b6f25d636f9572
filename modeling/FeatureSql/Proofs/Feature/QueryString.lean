import FeatureSql.Proofs.Feature.Codec
import Mathlib.Data.List.Forall2

/-! The query string and the JSON object of a feature service query are two ways to write one list
of members. -/

set_option autoImplicit false

namespace FeatureSql.Feature.Query

open Json

/-- A member of an object and the entry for it in a query string. Only texts, numbers and truth
values have one. -/
inductive IsPastedAs : String × Json → String → Prop where
  | text (key value : String) : IsPastedAs (key, .str value) (key ++ "=" ++ value)
  | number (key : String) (value : Number) :
      IsPastedAs (key, .number value) (key ++ "=" ++ (Json.number value).compact)
  | flag (key : String) (value : Bool) :
      IsPastedAs (key, .bool value) (key ++ "=" ++ (Json.bool value).compact)

/-- Members and the entries for them, in the same order. -/
abbrev ArePastedAs : Members → List String → Prop := List.Forall₂ IsPastedAs

namespace ArePastedAs

theorem append {members more : Members} {entries rest : List String}
    (h : ArePastedAs members entries) (hmore : ArePastedAs more rest) :
    ArePastedAs (members ++ more) (entries ++ rest) := List.rel_append h hmore

theorem single {key : String} {value : Json} {entry : String} (h : IsPastedAs (key, value) entry) :
    ArePastedAs [(key, value)] [entry] := .cons h .nil

theorem parameter {α : Type} {key : String} {write : α → Json} {text : α → String} (a : Option α)
    (h : ∀ a, IsPastedAs (key, write a) (key ++ "=" ++ text a)) :
    ArePastedAs (optionalMember key write a) (Query.parameter key text a) := by
  cases a with
  | none => exact .nil
  | some a => exact single (h a)

end ArePastedAs

theorem toMembers_arePasted (query : Query) : ∃ entries,
    ArePastedAs query.toMembers entries ∧ query.queryString = "?" ++ "&".intercalate entries := by
  have htext := fun key (a : Option String) => ArePastedAs.parameter a (.text key)
  have hcount := fun key (n : Option UInt64) => ArePastedAs.parameter n fun n =>
    .number key (.int n.toNat)
  have hflag := fun key (b : Option Bool) => ArePastedAs.parameter b (.flag key)
  refine ⟨_, ?_, rfl⟩
  exact htext "outFields" query.outFields
    |>.append (htext "outStatistics" query.statisticsText?)
    |>.append (htext "tableName" query.tableName)
    |>.append (.single (.text "where" query.condition))
    |>.append (htext "spatialRel" query.spatialRel)
    |>.append (htext "geometryType" query.geometryType)
    |>.append (htext "inSR" query.inSR)
    |>.append (htext "geometry" query.geometry)
    |>.append (htext "groupByFieldsForStatistics" query.groupBy)
    |>.append (htext "orderByFields" query.orderBy)
    |>.append (hcount "resultRecordCount" query.resultRecordCount)
    |>.append (hcount "resultOffset" query.resultOffset)
    |>.append (hflag "supportsPagination" query.supportsPagination)
    |>.append (hflag "returnCountOnly" query.returnCountOnly)
    |>.append (hflag "returnDistinctValues" query.returnDistinctValues)
    |>.append (hflag "returnGeometry" query.returnGeometry)

/-- The query string has one entry for each member of the object, in the same order. The object has
all of the query in it, and nothing twice. -/
theorem queryString_toJson (query : Query) : ∃ (members : Members) (entries : List String),
    query.toJson = .obj members ∧
    query.IsReadFrom (.obj members) ∧
    (members.map Prod.fst).Sublist keys ∧
    (members.map Prod.fst).Nodup ∧
    ArePastedAs members entries ∧
    query.queryString = "?" ++ "&".intercalate entries := by
  have hread := (isWrittenAs_toMembers query).isReadFrom
  have hordered := query.exactAmong_toMembers.ordered
  have hnodup := (by decide : keys.Nodup).sublist hordered
  obtain ⟨entries, hpasted, hstring⟩ := query.toMembers_arePasted
  exact ⟨query.toMembers, entries, rfl, hread, hordered, hnodup, hpasted, hstring⟩

end FeatureSql.Feature.Query
