import FeatureSql.Proofs.Json.Members
import FeatureSql.Proofs.Trim
import FeatureSql.Request

/-! Feature service queries read back from their JSON values, directly and as requests, in each of
the forms that their statistics may have. -/

set_option autoImplicit false

namespace FeatureSql

open Json
open Json.Members.ExactAmong (single append)

namespace Feature.OutStatistic

theorem ofJson?_toJson (statistic : OutStatistic) : ofJson? statistic.toJson = some statistic := by
  obtain ⟨field, type, output⟩ := statistic
  simp only [ofJson?, toJson, record?, Option.bind_eq_bind, Option.bind_some]
  rw [Members.field_of_values (.str field) (by simp), Members.field_of_values (.str type) (by simp),
    Members.optional_of_values .str output (by simp) fun _ => rfl]
  rfl

theorem isExact_toJson (statistic : OutStatistic) : statistic.toJson.IsExact := by
  have hfield := single "onStatisticField" (.str statistic.field)
  have htype := append hfield (single "statisticType" (.str statistic.type))
  exact .record (append htype (.optionalMember "outStatisticFieldName" statistic.output .str))
    (by decide)

theorem nesting_toJson (statistic : OutStatistic) : statistic.toJson.nesting ≤ 1 := by
  obtain ⟨field, type, output⟩ := statistic
  cases output <;> exact Nat.le_refl 1

section List
variable (statistics : List OutStatistic)

def listJson : Json := .arr (statistics.map toJson)

theorem isExact_listJson : (listJson statistics).IsExact :=
  .arr (List.forall_mem_map.mpr fun statistic _ => statistic.isExact_toJson)

theorem nesting_listJson : (listJson statistics).nesting ≤ 2 :=
  nesting_arr_le (List.forall_mem_map.mpr fun statistic _ => statistic.nesting_toJson)

theorem list?_listJson : list? ofJson? (listJson statistics) = some statistics :=
  list?_map fun statistic _ => statistic.ofJson?_toJson

theorem solid_listText : Solid (listText statistics).toList := by
  have hsolid : Solid ('[' :: ((",".intercalate ((statistics.map toJson).map compact)).toList ++
      [']'])) := Solid.ends rfl rfl _
  rw [listText, ← List.append_nil (Json.arr _).compact.toList, chars_arr]
  exact hsolid

theorem ofParameter?_listText : ofParameter? (.str (listText statistics)) = some statistics := by
  have hsolid := solid_listText statistics
  have hempty : (trim (listText statistics)).isEmpty = false := by
    rw [trim_of_bounded hsolid.bounded]
    simpa using hsolid.ne_nil
  have hdepth : (listJson statistics).nesting ≤ maxDepth :=
    Nat.le_trans (nesting_listJson statistics) (by decide)
  have htext : ofText? (listText statistics) = some (listJson statistics) :=
    (isExact_listJson statistics).ofText?_compact.trans (if_pos hdepth)
  rw [ofParameter?, hempty, htext]
  exact list?_listJson statistics

end List

/-- The forms in which a caller may give statistics: their JSON text, a list, or, if there are
none, null, a blank text or nothing. -/
inductive IsGivenBy : List OutStatistic → Option Json → Prop where
  | text (statistics : List OutStatistic) : IsGivenBy statistics (some (.str (listText statistics)))
  | list (statistics : List OutStatistic) : IsGivenBy statistics (some (listJson statistics))
  | null : IsGivenBy [] (some .null)
  | blank {text : String} : (trim text).isEmpty = true → IsGivenBy [] (some (.str text))
  | absent : IsGivenBy [] none

namespace IsGivenBy
variable {statistics : List OutStatistic} {given : Option Json}

theorem isExact (h : IsGivenBy statistics given) : ∀ json ∈ given, json.IsExact := by
  cases h with
  | text statistics => exact fun _ h => Option.some.inj h ▸ .str _
  | list statistics => exact fun _ h => Option.some.inj h ▸ isExact_listJson statistics
  | null => exact fun _ h => Option.some.inj h ▸ .null
  | blank _ => exact fun _ h => Option.some.inj h ▸ .str _
  | absent => exact nofun

theorem nesting (h : IsGivenBy statistics given) : ∀ json ∈ given, json.nesting ≤ 2 := by
  cases h with
  | text statistics => exact fun _ h => Option.some.inj h ▸ Nat.zero_le 2
  | list statistics => exact fun _ h => Option.some.inj h ▸ nesting_listJson statistics
  | null => exact fun _ h => Option.some.inj h ▸ Nat.zero_le 2
  | blank _ => exact fun _ h => Option.some.inj h ▸ Nat.zero_le 2
  | absent => exact nofun

theorem fieldOr (h : IsGivenBy statistics given) {members : Members} {key : String}
    (hvalues : members.values key = given.toList) :
    members.fieldOr key [] ofParameter? = some statistics := by
  cases h with
  | text statistics =>
    exact (Members.fieldOr_of_values _ hvalues).trans (ofParameter?_listText statistics)
  | list statistics => exact (Members.fieldOr_of_values _ hvalues).trans (list?_listJson statistics)
  | null => exact Members.fieldOr_of_values _ hvalues
  | @blank text hblank =>
    rw [Members.fieldOr_of_values _ hvalues, ofParameter?, hblank]
    rfl
  | absent => exact Members.fieldOr_of_nil hvalues

end IsGivenBy
end Feature.OutStatistic

namespace Feature.Query

/-- The members without those of the statistics, which stand somewhere among them in one of their
forms. -/
inductive IsWrittenAs (query : Query) : Members → Prop where
  | given {before after : Members} {statistics : Option Json} :
      before ++ after = toMembers { query with outStatistics := [] } →
      OutStatistic.IsGivenBy query.outStatistics statistics →
      IsWrittenAs query (before ++ (optionalMember "outStatistics" id statistics ++ after))

variable {query : Query} {members : Members}

theorem statistics_isGivenBy (query : Query) :
    OutStatistic.IsGivenBy query.outStatistics (query.statisticsText?.map .str) := by
  unfold statisticsText?
  cases query.outStatistics with
  | nil => exact .absent
  | cons statistic statistics => exact .text (statistic :: statistics)

theorem isWrittenAs_toMembers (query : Query) : query.IsWrittenAs query.toMembers := by
  let fields := optionalMember "outFields" Json.str query.outFields
  let others := toMembers { query with outFields := none, outStatistics := [] }
  have hempty : statisticsText? { query with outStatistics := [] } = none := rfl
  have hothers : fields ++ others = toMembers { query with outStatistics := [] } := by
    simp only [fields, others, toMembers, hempty, Members.optionalMember_none, List.nil_append,
      List.append_nil, List.append_assoc]
    rfl
  have hform : query.toMembers =
      fields ++ (optionalMember "outStatistics" id (query.statisticsText?.map .str) ++ others) := by
    simp only [fields, others, toMembers, Members.optionalMember_map, List.append_assoc]
    rfl
  rw [hform]
  exact .given hothers (statistics_isGivenBy query)

theorem exactAmong_toMembers (query : Query) : query.toMembers.ExactAmong keys := by
  have htext := fun key (a : Option String) => Members.ExactAmong.optionalMember key a .str
  have hcount := fun key (a : Option UInt64) => Members.ExactAmong.optionalMember key a IsExact.uint64
  have hflag := fun key (a : Option Bool) => Members.ExactAmong.optionalMember key a .bool
  exact htext "outFields" query.outFields
    |>.append (htext "outStatistics" query.statisticsText?)
    |>.append (htext "tableName" query.tableName)
    |>.append (single "where" (.str query.condition))
    |>.append (htext "spatialRel" query.spatialRel)
    |>.append (htext "geometryType" query.geometryType)
    |>.append (htext "inSR" query.inSR)
    |>.append (htext "geometry" query.geometry)
    |>.append (htext "groupByFieldsForStatistics" query.groupBy)
    |>.append (htext "orderByFields" query.orderBy)
    |>.append (hcount "resultRecordCount" query.resultRecordCount)
    |>.append (hcount "resultOffset" query.resultOffset)
    |>.append (hflag "supportsPagination" query.supportsPagination)
    |>.append (hflag "returnCountOnly" query.returnCountOnly)
    |>.append (hflag "returnDistinctValues" query.returnDistinctValues)
    |>.append (hflag "returnGeometry" query.returnGeometry)

theorem nesting_toMembers (query : Query) : ∀ member ∈ query.toMembers, member.2.nesting ≤ 2 := by
  simp only [toMembers, List.forall_mem_append, Members.forall_optionalMember,
    List.forall_mem_singleton]
  simp [nesting, Json.int]

theorem notMem_statistics (query : Query) :
    "outStatistics" ∉ (toMembers { query with outStatistics := [] }).map Prod.fst := by
  rw [← Members.values_eq_nil_iff]
  simp [toMembers, statisticsText?]

namespace IsWrittenAs

theorem values_of_ne (h : query.IsWrittenAs members) (key : String) (hkey : key ≠ "outStatistics") :
    members.values key = (toMembers { query with outStatistics := [] }).values key := by
  cases h with
  | given hmembers _ =>
    rw [← hmembers]
    simp [hkey.symm]

theorem statistics (h : query.IsWrittenAs members) :
    members.fieldOr "outStatistics" [] OutStatistic.ofParameter? = some query.outStatistics := by
  cases h with
  | given hmembers hgiven =>
    apply hgiven.fieldOr
    have hnone := Members.values_eq_nil_iff.mpr (hmembers ▸ notMem_statistics query)
    rw [Members.values_append, List.append_eq_nil_iff] at hnone
    simp [hnone]

theorem optional (h : query.IsWrittenAs members) {α : Type} (read : Json → Option α)
    (write : α → Json) (hread : ∀ a, orNull read (write a) = some (some a)) (key : String)
    (a : Option α) (hkey : key ≠ "outStatistics")
    (hvalues : (toMembers { query with outStatistics := [] }).values key = (a.map write).toList) :
    members.optional key read = some a :=
  Members.optional_of_values write a ((h.values_of_ne key hkey).trans hvalues) hread

theorem ofMembers? (h : query.IsWrittenAs members) : ofMembers? members = some query := by
  have htext := h.optional str? .str fun _ => rfl
  have hcount := h.optional uint64? (fun n => .int n.toNat) orNull_uint64
  have hflag := h.optional bool? .bool fun _ => rfl
  have hwhere : members.fieldOr "where" defaultWhere str? = some query.condition := by
    have hvalues := h.values_of_ne "where" (by decide)
    exact Members.fieldOr_of_values (.str query.condition) (hvalues.trans (by simp [toMembers]))
  rw [Query.ofMembers?, htext "outFields" query.outFields (by decide) (by simp [toMembers]),
    h.statistics,
    htext "tableName" query.tableName (by decide) (by simp [toMembers]),
    hwhere,
    htext "spatialRel" query.spatialRel (by decide) (by simp [toMembers]),
    htext "geometryType" query.geometryType (by decide) (by simp [toMembers]),
    htext "inSR" query.inSR (by decide) (by simp [toMembers]),
    htext "geometry" query.geometry (by decide) (by simp [toMembers]),
    htext "groupByFieldsForStatistics" query.groupBy (by decide) (by simp [toMembers]),
    htext "orderByFields" query.orderBy (by decide) (by simp [toMembers]),
    hcount "resultRecordCount" query.resultRecordCount (by decide) (by simp [toMembers]),
    hcount "resultOffset" query.resultOffset (by decide) (by simp [toMembers]),
    hflag "supportsPagination" query.supportsPagination (by decide) (by simp [toMembers]),
    hflag "returnCountOnly" query.returnCountOnly (by decide) (by simp [toMembers]),
    hflag "returnDistinctValues" query.returnDistinctValues (by decide) (by simp [toMembers]),
    hflag "returnGeometry" query.returnGeometry (by decide) (by simp [toMembers])]
  rfl

theorem source (h : query.IsWrittenAs members) : GeometrySource.ofMembers? members = some {} := by
  have hgeostore := h.values_of_ne "geostore" (by decide)
  have hgeoJson := h.values_of_ne "geojson" (by decide)
  rw [GeometrySource.ofMembers?, Members.optional, Members.fieldOr_of_nil,
    Members.optional, Members.fieldOr_of_nil]
  · rfl
  · exact hgeoJson.trans (by simp [toMembers])
  · exact hgeostore.trans (by simp [toMembers])

theorem isExact (h : query.IsWrittenAs members) : (Json.obj members).IsExact := by
  have hkeys := notMem_statistics query
  have hexact := exactAmong_toMembers { query with outStatistics := [] }
  cases h with
  | @given before after statistics hmembers hgiven =>
    rw [← hmembers] at hkeys hexact
    have hvalues := List.forall_mem_append.mp hexact.values
    have hnodup := (by decide : keys.Nodup).sublist hexact.ordered
    apply IsExact.obj
    · cases statistics with
      | none => exact hnodup
      | some json =>
        rw [List.map_append] at hkeys hnodup
        rw [List.map_append]
        exact List.perm_middle.nodup_iff.mpr (List.nodup_cons.mpr ⟨hkeys, hnodup⟩)
    · rw [List.forall_mem_append, List.forall_mem_append, Members.forall_optionalMember]
      exact ⟨hvalues.1, hgiven.isExact, hvalues.2⟩

theorem nesting (h : query.IsWrittenAs members) : (Json.obj members).nesting ≤ 3 := by
  apply nesting_obj_le
  have hothers := nesting_toMembers { query with outStatistics := [] }
  cases h with
  | given hmembers hgiven =>
    rw [← hmembers, List.forall_mem_append] at hothers
    rw [List.forall_mem_append, List.forall_mem_append, Members.forall_optionalMember]
    exact ⟨hothers.1, hgiven.nesting, hothers.2⟩

end IsWrittenAs

/-- A value that its text has in full, and that is read as the query: directly, and as a request
that gives no geometry next to it. -/
structure IsReadFrom (query : Query) (json : Json) : Prop where
  settled : json.settle = json
  text : ofText? json.compact = some json
  direct : ofJson? json = some query
  request : Request.ToSql.ofJson? json = some { query }

theorem IsWrittenAs.isReadFrom (h : query.IsWrittenAs members) : query.IsReadFrom (.obj members) where
  settled := h.isExact.settle_eq
  text := by
    have hdepth : (Json.obj members).nesting ≤ maxDepth := Nat.le_trans h.nesting (by decide)
    rw [h.isExact.ofText?_compact, if_pos hdepth]
  direct := h.ofMembers?
  request := by
    have hquery := h.ofMembers?
    have hsource := h.source
    simp only [Request.ToSql.ofJson?, members?, Option.bind_eq_bind, Option.bind_some, hquery, hsource]
    rfl

/-- The JSON value of a query loses nothing, and it makes no difference in which of their forms its
statistics are given. -/
theorem isReadFrom_written (query : Query) : query.IsReadFrom query.toJson ∧
    ∀ members, query.IsWrittenAs members → query.IsReadFrom (.obj members) :=
  ⟨(isWrittenAs_toMembers query).isReadFrom, fun _ h => h.isReadFrom⟩

theorem isReadFrom_written_list :
    let statistics : List OutStatistic :=
      [{ field := "a \"b\"", type := "sum", output := "c\\" }, { field := "*", type := "count" }]
    let query : Query :=
      { outStatistics := statistics, tableName := "t", resultRecordCount := some 20 }
    let others := [("tableName", str "t"), ("where", str "1=1"), ("resultRecordCount", int 20)]
    query.IsReadFrom (.obj (others ++ [("outStatistics", OutStatistic.listJson statistics)])) := by
  intro statistics query others
  have hothers : others ++ [] = toMembers { query with outStatistics := [] } := by
    simp [others, query, toMembers, optionalMember, statisticsText?, defaultWhere]
  exact (isReadFrom_written query).2 _ (.given hothers (.list statistics))

end Feature.Query
end FeatureSql
