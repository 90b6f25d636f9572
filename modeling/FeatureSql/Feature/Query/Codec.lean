import FeatureSql.Feature.Query.Basic
import FeatureSql.Json.Reader
import FeatureSql.Json.Record
import FeatureSql.Json.Writer

/-! Feature service queries as JSON objects and as query strings. Statistics travel as JSON text
in a string; on the way in a list will do as well. -/

set_option autoImplicit false

namespace FeatureSql.Feature

open Json

namespace OutStatistic

def toJson (statistic : OutStatistic) : Json :=
  .obj ([("onStatisticField", .str statistic.field), ("statisticType", .str statistic.type)] ++
    optionalMember "outStatisticFieldName" .str statistic.output)

def keys : List String := ["onStatisticField", "statisticType", "outStatisticFieldName"]

def ofJson? (json : Json) : Option OutStatistic := do
  let members ← json.record? keys
  let field ← members.field "onStatisticField" str?
  let type ← members.field "statisticType" str?
  let output ← members.optional "outStatisticFieldName" str?
  pure { field, type, output }

def listText (statistics : List OutStatistic) : String := (arr (statistics.map toJson)).compact

/-- A list of statistics: as a list, as the JSON text of one, or empty as null or blank text. -/
def ofParameter? : Json → Option (List OutStatistic)
  | .null => some []
  | .str text =>
    if (trim text).isEmpty then some [] else ofText? text >>= list? ofJson?
  | json => list? ofJson? json

end OutStatistic

namespace Query

/-- The statistics as text, if there are any. -/
def statisticsText? (query : Query) : Option String :=
  if query.outStatistics.isEmpty then none
  else some (OutStatistic.listText query.outStatistics)

def toMembers (query : Query) : Members :=
  optionalMember "outFields" .str query.outFields ++
    optionalMember "outStatistics" .str query.statisticsText? ++
    optionalMember "tableName" .str query.tableName ++
    [("where", .str query.condition)] ++
    optionalMember "spatialRel" .str query.spatialRel ++
    optionalMember "geometryType" .str query.geometryType ++
    optionalMember "inSR" .str query.inSR ++
    optionalMember "geometry" .str query.geometry ++
    optionalMember "groupByFieldsForStatistics" .str query.groupBy ++
    optionalMember "orderByFields" .str query.orderBy ++
    optionalMember "resultRecordCount" (fun n => .int n.toNat) query.resultRecordCount ++
    optionalMember "resultOffset" (fun n => .int n.toNat) query.resultOffset ++
    optionalMember "supportsPagination" .bool query.supportsPagination ++
    optionalMember "returnCountOnly" .bool query.returnCountOnly ++
    optionalMember "returnDistinctValues" .bool query.returnDistinctValues ++
    optionalMember "returnGeometry" .bool query.returnGeometry

def toJson (query : Query) : Json := .obj query.toMembers

def ofMembers? (members : Members) : Option Query := do
  let outFields ← members.optional "outFields" str?
  let outStatistics ← members.fieldOr "outStatistics" [] OutStatistic.ofParameter?
  let tableName ← members.optional "tableName" str?
  let condition ← members.fieldOr "where" defaultWhere str?
  let spatialRel ← members.optional "spatialRel" str?
  let geometryType ← members.optional "geometryType" str?
  let inSR ← members.optional "inSR" str?
  let geometry ← members.optional "geometry" str?
  let groupBy ← members.optional "groupByFieldsForStatistics" str?
  let orderBy ← members.optional "orderByFields" str?
  let resultRecordCount ← members.optional "resultRecordCount" uint64?
  let resultOffset ← members.optional "resultOffset" uint64?
  let supportsPagination ← members.optional "supportsPagination" bool?
  let returnCountOnly ← members.optional "returnCountOnly" bool?
  let returnDistinctValues ← members.optional "returnDistinctValues" bool?
  let returnGeometry ← members.optional "returnGeometry" bool?
  pure {
    outFields, outStatistics, tableName, condition, spatialRel, geometryType, inSR, geometry,
    groupBy, orderBy, resultRecordCount, resultOffset, supportsPagination, returnCountOnly,
    returnDistinctValues, returnGeometry }

def keys : List String :=
  ["outFields", "outStatistics", "tableName", "where", "spatialRel", "geometryType", "inSR",
   "geometry", "groupByFieldsForStatistics", "orderByFields", "resultRecordCount", "resultOffset",
   "supportsPagination", "returnCountOnly", "returnDistinctValues", "returnGeometry"]

def ofJson? (json : Json) : Option Query := json.record? keys >>= ofMembers?

/-- A parameter of a query string, if it has a value. -/
def parameter {α : Type} (key : String) (text : α → String) : Option α → List String
  | some a => [key ++ "=" ++ text a]
  | none => []

/-- The query string. Values are pasted as they are. -/
def queryString (query : Query) : String :=
  "?" ++ "&".intercalate (
    parameter "outFields" id query.outFields ++
    parameter "outStatistics" id query.statisticsText? ++
    parameter "tableName" id query.tableName ++
    ["where=" ++ query.condition] ++
    parameter "spatialRel" id query.spatialRel ++
    parameter "geometryType" id query.geometryType ++
    parameter "inSR" id query.inSR ++
    parameter "geometry" id query.geometry ++
    parameter "groupByFieldsForStatistics" id query.groupBy ++
    parameter "orderByFields" id query.orderBy ++
    parameter "resultRecordCount" (fun n => n.toNat.repr) query.resultRecordCount ++
    parameter "resultOffset" (fun n => n.toNat.repr) query.resultOffset ++
    parameter "supportsPagination" boolText query.supportsPagination ++
    parameter "returnCountOnly" boolText query.returnCountOnly ++
    parameter "returnDistinctValues" boolText query.returnDistinctValues ++
    parameter "returnGeometry" boolText query.returnGeometry)

end Query
end FeatureSql.Feature
