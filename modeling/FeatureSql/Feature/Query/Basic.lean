import FeatureSql.Text.Blank

/-! Queries of a feature service: a table and the parameters of what is asked of it. -/

set_option autoImplicit false

namespace FeatureSql.Feature

structure OutStatistic where
  field : String
  type : String
  output : Option String := none
  deriving DecidableEq, Repr

def defaultWhere : String := "1=1"

/-- Parameters stand in the order in which they are written. -/
structure Query where
  outFields : Option String := none
  outStatistics : List OutStatistic := []
  tableName : Option String := none
  condition : String := defaultWhere
  spatialRel : Option String := none
  geometryType : Option String := none
  inSR : Option String := none
  geometry : Option String := none
  groupBy : Option String := none
  orderBy : Option String := none
  resultRecordCount : Option UInt64 := none
  resultOffset : Option UInt64 := none
  supportsPagination : Option Bool := none
  returnCountOnly : Option Bool := none
  returnDistinctValues : Option Bool := none
  returnGeometry : Option Bool := none
  deriving DecidableEq, Repr

namespace Query

def ofTable (name : String) : Query := { tableName := some name }

/-- Whether the condition asks for nothing: it is blank, or `1=1` in any spacing. -/
def hasDefaultWhere (query : Query) : Bool :=
  let condition := squeeze query.condition
  condition.isEmpty || condition == defaultWhere

end Query

/-- A parameter's text without the blanks around it, if anything is left. -/
def given? (parameter : Option String) : Option String :=
  (parameter.map trim).filter fun text => !text.isEmpty

end FeatureSql.Feature
