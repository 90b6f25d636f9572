import FeatureSql.Text.Quoted

/-! What an SQL dialect decides: how text literals are written. -/

set_option autoImplicit false

namespace FeatureSql.Sql

structure Dialect where
  literal : String → String

/-- Text in single quotes, a quote inside it doubled. -/
def Dialect.standard : Dialect where
  literal := Quoted.write '\x27'

end FeatureSql.Sql
