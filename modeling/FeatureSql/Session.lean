import FeatureSql.Conversion

/-! Sessions: a query and a feature service query that single steps read and replace. -/

set_option autoImplicit false

namespace FeatureSql

structure Session where
  query : Option Sql.Query := none
  feature : Option Feature.Query := none

namespace Session

/-- A geometry as JSON text, with the number of its coordinate system. -/
structure FilterText where
  geometry : String
  srid : Int64 := defaultWkid

inductive Step where
  | parse (mode : Sql.Mode) (sql : String)
  | load (json : String)
  /-- The query is written and read again. -/
  | reparse
  | inject (filter : FilterText) (column : SpatialColumn)
  | find
  | remove
  | validate
  | tree
  | toFeature (filter : Option FilterText) (excludeGeometries : Bool)
  | loadFeature (json : String)
  | newFeature (table : String)
  | setFilter (filter : FilterText)
  | readFilter
  | ofFeature (filter : Option FilterText)

/-- What a step has to say, apart from the state it leaves. -/
inductive Report where
  | done
  | filter (filter : Option SpatialFilter)
  | tree (query : Sql.Query)

inductive Failure where
  | noQuery
  | noFeature
  | syntaxError (error : Sql.SyntaxError)
  | conversion (error : ConversionError)

/-- What a step comes to. -/
abbrev Progress (α : Type) := Except Failure α

def ofSyntax {α : Type} (result : Except Sql.SyntaxError α) : Progress α :=
  result.mapError .syntaxError

def ofOutcome {α : Type} (outcome : Outcome α) : Progress α := outcome.mapError .conversion

def needQuery (session : Session) : Progress Sql.Query :=
  match session.query with
  | some query => .ok query
  | none => .error .noQuery

def needFeature (session : Session) : Progress Feature.Query :=
  match session.feature with
  | some feature => .ok feature
  | none => .error .noFeature

def FilterText.read (text : FilterText) : Progress SpatialFilter :=
  match Json.parse? text.geometry with
  | some geometry => .ok { geometry, srid := text.srid }
  | none => .error (.conversion .json)

/-- The session after a step, and the step's report. A step that fails changes nothing. -/
def step (session : Session) : Step → Progress (Session × Report)
  | .parse mode sql => do
    let query ← ofSyntax (Sql.Query.parse mode sql)
    pure ({ session with query := some query }, .done)
  | .load json => do
    let query ← ofOutcome (decode Sql.Query.ofJson? json)
    pure ({ session with query := some query }, .done)
  | .reparse => do
    let query ← session.needQuery
    let query ← ofSyntax (Sql.Query.parse .standard (query.render .standard))
    pure ({ session with query := some query }, .done)
  | .inject text column => do
    let query ← session.needQuery
    let filter ← text.read
    pure ({ session with query := some (Spatial.inject query filter column) }, .done)
  | .find => do
    let query ← session.needQuery
    pure (session, .filter (query.filter >>= Spatial.find?))
  | .remove => do
    let query ← session.needQuery
    pure ({ session with query := some { query with filter := query.filter >>= Spatial.remove } },
      .done)
  | .validate => do
    let query ← session.needQuery
    ofOutcome query.validate
    pure (session, .done)
  | .tree => do
    let query ← session.needQuery
    pure (session, .tree query)
  | .toFeature text excludeGeometries => do
    let filter ← text.mapM FilterText.read
    let query ← session.needQuery
    let feature ← ofOutcome (query.toFeature .standard filter excludeGeometries)
    pure ({ session with feature := some feature }, .done)
  | .loadFeature json => do
    let feature ← ofOutcome (decode Feature.Query.ofJson? json)
    pure ({ session with feature := some feature }, .done)
  | .newFeature table => pure ({ session with feature := some (.ofTable table) }, .done)
  | .setFilter text => do
    let filter ← text.read
    let feature ← session.needFeature
    let feature ← ofOutcome (feature.setFilter filter)
    pure ({ session with feature := some feature }, .done)
  | .readFilter => do
    let feature ← session.needFeature
    let filter ← ofOutcome feature.filter?
    pure (session, .filter filter)
  | .ofFeature text => do
    let filter ← text.mapM FilterText.read
    let feature ← session.needFeature
    let query ← ofOutcome (feature.toSql filter)
    pure ({ session with query := some query }, .done)

/-- The session that the next step starts from. -/
def after (session : Session) (step : Step) : Session :=
  match session.step step with
  | .ok (next, _) => next
  | .error _ => session

def run (session : Session) (steps : List Step) : Session := steps.foldl after session

end Session
end FeatureSql
