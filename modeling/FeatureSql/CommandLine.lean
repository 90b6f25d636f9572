import FeatureSql.Conversion

/-! The command line: one subcommand per conversion, its input on standard input. The options of
the geometry service are read and checked, but nothing is looked up. Usage texts, defaults from the
environment and log output are left out. -/

set_option autoImplicit false

namespace FeatureSql.CommandLine

/-- Options that were given: those with a value, and flags. -/
structure Options where
  values : List (String × String) := []
  flags : List String := []

namespace Options

def value? (options : Options) (name : String) : Option String := options.values.lookup name

def add (options : Options) (name value : String) : Options :=
  { options with values := (name, value) :: options.values }

def has (options : Options) (name : String) : Bool := options.flags.contains name

end Options

/-- The options that may be given. -/
structure Spec where
  valued : List String := []
  flags : List String := []

/-- The name of a long option, and the value that is attached to it by `=`. -/
def splitOption (option : List Char) : String × Option String :=
  let (name, rest) := option.span (· != '=')
  (String.ofList name, match rest with
    | [] => none
    | _ :: value => some (String.ofList value))

def isOption (argument : List Char) : Bool :=
  match argument with
  | '-' :: _ :: _ => true
  | _ => false

/-- Reads options up to the first word that is none. An option is given once at most. The value
of the option `awaiting` is still to come; it is no option itself. -/
def readOptions (spec : Spec) (options : Options) (awaiting : Option String) :
    List String → Option (Options × List String)
  | [] => if awaiting.isSome then none else some (options, [])
  | argument :: rest =>
    match awaiting, argument.toList with
    | some name, cs =>
      if isOption cs then none else readOptions spec (options.add name argument) none rest
    | none, '-' :: '-' :: c :: cs =>
      let (name, attached) := splitOption (c :: cs)
      if argument = "--version" then some (options, argument :: rest)
      else if spec.valued.contains name && (options.value? name).isNone then
        match attached with
        | some value => readOptions spec (options.add name value) none rest
        | none => readOptions spec options (some name) rest
      else if spec.flags.contains name && !options.has name && attached.isNone then
        readOptions spec { options with flags := name :: options.flags } none rest
      else none
    | none, _ => some (options, argument :: rest)

/-- Where the filter of a command comes from. The GeoJSON is still text. -/
structure Source where
  geostore : Option String
  geoJson : Option String

def Source.read (source : Source) : Outcome GeometrySource := do
  let geoJson ← source.geoJson.mapM fun text =>
    match Json.parse? text with
    | some json => pure json
    | none => throw .json
  pure { geostore := source.geostore, geoJson }

inductive Command where
  /-- A feature service query to SQL; a table name overrides that of the input. -/
  | toSql (table : Option String) (source : Source)
  | toFeature (source : Source) (excludeGeometries : Bool)
  | filtered (source : Source) (raster experimental : Bool)
  | check
  | write

inductive Job where
  | version
  | convert (command : Command)

def sourceOf (options : Options) : Source :=
  { geostore := options.value? "geostore", geoJson := options.value? "geojson" }

/-- The options of a subcommand, and the command that they make. -/
def subcommand? : String → Option (Spec × (Options → Command))
  | "fs2sql" =>
    some ({ valued := ["table-name", "geostore", "geojson"] },
      fun options => .toSql (options.value? "table-name") (sourceOf options))
  | "sql2fs" =>
    some ({ valued := ["geostore", "geojson"], flags := ["exclude-geometries"] },
      fun options => .toFeature (sourceOf options) (options.has "exclude-geometries"))
  | "sql2sql" =>
    some ({ valued := ["geostore", "geojson"], flags := ["raster", "experimental"] },
      fun options =>
        .filtered (sourceOf options) (options.has "raster") (options.has "experimental"))
  | "check-sql" => some ({}, fun _ => .check)
  | "json2sql" => some ({}, fun _ => .write)
  | _ => none

/-- An unsigned 64-bit integer in decimal digits, with at most a plus sign in front. -/
def isUInt64 (text : String) : Bool :=
  let digits := match text.toList with
    | '+' :: digits => digits
    | digits => digits
  !digits.isEmpty && digits.all Char.isDigit && natOfDigits digits < UInt64.size

def globalSpec : Spec := { valued := ["gateway-url", "api-key", "timeout-secs"] }

/-- What arguments ask for, unless they are wrong. -/
def job? (arguments : List String) : Option Job := do
  let (options, words) ← readOptions globalSpec {} none arguments
  guard ((options.value? "timeout-secs").all isUInt64)
  match words with
  | [] => none
  | word :: rest =>
    if word = "--version" || word.startsWith "-V" then pure .version
    else
      let (spec, command) ← subcommand? word
      let (options, words) ← readOptions spec {} none rest
      guard (words = [] || words = ["--"])
      pure (.convert (command options))

/-- What a run leaves behind: an exit code, and text on standard output. -/
structure Run where
  exitCode : Nat
  output : String
  deriving DecidableEq, Repr

def Command.run (command : Command) (input : String) : Outcome Conversion := do
  match command with
  | .toSql table source =>
    let query ← decode Feature.Query.ofJson? input
    let query := { query with tableName := table <|> query.tableName }
    Converter.toSql {} { query, source := ← source.read }
  | .toFeature source excludeGeometries =>
    Converter.toFeature {} { sql := input, source := ← source.read, excludeGeometries }
  | .filtered source raster experimental =>
    Converter.filtered {} { sql := input, source := ← source.read, raster, experimental }
  | .check => Converter.check {} input
  | .write => Converter.write {} (← decode Sql.Query.ofJson? input)

def programVersion : String := "fsconvert 0.1.0"

def Job.run (job : Job) (input : String) : Run :=
  match job with
  | .version => { exitCode := 0, output := programVersion }
  | .convert command =>
    match command.run (trim input) with
    | .ok conversion => { exitCode := 0, output := conversion.toJson.pretty }
    | .error error => { exitCode := 1, output := error.toJson.compact }

def run (arguments : List String) (input : String) : Run :=
  match job? arguments with
  | some job => job.run input
  | none => { exitCode := 2, output := "" }

end FeatureSql.CommandLine
