import SelectCompiler.CommandLine.Options
import SelectCompiler.Json.Reader
import SelectCompiler.Postgres.Statement
import SelectCompiler.Settings.Loading
import SelectCompiler.Statement.Document

/-!
A run of the command line over what it can see: files, environment variables and standard input.
Settings come first, then the document, then its compilation.
-/

namespace SelectCompiler.CommandLine

def versionText : String := "sql-compile 0.1.0\n"

def helpText : String :=
  "Compile a statement-parts document into parameterized SQL\n\n"
    ++ "Usage: sql-compile [OPTIONS] [FILE]\n\n"
    ++ "Options:\n"
    ++ "  -c, --config <CONFIG>\n"
    ++ "      --offset <OFFSET>\n"
    ++ "      --strict-joins\n"
    ++ "      --allow-raw-joins <ALLOW_RAW_JOINS>\n"
    ++ "      --postgres\n"
    ++ "      --format <FORMAT>\n"
    ++ "  -v, --verbose...\n"
    ++ "  -h, --help\n"
    ++ "  -V, --version\n"

/-- What a run can see. -/
structure Surroundings where
  file? : String → Option String
  environment : List (String × String)
  input : String

/-- Why a run ends without output. -/
inductive Failure where
  | usage
  | settings
  | unreadable (path : String)
  | notJson
  | statement (error : Error)
  deriving DecidableEq

namespace Failure

def exitCode : Failure → Nat
  | usage => 2
  | _ => 1

/-- The words for a failure; wrong usage has none here. -/
def message? : Failure → Option String
  | usage => none
  | settings => some "failed to load compiler configuration"
  | unreadable path => some ("failed to read " ++ path)
  | notJson => some "input is not valid JSON"
  | statement error => some error.message

end Failure

/-- Options override settings. -/
def Options.override (options : Options) (settings : Settings) : Settings :=
  { settings with
    offset := options.offset.getD settings.offset
    strictJoins := options.strictJoins || settings.strictJoins
    allowRawJoins := options.allowRawJoins.getD settings.allowRawJoins }

/-- A query and a line for each parameter. -/
def queryText (query : Query) : String :=
  let line (parameter : Where.Parameter) :=
    "  " ++ Placeholder.write parameter.index ++ " = " ++ parameter.value.compact ++ " ("
      ++ parameter.hint.name ++ ")\n"
  query.sql ++ "\n" ++ String.join (query.parameters.map line)

/-- A Postgres statement and a line for each value. -/
def postgresText (statement : PostgresStatement) : String :=
  let line (entry : BindValue × Nat) :=
    "  $" ++ entry.2.repr ++ " = " ++ entry.1.shown ++ "\n"
  statement.sql ++ "\n" ++ String.join ((statement.values.zipIdx 1).map line)

def postgresJson (statement : PostgresStatement) : Json :=
  .object [("sql", .string statement.sql),
    ("values", .array (statement.values.map fun value => .string value.shown))]

/-- The output for a query in the form that the options ask for. -/
def report (options : Options) (query : Query) : Except Error String := do
  let format := options.format.getD .text
  if options.postgres then
    let statement ← query.toPostgres
    match format with
    | .text => return postgresText statement
    | .json => return (postgresJson statement).indented ++ "\n"
  else
    match format with
    | .text => return queryText query
    | .json => return query.toJson.indented ++ "\n"

/-- The text to compile: the named file, or standard input without one. -/
def inputText (seen : Surroundings) (options : Options) : Except Failure String :=
  match options.document with
  | none => .ok seen.input
  | some path =>
    match seen.file? path with
    | some text => .ok text
    | none => .error (.unreadable path)

def fileChoice (options : Options) : FileChoice :=
  match options.settingsFile with
  | some path => .required path
  | none => .usual

/-- The output of a compilation. -/
def compile (seen : Surroundings) (options : Options) : Except Failure String := do
  let settings ← (Settings.load seen.file? seen.environment (fileChoice options)).mapError
    fun _ => Failure.settings
  let text ← inputText seen options
  match Json.ofText? text with
  | none => throw .notJson
  | some document =>
    let output : Except Error String := do
      report options (← compileDocument (options.override settings) document)
    output.mapError .statement

/-- The output of a run with the given arguments. -/
def run (seen : Surroundings) (arguments : List String) : Except Failure String :=
  match request? {} arguments with
  | none => .error .usage
  | some .version => .ok versionText
  | some .help => .ok helpText
  | some (.compile options) => compile seen options

/-- The files that a request may look at. -/
def Request.paths : Request → List String
  | .compile options =>
    Settings.candidates (options.settingsFile.getD Settings.usualPath) ++ options.document.toList
  | _ => []

end SelectCompiler.CommandLine
