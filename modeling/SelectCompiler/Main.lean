import SelectCompiler.CommandLine.Run

/-!
The program: it gathers what a run can see, and writes what comes of it.
-/

namespace SelectCompiler.CommandLine

/-- The variables that hold settings. -/
def settingVariables : List String :=
  ["VOLUNTEER_SEARCH_STRICT_JOINS", "VOLUNTEER_SEARCH_ALLOW_RAW_JOINS",
    "VOLUNTEER_SEARCH_DEFAULT_TYPE_HINT", "VOLUNTEER_SEARCH_PARAM_OFFSET"]

/-- The contents of a file, if it can be read. -/
def contents? (path : String) : IO (Option String) := do
  match ← (IO.FS.readFile path).toBaseIO with
  | .ok text => return some text
  | .error _ => return none

/-- The paths among these whose files can be read, with the contents. -/
def readable (paths : List String) : IO (List (String × String)) :=
  paths.filterMapM fun path => return (← contents? path).map fun text => (path, text)

/-- The given variables that are set, with their values. -/
def environment (names : List String) : IO (List (String × String)) :=
  names.filterMapM fun name => return (← IO.getEnv name).map fun value => (name, value)

/-- Standard input, when the request compiles what stands there. -/
def inputFor (request : Option Request) : IO String := do
  match request with
  | some (.compile options) =>
    if options.document.isNone then (← IO.getStdin).readToEnd else return ""
  | _ => return ""

end SelectCompiler.CommandLine

open SelectCompiler CommandLine in
def main (arguments : List String) : IO UInt32 := do
  let request := request? {} arguments
  let files ← readable ((request.map Request.paths).getD [])
  let seen : Surroundings :=
    ⟨fun path => files.lookup path, ← environment settingVariables, ← inputFor request⟩
  match run seen arguments with
  | .ok output =>
    IO.print output
    return 0
  | .error failure =>
    IO.eprintln ("Error: " ++ (failure.message?.getD "the arguments cannot be understood"))
    return failure.exitCode.toUInt32
