import SelectCompiler.Text.Numeral

/-!
The arguments of the command line, read from left to right. A value belongs to an option when it
stands in the same argument or in the next one, and an option that takes a value, like a switch, may
be given only once.
-/

namespace SelectCompiler.CommandLine

inductive OutputFormat where
  | text
  | json
  deriving DecidableEq, Repr

structure Options where
  document : Option String := none
  settingsFile : Option String := none
  offset : Option Nat := none
  strictJoins : Bool := false
  allowRawJoins : Option Bool := none
  postgres : Bool := false
  format : Option OutputFormat := none
  verbosity : Nat := 0
  deriving DecidableEq, Repr

inductive Request where
  | compile (options : Options)
  | version
  | help
  deriving DecidableEq, Repr

/-- The options that take a value. -/
inductive ValueOption where
  | settingsFile
  | offset
  | allowRawJoins
  | format
  deriving DecidableEq, Repr

namespace Options

/-- The options with one more value, unless that is given twice or is no value of its option. -/
def set? (options : Options) (option : ValueOption) (value : String) : Option Options :=
  match option with
  | .settingsFile =>
    if options.settingsFile.isSome || value.isEmpty then none
    else some { options with settingsFile := some value }
  | .offset =>
    if options.offset.isSome then none
    else (Text.unsigned? value).map fun n => { options with offset := some n }
  | .allowRawJoins =>
    match options.allowRawJoins, value with
    | none, "true" => some { options with allowRawJoins := some true }
    | none, "false" => some { options with allowRawJoins := some false }
    | _, _ => none
  | .format =>
    match options.format, value with
    | none, "text" => some { options with format := some .text }
    | none, "json" => some { options with format := some .json }
    | _, _ => none

/-- The options with the document to compile; there is only one. -/
def setDocument? (options : Options) (path : String) : Option Options :=
  if options.document.isSome || path.isEmpty then none
  else some { options with document := some path }

end Options

/-- What an argument leads to: more arguments, a request at once, or a value that must follow. -/
inductive Outcome where
  | more (options : Options)
  | stop (request : Request)
  | awaiting (options : Options) (option : ValueOption)

/-- The option of a long name that takes a value. -/
def valueOption? (name : String) : Option ValueOption :=
  match name with
  | "config" => some .settingsFile
  | "offset" => some .offset
  | "allow-raw-joins" => some .allowRawJoins
  | "format" => some .format
  | _ => none

/-- A switch of a long name. -/
def switch? (options : Options) (name : String) : Option Outcome :=
  match name with
  | "strict-joins" =>
    if options.strictJoins then none else some (.more { options with strictJoins := true })
  | "postgres" =>
    if options.postgres then none else some (.more { options with postgres := true })
  | "verbose" => some (.more { options with verbosity := options.verbosity + 1 })
  | "version" => some (.stop .version)
  | "help" => some (.stop .help)
  | _ => none

/-- An argument behind two dashes, with or without a value of its own. -/
def long? (options : Options) (chars : List Char) : Option Outcome :=
  let name := String.ofList (chars.takeWhile (· != '='))
  match valueOption? name, chars.dropWhile (· != '=') with
  | some option, _ :: value => (options.set? option (String.ofList value)).map .more
  | some option, [] => some (.awaiting options option)
  | none, [] => switch? options name
  | none, _ :: _ => none

/-- Letters behind one dash. The letter for the settings file takes the rest as its value. -/
def short? (options : Options) : List Char → Option Outcome
  | [] => some (.more options)
  | 'v' :: rest => short? { options with verbosity := options.verbosity + 1 } rest
  | 'V' :: _ => some (.stop .version)
  | 'h' :: _ => some (.stop .help)
  | ['c'] => some (.awaiting options .settingsFile)
  | 'c' :: '=' :: value => (options.set? .settingsFile (String.ofList value)).map .more
  | 'c' :: value => (options.set? .settingsFile (String.ofList value)).map .more
  | _ => none

/-- Whether an argument can be no value: a dash with something behind it. -/
def isOption (argument : String) : Bool :=
  match argument.toList with
  | '-' :: _ :: _ => true
  | _ => false

def argument? (options : Options) (argument : String) : Option Outcome :=
  match argument.toList with
  | '-' :: '-' :: chars => long? options chars
  | '-' :: c :: chars => short? options (c :: chars)
  | _ => (options.setDocument? argument).map .more

/-- What the arguments ask for, unless they are malformed. Behind two dashes alone there are no
more options. -/
def request? (options : Options) : List String → Option Request
  | [] => some (.compile options)
  | "--" :: operands => (operands.foldlM Options.setDocument? options).map .compile
  | argument :: rest =>
    match argument? options argument with
    | none => none
    | some (.stop request) => some request
    | some (.more options) => request? options rest
    | some (.awaiting options option) =>
      match rest with
      | [] => none
      | value :: rest =>
        if isOption value then none
        else (options.set? option value).bind fun options => request? options rest

end SelectCompiler.CommandLine
