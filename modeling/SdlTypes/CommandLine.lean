import SdlTypes.FileTree

/-!
# The command line

There is one command, `generate`, with the parameters below. A parameter is given by its long
name, with the value behind an equals sign or as the next argument, or by its letter, with the
value behind it or as the next argument; letters of parameters without value may stand together.
Of a parameter that is given repeatedly the last value counts.

`Arguments.read?` reads the parameters in their order. Their values are looked at in the order in
which the parameters were first given: paths that are to be read have to lead somewhere, and to an
entry of the right kind. After that it counts whether something is missing or was given in vain.
`CommandLine.ofArguments` reads a whole line.
-/

namespace SdlTypes

/-- The parameters of the command. -/
inductive Parameter where
  | schema
  | output
  | config
  | header
  | excluded
  | templates
  | verbose
  deriving DecidableEq

namespace Parameter

/-- All parameters. -/
def all : List Parameter :=
  [.schema, .output, .config, .header, .excluded, .templates, .verbose]

/-- The long name. -/
def longName : Parameter → String
  | .schema => "schema"
  | .output => "output"
  | .config => "config"
  | .header => "header"
  | .excluded => "exclude-prefix"
  | .templates => "template-dir"
  | .verbose => "verbose"

/-- The letter. -/
def letter? : Parameter → Option Char
  | .schema => some 's'
  | .output => some 'o'
  | .config => some 'c'
  | .verbose => some 'v'
  | _ => none

/-- Whether a value belongs to the parameter. -/
def hasValue (p : Parameter) : Bool :=
  p ≠ .verbose

/-- The parameter with a long name. -/
def ofLongName? (name : String) : Option Parameter :=
  all.find? fun p => p.longName = name

/-- The parameter with a letter. -/
def ofLetter? (c : Char) : Option Parameter :=
  all.find? fun p => p.letter? = some c

end Parameter

/-- A parameter that was given, with its value; the value of a parameter that has none is
empty. -/
abbrev Setting := Parameter × String

/-- The settings that one argument makes: some of them complete, and maybe a parameter whose
value is the next argument. -/
structure Settings where
  complete : List Setting
  open? : Option Parameter

/-- Reads the letters behind a dash. -/
def settingsOfLetters? : List Char → Option Settings
  | [] => some ⟨[], none⟩
  | c :: rest => do
    let p ← Parameter.ofLetter? c
    if p.hasValue then
      return if rest.isEmpty then ⟨[], some p⟩ else ⟨[(p, String.ofList rest)], none⟩
    else
      let s ← settingsOfLetters? rest
      return ⟨(p, "") :: s.complete, s.open?⟩

/-- Reads a long name and what stands behind it. -/
def settingsOfLongName? (written : String) : Option Settings := do
  match Text.cut? "=" written with
  | some (name, value) =>
    let p ← Parameter.ofLongName? name
    if p.hasValue then return ⟨[(p, value)], none⟩ else none
  | none =>
    let p ← Parameter.ofLongName? written
    return if p.hasValue then ⟨[], some p⟩ else ⟨[(p, "")], none⟩

/-- Whether an argument is there to give parameters. -/
def isParameter (argument : String) : Bool :=
  Text.startsWith argument "-" && argument ≠ "-"

/-- Reads an argument that gives parameters. -/
def settingsOfArgument? (argument : String) : Option Settings :=
  match argument.toList with
  | '-' :: '-' :: name => settingsOfLongName? (String.ofList name)
  | '-' :: c :: rest => settingsOfLetters? (c :: rest)
  | _ => none

/-- What the arguments of the command hold. -/
structure Arguments where
  /-- The settings in their order. -/
  settings : List Setting
  /-- Whether there are arguments that belong to no parameter. -/
  hasSurplus : Bool

namespace Arguments

/-- Some settings and then other arguments. -/
def prepend (settings : List Setting) (a : Arguments) : Arguments :=
  { a with settings := settings ++ a.settings }

/-- Reads the arguments of the command. Behind two dashes there are no parameters. -/
def read? : List String → Option Arguments
  | [] => some ⟨[], false⟩
  | argument :: rest =>
    if argument = "--" then some ⟨[], !rest.isEmpty⟩
    else if isParameter argument then
      match settingsOfArgument? argument with
      | none => none
      | some ⟨complete, none⟩ => (prepend complete) <$> read? rest
      | some ⟨complete, some p⟩ =>
        match rest with
        | [] => none
        | value :: rest => (prepend (complete ++ [(p, value)])) <$> read? rest
    else (fun a => { a with hasSurplus := true }) <$> read? rest

/-- The value of a parameter that was given last. -/
def value? (a : Arguments) (p : Parameter) : Option String :=
  a.settings.reverse.lookup p

/-- The parameters that were given, each where it was given first. -/
def parameters (a : Arguments) : List Parameter :=
  (a.settings.map Prod.fst).eraseDups

end Arguments

/-! ## What is wrong with values -/

/-- The reasons why a command line cannot be carried out. -/
inductive CommandLineError where
  /-- The command line makes no sense. -/
  | usage
  /-- The names of a path are none. -/
  | badPath (path : String) (obstacle : Obstacle)
  deriving DecidableEq

/-- Looks at a path among the values. It makes no sense unless it leads to an entry that is fit for
its purpose. -/
def checkPath (t : FileTree) (directory : Path) (written : String) (isFit : Option Entry → Bool) :
    Except CommandLineError Unit :=
  let found : Except CommandLineError (Option Entry) :=
    match t.locate directory written with
    | .ok place => .ok (t.find? place)
    | .error o => if o.isOfNames then .error (.badPath written o) else .ok none
  do if isFit (← found) then return () else throw .usage

/-- Looks at the value of a parameter. -/
def Parameter.check (t : FileTree) (directory : Path) (p : Parameter) (value : String) :
    Except CommandLineError Unit :=
  match p with
  | .schema => checkPath t directory value Option.isSome
  | .config => checkPath t directory value fun e => e.any (· ≠ .directory)
  | .templates => checkPath t directory value fun e => e.any (!·.isRegular)
  | .output => checkPath t directory value fun _ => true
  | .header | .excluded | .verbose => .ok ()

/-! ## The whole line -/

/-- What a command line asks for. -/
structure CommandLine where
  schema : String
  output : String
  config : Option String
  header : Option String
  excluded : Option String
  templates : Option String
  verbose : Bool

namespace CommandLine

/-- What arguments ask for; the schema and the output are needed, and nothing more than the
parameters is allowed. -/
def ofValues? (a : Arguments) : Option CommandLine := do
  if a.hasSurplus then failure
  return {
    schema := ← a.value? .schema
    output := ← a.value? .output
    config := a.value? .config
    header := a.value? .header
    excluded := a.value? .excluded
    templates := a.value? .templates
    verbose := (a.value? .verbose).isSome }

/-- What the arguments of the command ask for, once their values have been looked at. -/
def ofValues (t : FileTree) (directory : Path) (a : Arguments) :
    Except CommandLineError CommandLine := do
  a.parameters.forM fun p => p.check t directory ((a.value? p).getD "")
  match ofValues? a with
  | some c => return c
  | none => throw .usage

/-- The arguments of the command in a command line: they follow its name, before which there may be
two dashes. -/
def arguments? : List String → Option Arguments
  | "generate" :: rest => Arguments.read? rest
  | "--" :: "generate" :: rest => Arguments.read? rest
  | _ => none

/-- Reads a command line that is given in a directory. -/
def ofArguments (t : FileTree) (directory : Path) (arguments : List String) :
    Except CommandLineError CommandLine :=
  match arguments? arguments with
  | some a => ofValues t directory a
  | none => .error .usage

end CommandLine

end SdlTypes
