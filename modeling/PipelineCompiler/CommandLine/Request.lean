import PipelineCompiler.CommandLine.Argument
import PipelineCompiler.Compile

set_option autoImplicit false

namespace PipelineCompiler.CommandLine

structure CompileRequest where
  graph : Path
  plugins : Path
  output : Option Path
  job : Option Path
  format : Option Format
  overrides : Overrides
  deriving Repr, DecidableEq

inductive Command where
  | compile (request : CompileRequest)
  | initSettings
  | showSettings
  deriving Repr, DecidableEq

inductive Stop where
  | wrong (form : CommandForm) (e : UsageError)
  | help (form : CommandForm)
  /-- A command that needs another was given alone. -/
  | alone (form : CommandForm)
  /-- A path holds a null character. -/
  | malformedPath
  deriving Repr, DecidableEq

def helpForm : OptionForm := ⟨.help, ["--help"], .switch true⟩

def programForm : CommandForm :=
  ⟨"cli", "[OPTIONS] COMMAND [ARGS]...",
    [⟨.verbose, ["--verbose", "-v"], .switch true⟩, helpForm], false⟩

def pluginsNames : List String := ["--plugins", "-p"]

def outputNames : List String := ["--output", "-o"]

def formatNames : List String := ["--format"]

def jobNames : List String := ["--job-file"]

def graphName : String := "GRAPH_PATH"

def compileForm : CommandForm :=
  ⟨"cli compile", "[OPTIONS] GRAPH_PATH",
    [⟨.plugins, pluginsNames, .value⟩, ⟨.output, outputNames, .value⟩,
      ⟨.format, formatNames, .value⟩, ⟨.strict, ["--strict"], .switch true⟩,
      ⟨.strict, ["--no-strict"], .switch false⟩, ⟨.validate, ["--validate"], .switch true⟩,
      ⟨.validate, ["--no-validate"], .switch false⟩, ⟨.job, jobNames, .value⟩, helpForm], true⟩

def settingsForm : CommandForm :=
  ⟨"cli settings", "[OPTIONS] COMMAND [ARGS]...", [helpForm], false⟩

def initForm : CommandForm := ⟨"cli settings init", "[OPTIONS]", [helpForm], true⟩

def showForm : CommandForm := ⟨"cli settings show", "[OPTIONS]", [helpForm], true⟩

/-- The arguments of a command, unless help is wanted. -/
def readArguments (form : CommandForm) (arguments : List String) : Except Stop Arguments :=
  match form.read arguments with
  | .error e => .error (.wrong form e)
  | .ok a => if a.asksHelp then .error (.help form) else .ok a

/-- Arguments of a command that leads to others: its own, the name of the other, and the rest. -/
def readGroup (form : CommandForm) (commands : List String) (arguments : List String) :
    Except Stop (Arguments × String × List String) := do
  if arguments.isEmpty then .error (.alone form)
  let a ← readArguments form arguments
  match a.operands with
  | [] => .error (.wrong form .lacksCommand)
  | name :: rest =>
    if commands.contains name then .ok (a, name, rest)
    else
      if CommandForm.isOption name then
        let _ ← readArguments form a.operands
      .error (.wrong form (.unknownCommand name (Text.closeTo name commands)))

def pathFault (isFolder : String → Bool) (names : List String) (path : String) : Option Stop :=
  if (Path.ofText path).isMalformed then some .malformedPath
  else if isFolder path then some (.wrong compileForm (.isFolder names path))
  else none

def compileFault (isFolder : String → Bool) (a : Arguments) : Parameter → Option Stop
  | .graph =>
    match a.operands with
    | [] => some (.wrong compileForm (.missingArgument graphName))
    | path :: _ => pathFault isFolder [graphName] path
  | .plugins =>
    match a.text? .plugins with
    | none => some (.wrong compileForm (.missingOption pluginsNames))
    | some path => pathFault isFolder pluginsNames path
  | .output => (a.text? .output).bind (pathFault isFolder outputNames)
  | .job => (a.text? .job).bind (pathFault isFolder jobNames)
  | .format =>
    (a.text? .format).bind fun name =>
      if (Format.ofName? name).isNone then
        some (.wrong compileForm
          (.notOneOf formatNames name [Format.json.name, Format.yaml.name]))
      else none
  | _ => none

/-- Parameters as they are judged: options in the order given, the operand, what is missing. -/
def judged (a : Arguments) : List Parameter := a.given.map Prod.fst ++ [.graph, .plugins]

def extraFault (form : CommandForm) (operands : List String) : Option Stop :=
  if operands.isEmpty then none else some (.wrong form (.extraArguments operands))

def compileRequest (isFolder : String → Bool) (arguments : List String) :
    Except Stop CompileRequest := do
  let a ← readArguments compileForm arguments
  match (judged a).findSome? (compileFault isFolder a) <|>
      extraFault compileForm (a.operands.drop 1) with
  | some stop => .error stop
  | none =>
    .ok
      { graph := Path.ofText (a.operands.headD "")
        plugins := Path.ofText ((a.text? .plugins).getD "")
        output := (a.text? .output).map Path.ofText
        job := (a.text? .job).map Path.ofText
        format := (a.text? .format).bind Format.ofName?
        overrides := ⟨a.switch? .strict, a.switch? .validate⟩ }

def plainRequest (form : CommandForm) (command : Command) (arguments : List String) :
    Except Stop Command := do
  let a ← readArguments form arguments
  match extraFault form a.operands with
  | some stop => .error stop
  | none => .ok command

def settingsRequest (arguments : List String) : Except Stop Command := do
  let (_, name, rest) ← readGroup settingsForm ["init", "show"] arguments
  if name = "init" then plainRequest initForm .initSettings rest
  else plainRequest showForm .showSettings rest

structure Call where
  verbose : Bool
  name : String
  arguments : List String
  deriving Repr, DecidableEq

def programCall (arguments : List String) : Except Stop Call := do
  let (a, name, rest) ← readGroup programForm ["compile", "settings"] arguments
  .ok ⟨(a.switch? .verbose).getD false, name, rest⟩

def Call.command (isFolder : String → Bool) (c : Call) : Except Stop Command :=
  if c.name = "compile" then (compileRequest isFolder c.arguments).map .compile
  else settingsRequest c.arguments

def mentionedPaths (arguments : List String) : List Path :=
  match programCall arguments with
  | .error _ => []
  | .ok call =>
    match compileForm.read call.arguments with
    | .error _ => []
    | .ok a =>
      let texts := [Parameter.plugins, .output, .job].filterMap a.text?
      (a.operands ++ texts).map Path.ofText

end PipelineCompiler.CommandLine
