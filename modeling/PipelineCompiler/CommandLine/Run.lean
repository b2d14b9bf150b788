import PipelineCompiler.CommandLine.Dialog
import PipelineCompiler.Load
import PipelineCompiler.Settings.Store
import PipelineCompiler.Text.Control

set_option autoImplicit false

/- What a run prints is plain text, whatever paths and names hold; only its log shows them as they
are. -/
namespace PipelineCompiler.CommandLine

structure Surroundings where
  folder : Folder
  environment : OrderedMap String String
  /-- The user's home where the environment names none. -/
  accountHome : String
  input : String
  deriving Repr, DecidableEq

inductive Escape where
  | homeless
  | malformedPath
  | unreadable (e : OpenError)
  | unwritable (e : WriteError)
  | notText (fault : Text.Utf8.Fault)
  | beyond (failure : Json.Failure)
  | compile (e : CompileError)
  deriving Repr, DecidableEq

def Escape.message : Escape → String
  | .homeless => "Could not determine home directory."
  | .malformedPath => OpenError.malformed.message ""
  | .unreadable _ => "The path of a file is too long"
  | .unwritable .absent => "The folder of a file is missing"
  | .unwritable .directory => "A folder stands where a file is to be written"
  | .unwritable .blocked => "A path leads through a file"
  | .unwritable .occupied => "A file stands where a folder is wanted"
  | .unwritable .tooLong => "The path of a file is too long"
  | .unwritable .malformed => OpenError.malformed.message ""
  | .unwritable .busy => "A folder that is in use cannot be replaced"
  | .notText fault => fault.message
  | .beyond failure => failure.message
  | .compile e => e.message

structure Outcome where
  exitCode : Nat
  output : String
  /-- What is printed beside the output, below the log. -/
  messages : String
  log : List LogLine
  /-- The least level of log lines that are shown; `none` if nobody set it up. -/
  threshold : Option Level
  folder : Folder
  escape : Option Escape
  deriving Repr, DecidableEq

/-- Lines of a log that are shown. Where nobody set it up warnings stand bare. -/
def shownLog (threshold : Option Level) (log : List LogLine) : String :=
  String.join <| log.filterMap fun l =>
    match threshold, l.level with
    | none, .warning => some (l.text ++ "\n")
    | none, .info => none
    | some .warning, .info => none
    | some _, _ => some (l.labelled ++ "\n")

def variableNames : List String :=
  ["HOME", "PYTEST_CURRENT_TEST", EnvironmentSettings.cwlVersionName,
    EnvironmentSettings.stepCwlVersionName, EnvironmentSettings.strictName]

namespace Surroundings

def home? (s : Surroundings) : Option Path :=
  Path.home? ((s.environment.get? "HOME").getD s.accountHome)

def settingsStore? (s : Surroundings) : Option SettingsStore :=
  s.home?.map fun home => .new (SettingsStore.defaultPath home)

def environmentSettings (s : Surroundings) : EnvironmentSettings :=
  .ofVariables s.environment.get?

/-- Nothing is set up while a test runs. -/
def threshold (s : Surroundings) (verbose : Bool) : Option Level :=
  match s.environment.get? "PYTEST_CURRENT_TEST" with
  | none | some "" => some (if verbose then .info else .warning)
  | some _ => none

/-- An empty path leads nowhere, and neither does one that is too long as it is written. -/
def isFolder (s : Surroundings) (path : String) : Bool :=
  path ≠ "" && path.utf8ByteSize ≤ Path.textLimit && s.folder.isDirectory (Path.ofText path)

def start (s : Surroundings) (threshold : Option Level) : Outcome :=
  ⟨0, "", "", [], threshold, s.folder, none⟩

end Surroundings

namespace Outcome

def print (o : Outcome) (text : String) : Outcome :=
  { o with output := o.output ++ Text.withoutControls text }

def remark (o : Outcome) (text : String) : Outcome :=
  { o with messages := o.messages ++ Text.withoutControls text }

def fail (o : Outcome) (message : String) : Outcome :=
  { o.remark s!"cli: {message}\n" with exitCode := 1 }

def escaped (o : Outcome) (e : Escape) : Outcome := { o with exitCode := 1, escape := some e }

def stop (o : Outcome) : Stop → Outcome
  | .wrong form e => { o.remark (e.report form) with exitCode := 2 }
  | .help form => o.print form.help
  | .alone form => { o.remark form.help with exitCode := 2 }
  | .malformedPath => o.escaped .malformedPath

def write (o : Outcome) (path : Path) (text : String) (next : Outcome → Outcome) : Outcome :=
  match o.folder.write path (Text.Utf8.encode text) with
  | .ok folder => next { o with folder := folder }
  | .error e => o.escaped (.unwritable e)

end Outcome

def stepCount (w : Workflow) : Nat := w.orderedSteps.size

/-- The document's format: as asked for, else as the name of the file says, else JSON. -/
def documentFormat (r : CompileRequest) : Format :=
  r.format.getD ((r.output.bind Format.ofPath?).getD .json)

/-- Job inputs go to a file of their own, in the document's format unless the name of the file says
otherwise. -/
def writeJob (r : CompileRequest) (w : Workflow) (o : Outcome) : Outcome :=
  match r.job with
  | none => o
  | some path =>
    let format := (Format.ofPath? path).getD (documentFormat r)
    o.write path (render format w.jobValue w.jobNode) fun o =>
      o.remark s!"Wrote job inputs to {path.text}\n"

def writeWorkflow (r : CompileRequest) (w : Workflow) (o : Outcome) : Outcome :=
  let text := render (documentFormat r) w.document (w.documentNode w.document)
  match r.output with
  | none => writeJob r w (o.print text)
  | some path =>
    o.write path text fun o =>
      writeJob r w (o.remark s!"Wrote {stepCount w} step(s) to {path.text}\n")

def loadFailure (o : Outcome) (e : LoadError) : Outcome :=
  match e with
  | .failed _ _ => o.fail e.message
  | .notText fault => o.escaped (.notText fault)
  | .beyond failure => o.escaped (.beyond failure)
  | .malformedPath => o.escaped .malformedPath

def pipelineFailure (o : Outcome) (e : PipelineError) : Outcome :=
  match e with
  | .invalid v => o.fail s!"Generated workflow is invalid: {v.message}"
  | .compile e => if e.isAnnounced then o.fail e.message else o.escaped (.compile e)

def compileWith (s : Surroundings) (r : CompileRequest) (settings : Settings) (o : Outcome) :
    Outcome :=
  match loadGraph r.graph.text (s.folder.stateAt r.graph),
      loadPlugins r.plugins.text (s.folder.stateAt r.plugins) with
  | .error e, _ => loadFailure o e
  | .ok _, .error e => loadFailure o e
  | .ok graph, .ok plugins =>
    let logged := { o with log := o.log ++ compileLog settings r.overrides plugins graph }
    match compile settings r.overrides plugins graph with
    | .error e => pipelineFailure logged e
    | .ok w => writeWorkflow r w logged

/-- Goes on with the settings as they load, or ends because their file cannot be looked for. -/
def withSettings (s : Surroundings) (store : SettingsStore) (o : Outcome)
    (next : Settings → Outcome → Outcome) : Outcome :=
  let file := s.folder.stateAt store.path
  match store.load file s.environmentSettings with
  | .ok (settings, _) =>
    next settings { o with log := o.log ++ store.loadLog file s.environmentSettings }
  | .error e => o.escaped (.unreadable e)

def settingsText (s : Settings) : String := Json.encodeIndented s.toValue

/-- Settings that are there already are not overwritten unasked. -/
def question? (s : Surroundings) : Command → Option String
  | .initSettings => do
    let store ← s.settingsStore?
    if (s.folder.stateAt store.path).isPresent then
      some (Text.withoutControls
        s!"Settings file already exists at {store.path.text}. Overwrite? [y/N]: ")
    else none
  | _ => none

def initSettings (s : Surroundings) (store : SettingsStore) (o : Outcome) : Outcome :=
  if s.folder.stateAt store.path = .tooLong then o.escaped (.unreadable .tooLong)
  else
    let saving := store.saveIn s.folder Settings.default.toValue
    let after := { o with folder := saving.folder }
    match saving.error with
    | some e => after.escaped (.unwritable e)
    | none =>
      let path := store.path.text
      let text := settingsText .default
      after.print s!"Created settings file at: {path}\n\nDefault settings:\n{text}\n"

def showSettings (store : SettingsStore) (settings : Settings) (o : Outcome) : Outcome :=
  let path := store.path.text
  let text := settingsText settings
  o.print s!"Settings file: {path}\n\nCurrent settings:\n{text}\n"

def runCommand (s : Surroundings) (c : Command) (o : Outcome) : Outcome :=
  match s.settingsStore? with
  | none => o.escaped .homeless
  | some store =>
    match c with
    | .compile r => withSettings s store o (compileWith s r)
    | .initSettings => initSettings s store o
    | .showSettings => withSettings s store o (showSettings store)

/-- A command is done if the user agreed, where there was a question. -/
def perform (s : Surroundings) (o : Outcome) (agreed : Bool) (c : Command) : Outcome :=
  if agreed then runCommand s c o else { o.remark "Aborted!\n" with exitCode := 1 }

def prepare (s : Surroundings) (arguments : List String) : Except Outcome (Outcome × Command) :=
  match programCall arguments with
  | .error stop => .error ((s.start none).stop stop)
  | .ok call =>
    let o := s.start (s.threshold call.verbose)
    match call.command s.isFolder with
    | .error stop => .error (o.stop stop)
    | .ok command => .ok (o, command)

def run (s : Surroundings) (arguments : List String) : Outcome :=
  match prepare s arguments with
  | .error o => o
  | .ok (o, command) =>
    match question? s command with
    | none => perform s o true command
    | some question =>
      let (agreed, shown) := confirm question (linesOf s.input)
      perform s { o with output := o.output ++ shown } agreed command

end PipelineCompiler.CommandLine
