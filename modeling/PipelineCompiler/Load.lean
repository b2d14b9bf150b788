import PipelineCompiler.File.Content
import PipelineCompiler.Json.Decode
import PipelineCompiler.Model.Graph

set_option autoImplicit false

namespace PipelineCompiler

inductive LoadFault where
  | unreadable (e : OpenError)
  | notJson (failure : Json.Failure)
  | invalidGraph (report : Model.Report)
  | invalidPlugin (report : Model.Report)
  | noCatalog
  deriving Repr, DecidableEq

inductive LoadError where
  | failed (path : String) (fault : LoadFault)
  /-- The bytes are no text. -/
  | notText (fault : Text.Utf8.Fault)
  /-- The text is JSON so far, but more than can be read. -/
  | beyond (failure : Json.Failure)
  | malformedPath
  deriving Repr, DecidableEq

def LoadFault.headline : LoadFault → String
  | .unreadable _ => "Could not read file"
  | .notJson _ => "File is not valid JSON"
  | .invalidGraph _ => "Invalid pipeline graph"
  | .invalidPlugin _ => "Invalid plugin catalog"
  | .noCatalog => "Plugin catalog must be a list or an object with a 'plugins' list"

def LoadFault.cause? (path : String) : LoadFault → Option String
  | .unreadable e => some (e.message path)
  | .notJson failure => some failure.message
  | .invalidGraph report => some report.message
  | .invalidPlugin report => some report.message
  | .noCatalog => none

def LoadError.message : LoadError → String
  | .failed path fault =>
    fault.headline ++ "\nFile: " ++ path ++
      match fault.cause? path with
      | some cause => "\nOriginal error: " ++ cause
      | none => ""
  | .notText fault => fault.message
  | .beyond failure => failure.message
  | .malformedPath => OpenError.malformed.message ""

def readData [Json.Dialect] (path : String) (file : FileState) : Except LoadError Value :=
  match file.contentOf with
  | .error .malformed => .error .malformedPath
  | .error e => .error (.failed path (.unreadable e))
  | .ok content =>
    match textOfContent content with
    | .error fault => .error (.notText fault)
    | .ok text =>
      match Json.decode text with
      | .ok data => .ok data
      | .error failure =>
        .error (if failure.fault.isLimit then .beyond failure else .failed path (.notJson failure))

/-- A pipeline stands alone or in the field `state` of an editor's state. -/
def graphData (data : Value) : Value :=
  match data.field? "nodes", data.field? "state" with
  | none, some state => state
  | _, _ => data

def loadGraph [Json.Dialect] (path : String) (file : FileState) : Except LoadError Graph := do
  let data ← readData path file
  (Graph.read (graphData data)).mapError fun report => .failed path (.invalidGraph report)

def readPlugins : List Value → Except Model.Report (List Plugin)
  | [] => .ok []
  | v :: rest => do
    let p ← Plugin.read v
    let ps ← readPlugins rest
    .ok (p :: ps)

/-- A catalog is a list of plugins, or an object with such a list. -/
def catalogData (data : Value) : Value :=
  match data with
  | .object _ => (data.field? "plugins").getD .null
  | v => v

def loadPlugins [Json.Dialect] (path : String) (file : FileState) :
    Except LoadError (List Plugin) := do
  match catalogData (← readData path file) with
  | .list items => (readPlugins items).mapError fun report => .failed path (.invalidPlugin report)
  | _ => .error (.failed path .noCatalog)

end PipelineCompiler
