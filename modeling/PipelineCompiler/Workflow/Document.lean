import PipelineCompiler.Filling
import PipelineCompiler.Port
import PipelineCompiler.Settings.Model
import PipelineCompiler.Yaml.Node

set_option autoImplicit false

namespace PipelineCompiler

structure ToolInput where
  flag : String
  type : CwlType
  optional : Bool
  deriving Repr, DecidableEq

structure ToolOutput where
  glob : String
  type : CwlType
  deriving Repr, DecidableEq

structure Tool where
  baseCommand : List String
  container : String
  version : String
  inputs : OrderedMap String ToolInput
  outputs : OrderedMap String ToolOutput
  /-- Expressions for what is staged writable. -/
  writable : List String
  deriving Repr, DecidableEq

/-- The map `sources` gives for a port the job input or the step output that feeds it. -/
structure Step where
  id : String
  run : Tool
  sources : OrderedMap String String
  out : List String
  deriving Repr, DecidableEq

structure WorkflowOutput where
  type : CwlType
  source : String
  deriving Repr, DecidableEq

/-- A value of the job. Values with one origin are one shared value. -/
structure JobInput where
  value : Value
  isDirectory : Bool
  origin : Option OutletRef
  deriving Repr, DecidableEq

/-- The list `order` has the ids of the steps in execution order; the map `steps` has the steps. -/
structure Workflow where
  header : Header
  jobInputs : OrderedMap String JobInput
  inputs : OrderedMap String CwlType
  outputs : OrderedMap String WorkflowOutput
  order : List String
  steps : OrderedMap String Step
  deriving Repr, DecidableEq

def directoryValue (location : Value) : Value :=
  .object [("class", .str "Directory"), ("location", location)]

def JobInput.toValue (j : JobInput) : Value :=
  if j.isDirectory then directoryValue j.value else j.value

def ToolInput.toValue (i : ToolInput) : Value :=
  .object
    [("inputBinding", .object [("prefix", .str i.flag)]),
      ("type", .str (if i.optional then i.type.optionalText else i.type.text))]

def ToolOutput.toValue (o : ToolOutput) : Value :=
  .object [("outputBinding", .object [("glob", .str o.glob)]), ("type", .str o.type.text)]

def OrderedMap.toObject {α : Type} (f : α → Value) (d : OrderedMap String α) : Value :=
  .object (d.map f).entries

def Tool.toValue (t : Tool) : Value :=
  .object
    [("baseCommand", .strings t.baseCommand), ("class", .str "CommandLineTool"),
      ("cwlVersion", .str t.version), ("inputs", t.inputs.toObject ToolInput.toValue),
      ("outputs", t.outputs.toObject ToolOutput.toValue),
      ("requirements", .object
        [("DockerRequirement", .object [("dockerPull", .str t.container)]),
          ("InitialWorkDirRequirement", .object
            [("listing", .list (t.writable.map fun entry =>
              .object [("entry", .str entry), ("writable", .bool true)]))]),
          ("InlineJavascriptRequirement", .object [])])]

def Step.toValue (s : Step) : Value :=
  .object
    [("in", s.sources.toObject fun source => .object [("source", .str source)]),
      ("run", s.run.toValue), ("out", .strings s.out)]

def WorkflowOutput.toValue (o : WorkflowOutput) : Value :=
  .object [("type", .str o.type.text), ("outputSource", .str o.source)]

namespace Workflow

def empty (header : Header) : Workflow := ⟨header, .empty, .empty, .empty, [], .empty⟩

/-- A step that is known already keeps its place among the steps and goes to the end of the
order. -/
def addStep (w : Workflow) (s : Step) : Workflow :=
  { w with order := w.order ++ [s.id], steps := w.steps.insert s.id s }

def jobValue (w : Workflow) : Value := w.jobInputs.toObject JobInput.toValue

/-- The first id of the order that no step has. -/
def unknownStep? (w : Workflow) : Option String := w.order.find? fun id => !w.steps.contains id

def orderedSteps (w : Workflow) : OrderedMap String Step :=
  OrderedMap.ofList (w.order.filterMap fun id => (w.steps.get? id).map fun s => (id, s))

/-- The document. Ids in the order that no step has do not show in it. -/
def document (w : Workflow) : Value :=
  .object
    [("name", .str w.header.name), ("cwlVersion", .str w.header.cwlVersion),
      ("driver", .str w.header.driver), ("class", .str "Workflow"),
      ("$namespaces", w.header.namespaces.toObject .str), ("$schemas", .strings w.header.schemas),
      ("cwlJobInputs", w.jobValue),
      ("inputs", w.inputs.toObject fun t => .object [("type", .str t.text)]),
      ("outputs", w.outputs.toObject WorkflowOutput.toValue),
      ("steps", w.orderedSteps.toObject Step.toValue)]

/-- The document, unless the order names a step that does not exist. -/
def document? (w : Workflow) : Except String Value :=
  match w.unknownStep? with
  | some id => .error id
  | none => .ok w.document

/-- Lists and objects with one origin are shared between the job inputs. -/
def sharing (j : JobInput) : Option OutletRef :=
  match j.value with
  | .list _ => j.origin
  | .object _ => j.origin
  | _ => none

def jobInputNode (mark : Yaml.Mark) (j : JobInput) : Yaml.Node :=
  if j.isDirectory then
    .map none [("class", Yaml.Node.ofValue (.str "Directory")), ("location", .marked mark j.value)]
  else .marked mark j.value

def jobNode (w : Workflow) : Yaml.Node :=
  let marks := Yaml.marks (w.jobInputs.values.map sharing)
  .map none (List.zipWith (fun e mark => (e.1, jobInputNode mark e.2)) w.jobInputs.entries marks)

/-- A document of the workflow with shared job inputs written once. -/
def documentNode (w : Workflow) : Value → Yaml.Node
  | .object fields =>
    .map none (fields.map fun e =>
      (e.1, if e.1 = "cwlJobInputs" then w.jobNode else Yaml.Node.ofValue e.2))
  | v => Yaml.Node.ofValue v

end Workflow

end PipelineCompiler
