import PipelineCompiler.Filling
import PipelineCompiler.Workflow.Document

set_option autoImplicit false

namespace PipelineCompiler

def jobKey (stepId port : String) : String := stepId ++ "_" ++ port

def outputRef (stepId port : String) : String := stepId ++ "/" ++ port

/-- A step under construction, with the workflow it writes its ports to. -/
structure Draft where
  workflow : Workflow
  step : Step
  deriving Repr, DecidableEq

namespace Draft

/-- The job input of a port, its declaration, and the source of the port. -/
def bindJob (d : Draft) (port : String) (type : CwlType) (job : JobInput) : Draft :=
  let key := jobKey d.step.id port
  { workflow := { d.workflow with
      jobInputs := d.workflow.jobInputs.insert key job
      inputs := d.workflow.inputs.insert key type }
    step := { d.step with sources := d.step.sources.insert port key } }

def declareInput (d : Draft) (port : String) (input : ToolInput) : Draft :=
  { d with step := { d.step with run :=
    { d.step.run with inputs := d.step.run.inputs.insert port input } } }

/-- An input is declared, and bound to its value if it has one. -/
def addInput (node : Node) (origin : String → Option OutletRef) (d : Draft) (b : Binding) : Draft :=
  let declared := d.declareInput b.name ⟨"--" ++ b.name, b.inputType, !b.required⟩
  let value := node.input b.name
  if hasValue value then declared.bindJob b.name b.inputType ⟨value, b.isDirectory, origin b.name⟩
  else declared

/-- An output is passed to the tool as an argument, staged writable, and offered by step and
workflow. -/
def addOutput (node : Node) (d : Draft) (b : Binding) : Draft :=
  let type := b.outputType
  let declared := d.declareInput b.name ⟨"--" ++ b.name, type, false⟩
  let bound := declared.bindJob b.name type ⟨node.output b.name, b.isDirectory, none⟩
  let key := jobKey d.step.id b.name
  let run := bound.step.run
  { workflow := { bound.workflow with
      outputs := bound.workflow.outputs.insert key ⟨type, outputRef d.step.id b.name⟩ }
    step := { bound.step with
      run := { run with
        outputs := run.outputs.insert b.name ⟨s!"$(inputs.{b.name}.basename)", type⟩
        writable := run.writable ++ [s!"$(inputs.{b.name})"] }
      out := bound.step.out ++ [b.name] } }

end Draft

/-- A link from another step into the node replaces the source of its inlet. -/
def wireLink (c : Catalog) (nodes : List Node) (node : Node) (sources : OrderedMap String String)
    (link : Link) : Except CompileError (OrderedMap String String) :=
  if link.target ≠ node.id then .ok sources
  else
    match Node.last? link.source nodes with
    | none => .ok sources
    | some source =>
      if source.internal then .ok sources
      else do
        let (outlet, inlet) ← c.linkPorts link source node
        let sourceStep ← c.stepId source
        .ok (sources.insert inlet (outputRef sourceStep outlet))

/-- The step of a node: inputs, then outputs, then links from other steps. -/
def addNode (c : Catalog) (links : List Link) (nodes : List Node) (w : Workflow) (node : Node) :
    Except CompileError Workflow := do
  let plugin ← c.pluginOf node
  let stepId ← c.stepId node
  let tool : Tool :=
    ⟨plugin.baseCommand, plugin.container, w.header.stepCwlVersion, .empty, .empty, []⟩
  let origin := inlinedFrom c links nodes node.id
  let withInputs := plugin.inputs.foldl (Draft.addInput node origin) ⟨w, ⟨stepId, tool, .empty, []⟩⟩
  let withOutputs := plugin.outputs.foldl (Draft.addOutput node) withInputs
  let sources ← links.foldlM (wireLink c nodes node) withOutputs.step.sources
  .ok (withOutputs.workflow.addStep { withOutputs.step with sources := sources })

def fillSettings (c : Catalog) (order : List Int) (links : List Link) (nodes : List Node) :
    Except CompileError (List Node) := do
  let filled ← fillPlaceholders c order (nodes.map Node.provision)
  inlineValues c links filled

def stepNodes (order : List Int) (nodes : List Node) : List Node :=
  (order.filterMap fun id => Node.last? id nodes).filter fun n => !n.internal

/-- Every id of an order is found, if the nodes have it. -/
theorem map_id_filterMap_last? (order : List Int) (nodes : List Node)
    (known : ∀ id ∈ order, id ∈ nodes.map Node.id) :
    (order.filterMap fun id => Node.last? id nodes).map Node.id = order := by
  induction order with
  | nil => rfl
  | cons id rest ih =>
    have present := (Node.last?_isSome_iff id nodes).2 (known id List.mem_cons_self)
    obtain ⟨n, found⟩ := Option.isSome_iff_exists.1 present
    have later := ih fun other member => known other (List.mem_cons_of_mem id member)
    rw [List.filterMap_cons, found, List.map_cons, (Node.mem_of_last? id nodes n found).2, later]

def synthesize (c : Catalog) (header : Header) (order : List Int) (g : Graph) :
    Except CompileError Workflow := do
  let nodes ← fillSettings c order g.links g.nodes
  (stepNodes order nodes).foldlM (addNode c g.links nodes) (Workflow.empty header)

/-- The workflow of a pipeline. In strict mode every node has to have a place in the order. -/
def toWorkflow (c : Catalog) (header : Header) (strict : Bool) (g : Graph) :
    Except CompileError Workflow :=
  match executionOrder g with
  | .error e => .error (.order e)
  | .ok (records, order) =>
    if strict && isIncomplete records order then .error (.incomplete (missing records order))
    else synthesize c header order g

/-- A warning for nodes left out, and on success a count of steps. -/
def workflowLog (c : Catalog) (header : Header) (strict : Bool) (g : Graph) : List LogLine :=
  (match reportedAdjacency g.nodes g.links with
    | .ok records => sequenceLog records
    | .error _ => []) ++
    match toWorkflow c header strict g with
    | .ok w => [⟨.info, s!"Compiled {w.order.length} step(s) from {g.nodes.length} node(s)"⟩]
    | .error _ => []

end PipelineCompiler
