import PipelineCompiler.Catalog

set_option autoImplicit false

namespace PipelineCompiler

/-- A port is set unless its value is nothing or the empty text; no and zero are values. -/
def hasValue (v : Value) : Bool := v ≠ .null && v ≠ .str ""

namespace Node

def inputs (n : Node) : OrderedMap String Value :=
  (n.settings.bind NodeSettings.inputs).getD .empty

def outputs (n : Node) : OrderedMap String Value :=
  (n.settings.bind NodeSettings.outputs).getD .empty

def input (n : Node) (port : String) : Value := (n.inputs.get? port).getD .null

def output (n : Node) (port : String) : Value := (n.outputs.get? port).getD .null

def withSettings (n : Node) (inputs outputs : OrderedMap String Value) : Node :=
  { n with settings := some ⟨some inputs, some outputs⟩ }

@[simp] theorem inputs_withSettings (n : Node) (inputs outputs : OrderedMap String Value) :
    (n.withSettings inputs outputs).inputs = inputs := rfl

@[simp] theorem outputs_withSettings (n : Node) (inputs outputs : OrderedMap String Value) :
    (n.withSettings inputs outputs).outputs = outputs := rfl

/-- Nodes without settings get empty ones. -/
def provision (n : Node) : Node := n.withSettings n.inputs n.outputs

def last? (id : Int) : List Node → Option Node
  | [] => none
  | n :: rest =>
    match last? id rest with
    | some m => some m
    | none => if n.id = id then some n else none

theorem mem_of_last? (id : Int) (nodes : List Node) (n : Node) (found : last? id nodes = some n) :
    n ∈ nodes ∧ n.id = id := by
  induction nodes with
  | nil => cases found
  | cons m rest ih =>
    rw [last?] at found
    split at found
    · rename_i later
      cases found
      exact ⟨List.mem_cons_of_mem m (ih later).1, (ih later).2⟩
    · split at found
      · rename_i same
        cases found
        exact ⟨List.mem_cons_self, same⟩
      · cases found

theorem last?_isSome_iff (id : Int) (nodes : List Node) :
    (last? id nodes).isSome = true ↔ id ∈ nodes.map Node.id := by
  induction nodes with
  | nil => simp [last?]
  | cons m rest ih =>
    rw [last?, List.map_cons, List.mem_cons, ← ih]
    cases last? id rest with
    | some n => simp
    | none => by_cases here : m.id = id <;> simp [here, Ne.symm]

end Node

def placeholder (stepId output : String) : String := stepId ++ "-" ++ output

/-- One output of a step gets its placeholder if it needs one. -/
def fillOutput (ports : PortOrder) (stepId : String) (outputs : OrderedMap String Value)
    (b : Binding) : OrderedMap String Value :=
  if ports.exposes (Direction.outputs.key b.name) then outputs
  else if hasValue ((outputs.get? b.name).getD .null) then outputs
  else outputs.insert b.name (.str (placeholder stepId b.name))

def Node.fillOutputs (n : Node) (c : Catalog) : Except CompileError Node := do
  let ports ← c.portsOf n
  let stepId ← c.stepId n
  .ok (n.withSettings n.inputs (ports.outputs.foldl (fillOutput ports stepId) n.outputs))

/-- Nodes outside the order stay as they are. -/
def fillPlaceholders (c : Catalog) (order : List Int) : List Node → Except CompileError (List Node)
  | [] => .ok []
  | n :: rest => do
    let n ← if order.contains n.id then n.fillOutputs c else .ok n
    let rest ← fillPlaceholders c order rest
    .ok (n :: rest)

/-- The last node with the id is replaced in all places of that id. -/
def replaceNode (m : Node) (nodes : List Node) : List Node :=
  nodes.map fun n => if n.id = m.id then m else n

/-- One link; only those from an internal node to a known one count. -/
def inlineLink (c : Catalog) (nodes : List Node) (link : Link) : Except CompileError (List Node) :=
  match Node.last? link.source nodes, Node.last? link.target nodes with
  | some source, some target =>
    if source.internal then do
      let (outlet, inlet) ← c.linkPorts link source target
      -- What was copied is noted with the ids of both nodes.
      if link.hasNumerals then .ok (replaceNode
        (target.withSettings (target.inputs.insert inlet (source.output outlet)) target.outputs)
        nodes)
      else .error .noNumeral
    else .ok nodes
  | _, _ => .ok nodes

/-- Where ids repeat, the last node of an id stands for all of them. -/
def unifyNodes (nodes : List Node) : List Node :=
  nodes.map fun n => (Node.last? n.id nodes).getD n

def inlineValues (c : Catalog) (links : List Link) (nodes : List Node) :
    Except CompileError (List Node) :=
  links.foldlM (inlineLink c) (unifyNodes nodes)

structure OutletRef where
  node : Int
  port : String
  deriving Repr, DecidableEq

/-- Where the value of an input was copied from, if a link from an internal node reaches it. -/
def inlinedFrom (c : Catalog) (links : List Link) (nodes : List Node) (id : Int) (port : String) :
    Option OutletRef :=
  links.foldl (fun found link =>
    if link.target = id then
      match Node.last? link.source nodes, Node.last? id nodes with
      | some source, some target =>
        if source.internal then
          match c.linkPorts link source target with
          | .ok (outlet, inlet) => if inlet = port then some ⟨link.source, outlet⟩ else found
          | .error _ => found
        else found
      | _, _ => found
    else found) none

end PipelineCompiler
