import PipelineCompiler.Proofs.Wiring

set_option autoImplicit false

namespace PipelineCompiler

/-- A port that the plugin of a node declares. -/
structure StepPort where
  node : Node
  direction : Direction
  binding : Binding

namespace StepPort

def value (p : StepPort) : Value :=
  match p.direction with
  | .inputs => p.node.input p.binding.name
  | .outputs => p.node.output p.binding.name

def type (p : StepPort) : CwlType :=
  match p.direction with
  | .inputs => p.binding.inputType
  | .outputs => p.binding.outputType

/-- Outputs write to the job with and without a value, inputs only with one. -/
def writes (p : StepPort) : Bool :=
  match p.direction with
  | .inputs => hasValue p.value
  | .outputs => true

def jobValue (p : StepPort) : Value :=
  if p.binding.isDirectory then directoryValue p.value else p.value

/-- What the port writes; only inputs can have a value that was copied from elsewhere. -/
def job (origin : String → Option OutletRef) (p : StepPort) : JobInput :=
  ⟨p.value, p.binding.isDirectory,
    match p.direction with
    | .inputs => origin p.binding.name
    | .outputs => none⟩

@[simp] theorem toValue_job (origin : String → Option OutletRef) (p : StepPort) :
    (p.job origin).toValue = p.jobValue := rfl

def bound (origin : String → Option OutletRef) (p : StepPort) : BoundPort :=
  ⟨p.binding.name, p.type, p.job origin⟩

end StepPort

theorem boundInputs_eq (n : Node) (origin : String → Option OutletRef) (bindings : List Binding) :
    boundInputs n origin bindings =
      ((bindings.map (StepPort.mk n .inputs)).filter StepPort.writes).map
        (StepPort.bound origin) := by
  rw [List.filter_map, List.map_map]
  rfl

theorem boundOutputs_eq (n : Node) (origin : String → Option OutletRef)
    (bindings : List Binding) :
    boundOutputs n bindings =
      ((bindings.map (StepPort.mk n .outputs)).filter StepPort.writes).map
        (StepPort.bound origin) := by
  have all : ∀ p ∈ bindings.map (StepPort.mk n .outputs), p.writes = true := by
    intro p listed
    obtain ⟨b, -, rfl⟩ := List.mem_map.1 listed
    rfl
  rw [List.filter_eq_self.2 all, List.map_map]
  rfl

namespace Catalog

variable (c : Catalog)

/-- The ports of a node, the inputs before the outputs and both as declared. -/
def stepPorts (n : Node) : List StepPort :=
  (c.plugin n).inputs.map (StepPort.mk n .inputs) ++
    (c.plugin n).outputs.map (StepPort.mk n .outputs)

/-- The ports that write to the job, in the order in which they do. -/
def writers (n : Node) : List StepPort := (c.stepPorts n).filter StepPort.writes

def keyOf (p : StepPort) : String := jobKey (c.stepName p.node) p.binding.name

/-- Among the steps of some nodes the last port that writes to a key. -/
def lastWriter? (emitted : List Node) (key : String) : Option StepPort :=
  ((emitted.flatMap c.writers).filter fun p => c.keyOf p = key).getLast?

theorem mem_stepPorts_iff (n : Node) (p : StepPort) :
    p ∈ c.stepPorts n ↔ p.node = n ∧
      match p.direction with
      | .inputs => p.binding ∈ (c.plugin n).inputs
      | .outputs => p.binding ∈ (c.plugin n).outputs := by
  obtain ⟨node, direction, b⟩ := p
  rw [stepPorts, List.mem_append, List.mem_map, List.mem_map]
  cases direction with
  | inputs =>
    constructor
    · rintro (⟨d, listed, same⟩ | ⟨d, -, same⟩)
      · cases same
        exact ⟨rfl, listed⟩
      · cases same
    · rintro ⟨rfl, listed⟩
      exact .inl ⟨b, listed, rfl⟩
  | outputs =>
    constructor
    · rintro (⟨d, -, same⟩ | ⟨d, listed, same⟩)
      · cases same
      · cases same
        exact ⟨rfl, listed⟩
    · rintro ⟨rfl, listed⟩
      exact .inr ⟨b, listed, rfl⟩

theorem node_of_mem_writers (n : Node) (p : StepPort) (writer : p ∈ c.writers n) : p.node = n :=
  ((c.mem_stepPorts_iff n p).1 (List.mem_filter.1 writer).1).1

theorem boundPorts_eq (links : List Link) (nodes : List Node) (n : Node) :
    c.boundPorts links nodes n =
      (c.writers n).map (StepPort.bound (inlinedFrom c links nodes n.id)) := by
  rw [boundPorts, boundInputs_eq, boundOutputs_eq n (inlinedFrom c links nodes n.id), writers,
    stepPorts, List.filter_append, List.map_append]

theorem jobEntries_eq (links : List Link) (nodes : List Node) (n : Node) :
    c.jobEntries links nodes n =
      (c.writers n).map fun p => (c.keyOf p, p.job (inlinedFrom c links nodes p.node.id)) := by
  rw [jobEntries, boundPorts_eq, List.map_map]
  apply List.map_congr_left
  intro p writer
  obtain rfl := c.node_of_mem_writers n p writer
  rfl

theorem typeEntries_eq (links : List Link) (nodes : List Node) (n : Node) :
    c.typeEntries links nodes n = (c.writers n).map fun p => (c.keyOf p, p.type) := by
  rw [typeEntries, boundPorts_eq, List.map_map]
  apply List.map_congr_left
  intro p writer
  obtain rfl := c.node_of_mem_writers n p writer
  rfl

/-- What is written is declared. -/
theorem keys_typeEntries (links : List Link) (nodes : List Node) (n : Node) :
    (c.typeEntries links nodes n).map Prod.fst = (c.jobEntries links nodes n).map Prod.fst := by
  rw [typeEntries_eq, jobEntries_eq, List.map_map, List.map_map]
  rfl

theorem exists_port_of_jobEntries (links : List Link) (nodes : List Node) (n : Node) (key : String)
    (listed : key ∈ (c.jobEntries links nodes n).map Prod.fst) :
    ∃ p ∈ c.writers n, c.keyOf p = key := by
  rw [jobEntries_eq, List.map_map] at listed
  exact List.mem_map.1 listed

theorem exists_port_of_typeEntries (links : List Link) (nodes : List Node) (n : Node)
    (key : String) (listed : key ∈ (c.typeEntries links nodes n).map Prod.fst) :
    ∃ p ∈ c.writers n, c.keyOf p = key := by
  rw [keys_typeEntries] at listed
  exact c.exists_port_of_jobEntries links nodes n key listed

theorem exists_port_of_outputEntries (n : Node) (key : String)
    (listed : key ∈ (c.outputEntries n).map Prod.fst) :
    ∃ p ∈ c.writers n, c.keyOf p = key := by
  rw [outputEntries, List.map_map] at listed
  obtain ⟨b, declared, same⟩ := List.mem_map.1 listed
  have port : ⟨n, .outputs, b⟩ ∈ c.stepPorts n := (c.mem_stepPorts_iff n _).2 ⟨rfl, declared⟩
  exact ⟨⟨n, .outputs, b⟩, List.mem_filter.2 ⟨port, rfl⟩, same⟩

/-- The job inputs are what the ports of the steps write, one after the other. -/
theorem jobInputs_workflowOf (header : Header) (links : List Link) (nodes emitted : List Node) :
    (c.workflowOf header links nodes emitted).jobInputs =
      OrderedMap.ofList ((emitted.flatMap c.writers).map fun p =>
        (c.keyOf p, p.job (inlinedFrom c links nodes p.node.id))) := by
  rw [workflowOf, List.map_flatMap, ← funext (c.jobEntries_eq links nodes)]

theorem get?_jobInputs_workflowOf (header : Header) (links : List Link)
    (nodes emitted : List Node) (key : String) :
    (c.workflowOf header links nodes emitted).jobInputs.get? key =
      (c.lastWriter? emitted key).map fun p => p.job (inlinedFrom c links nodes p.node.id) := by
  rw [jobInputs_workflowOf, lastWriter?]
  exact OrderedMap.get?_ofList_map c.keyOf
    (fun p => p.job (inlinedFrom c links nodes p.node.id)) _ key

theorem mem_keys_jobInputs_workflowOf (header : Header) (links : List Link)
    (nodes emitted : List Node) (key : String) :
    key ∈ (c.workflowOf header links nodes emitted).jobInputs.keys ↔
      ∃ n ∈ emitted, ∃ p ∈ c.stepPorts n, p.writes = true ∧ c.keyOf p = key := by
  rw [jobInputs_workflowOf, OrderedMap.mem_keys_ofList, List.map_map, List.mem_map]
  constructor
  · rintro ⟨p, writer, same⟩
    obtain ⟨n, step, among⟩ := List.mem_flatMap.1 writer
    obtain ⟨port, writes⟩ := List.mem_filter.1 among
    exact ⟨n, step, p, port, writes, same⟩
  · rintro ⟨n, step, p, port, writes, same⟩
    have among : p ∈ c.writers n := List.mem_filter.2 ⟨port, writes⟩
    exact ⟨p, List.mem_flatMap.2 ⟨n, step, among⟩, same⟩

end Catalog

namespace Document

def jobKeys (document : Value) : List String :=
  (fields (field document "cwlJobInputs")).map Prod.fst

def jobInput? (document : Value) (key : String) : Option Value :=
  (field document "cwlJobInputs").field? key

theorem field_jobInputs (w : Workflow) :
    field w.document "cwlJobInputs" = w.jobInputs.toObject JobInput.toValue := rfl

theorem jobKeys_document (w : Workflow) : jobKeys w.document = w.jobInputs.keys := by
  rw [jobKeys, field_jobInputs, fields_toObject, List.map_map]
  rfl

theorem jobInput?_document (w : Workflow) (key : String) :
    jobInput? w.document key = (w.jobInputs.get? key).map JobInput.toValue := by
  rw [jobInput?, field_jobInputs, field?_toObject]

end Document

/-- A compiled document has exactly the job inputs that ports of its steps write, each once, and
under each key the value of the last port that writes to it: steps count in execution order, and in
a step the inputs before the outputs. -/
theorem compiled_job_inputs_eq (c : Catalog) (header : Header) (strict : Bool) (g : Graph)
    (distinct : g.ids.Nodup) (w : Workflow) (made : toWorkflow c header strict g = .ok w) :
    ∃ order nodes document, sequence (adjacency g.nodes g.links) = .ok order ∧
      fillSettings c order g.links g.nodes = .ok nodes ∧ w.document? = .ok document ∧
      (∀ n ∈ stepNodes order nodes, n ∈ nodes ∧ n.id ∈ order ∧ n.internal = false ∧
        c.pluginOf n = .ok (c.plugin n) ∧ c.stepId n = .ok (c.stepName n)) ∧
      (Document.jobKeys document).Nodup ∧
      (∀ key, key ∈ Document.jobKeys document ↔
        ∃ n ∈ stepNodes order nodes, ∃ p ∈ c.stepPorts n,
          p.writes = true ∧ c.keyOf p = key) ∧
      ∀ key, Document.jobInput? document key =
        (c.lastWriter? (stepNodes order nodes) key).map StepPort.jobValue := by
  obtain ⟨order, found, valid, able, filled, rfl⟩ :=
    c.compiled_of_toWorkflow header strict g distinct w made
  have once := valid.nodup
  have steps := stepNodes_map (c.settled order g) (c.settled_bare order g) order g.nodes
  refine ⟨order, _, _, found, filled, c.document?_compiled header order g once, ?_, ?_, ?_, ?_⟩
  · rw [steps]
    intro m emitted
    obtain ⟨n, step, rfl⟩ := List.mem_map.1 emitted
    obtain ⟨inside, ordered, external⟩ := (mem_stepNodes_iff order g.nodes distinct n).1 step
    have bare := c.settled_bare order g n
    obtain ⟨⟨p, listed⟩, ⟨id, named⟩, -⟩ :=
      (c.emits_map _ (c.settled_bare order g) g.links g.nodes n).2 (able.emits n step)
    refine ⟨List.mem_map_of_mem inside, ?_, (Node.internal_of_bare bare).trans external,
      c.plugin_of_ok _ p listed ▸ listed, c.eq_stepName _ id named ▸ named⟩
    rw [Node.id_of_bare bare]
    exact ordered
  · rw [Document.jobKeys_document, Catalog.compiled, Catalog.jobInputs_workflowOf]
    exact OrderedMap.nodup_keys_ofList _
  · intro key
    rw [Document.jobKeys_document, Catalog.compiled, Catalog.mem_keys_jobInputs_workflowOf, steps]
  · intro key
    rw [Document.jobInput?_document, Catalog.compiled, Catalog.get?_jobInputs_workflowOf,
      Option.map_map, steps]
    rfl

/-- A directory whose name begins like the end of the other step's id. -/
def folderPlugin : Plugin :=
  ⟨"folder", "", none, ["folder"], "folder:latest", [], [⟨"2_x", "directory", false⟩], []⟩

def labelPlugin : Plugin :=
  ⟨"label", "", none, ["label"], "label:latest", [], [⟨"x", "string", false⟩], []⟩

def sharedKeyCatalog : Catalog := .ofPlugins [folderPlugin, labelPlugin]

def folderNode : Node := ⟨1, "folder", "a", false, none⟩

def labelNode : Node := ⟨2, "label", "a 1", false, none⟩

/-- Two steps, `a_1` and `a_1_2`, whose outputs share the key `a_1_2_x`. -/
def sharedKeyGraph : Graph := ⟨[folderNode, labelNode], []⟩

theorem sharedKey_sequence :
    sequence (adjacency sharedKeyGraph.nodes sharedKeyGraph.links) = .ok [1, 2] := by
  rfl

theorem sharedKey_compiles :
    ∃ w, toWorkflow sharedKeyCatalog .default true sharedKeyGraph = .ok w := by
  apply exists_eq_ok_of_isOk
  decide +kernel

theorem compiled_job_inputs_eq_sharedKey :
    ∃ w document, toWorkflow sharedKeyCatalog .default true sharedKeyGraph = .ok w ∧
      w.document? = .ok document ∧
      Document.jobInput? document "a_1_2_x" = some (.str "a_1_2-x") := by
  obtain ⟨w, made⟩ := sharedKey_compiles
  have distinct : sharedKeyGraph.ids.Nodup := by decide
  obtain ⟨order, nodes, document, found, filled, written, -, -, -, values⟩ :=
    compiled_job_inputs_eq sharedKeyCatalog .default true sharedKeyGraph distinct w made
  rw [sharedKey_sequence] at found
  cases found
  have last : (fillSettings sharedKeyCatalog [1, 2] sharedKeyGraph.links
      sharedKeyGraph.nodes).map (fun nodes => (sharedKeyCatalog.lastWriter?
        (stepNodes [1, 2] nodes) "a_1_2_x").map StepPort.jobValue) =
      .ok (some (.str "a_1_2-x")) := by
    decide +kernel
  rw [filled] at last
  refine ⟨w, document, made, written, ?_⟩
  rw [values]
  exact Except.ok.inj last

end PipelineCompiler
