import PipelineCompiler.Proofs.Inline

set_option autoImplicit false

namespace PipelineCompiler

/-- A port that a job input feeds. -/
structure BoundPort where
  port : String
  type : CwlType
  job : JobInput

namespace BoundPort

def jobEntry (stepId : String) (b : BoundPort) : String × JobInput := (jobKey stepId b.port, b.job)

def typeEntry (stepId : String) (b : BoundPort) : String × CwlType := (jobKey stepId b.port, b.type)

def sourceEntry (stepId : String) (b : BoundPort) : String × String :=
  (b.port, jobKey stepId b.port)

end BoundPort

/-- The inputs that have a value. -/
def boundInputs (node : Node) (origin : String → Option OutletRef) (bindings : List Binding) :
    List BoundPort :=
  (bindings.filter fun b => hasValue (node.input b.name)).map fun b =>
    ⟨b.name, b.inputType, ⟨node.input b.name, b.isDirectory, origin b.name⟩⟩

/-- The outputs, with and without a value. -/
def boundOutputs (node : Node) (bindings : List Binding) : List BoundPort :=
  bindings.map fun b => ⟨b.name, b.outputType, ⟨node.output b.name, b.isDirectory, none⟩⟩

theorem boundInputs_cons (node : Node) (origin : String → Option OutletRef) (b : Binding)
    (rest : List Binding) :
    boundInputs node origin (b :: rest) =
      if hasValue (node.input b.name) then
        ⟨b.name, b.inputType, ⟨node.input b.name, b.isDirectory, origin b.name⟩⟩ ::
          boundInputs node origin rest
      else boundInputs node origin rest := by
  by_cases valued : hasValue (node.input b.name) = true <;> simp [boundInputs, valued]

namespace Binding

def inputDeclaration (b : Binding) : String × ToolInput :=
  (b.name, ⟨"--" ++ b.name, b.inputType, !b.required⟩)

def outputDeclaration (b : Binding) : String × ToolInput :=
  (b.name, ⟨"--" ++ b.name, b.outputType, false⟩)

def toolOutput (b : Binding) : String × ToolOutput :=
  (b.name, ⟨s!"$(inputs.{b.name}.basename)", b.outputType⟩)

def workflowOutput (stepId : String) (b : Binding) : String × WorkflowOutput :=
  (jobKey stepId b.name, ⟨b.outputType, outputRef stepId b.name⟩)

end Binding

namespace Draft

def declareAll (d : Draft) (inputs : List (String × ToolInput)) : Draft :=
  { d with step := { d.step with run :=
    { d.step.run with inputs := d.step.run.inputs.insertAll inputs } } }

def bindAll (d : Draft) (ports : List BoundPort) : Draft :=
  { workflow := { d.workflow with
      jobInputs := d.workflow.jobInputs.insertAll (ports.map (BoundPort.jobEntry d.step.id))
      inputs := d.workflow.inputs.insertAll (ports.map (BoundPort.typeEntry d.step.id)) }
    step := { d.step with
      sources := d.step.sources.insertAll (ports.map (BoundPort.sourceEntry d.step.id)) } }

def offerAll (d : Draft) (bindings : List Binding) : Draft :=
  { workflow := { d.workflow with
      outputs := d.workflow.outputs.insertAll (bindings.map (Binding.workflowOutput d.step.id)) }
    step := { d.step with
      run := { d.step.run with
        outputs := d.step.run.outputs.insertAll (bindings.map Binding.toolOutput)
        writable := d.step.run.writable ++ bindings.map fun b => s!"$(inputs.{b.name})" }
      out := d.step.out ++ bindings.map Binding.name } }

theorem foldl_addInput (node : Node) (origin : String → Option OutletRef)
    (bindings : List Binding) (d : Draft) :
    bindings.foldl (addInput node origin) d =
      (d.declareAll (bindings.map Binding.inputDeclaration)).bindAll
        (boundInputs node origin bindings) := by
  induction bindings generalizing d with
  | nil => rfl
  | cons b rest ih =>
    rw [List.foldl_cons, ih, boundInputs_cons, addInput]
    by_cases valued : hasValue (node.input b.name) = true
    · simp only [valued, ↓reduceIte]
      rfl
    · rw [if_neg valued]
      simp only [valued, Bool.false_eq_true, ↓reduceIte]
      rfl

theorem foldl_addOutput (node : Node) (bindings : List Binding) (d : Draft) :
    bindings.foldl (addOutput node) d =
      ((d.declareAll (bindings.map Binding.outputDeclaration)).bindAll
        (boundOutputs node bindings)).offerAll bindings := by
  induction bindings generalizing d with
  | nil => simp [declareAll, bindAll, offerAll, boundOutputs]
  | cons b rest ih =>
    rw [List.foldl_cons, ih]
    simp [declareAll, bindAll, offerAll, boundOutputs, addOutput, declareInput, bindJob,
      Binding.outputDeclaration, Binding.toolOutput, Binding.workflowOutput, BoundPort.jobEntry,
      BoundPort.typeEntry, BoundPort.sourceEntry]

end Draft

namespace Catalog

variable (c : Catalog)

/-- The plugin of a node; where there is none, one without ports. -/
def plugin (n : Node) : Plugin :=
  match c.pluginOf n with
  | .ok p => p
  | .error _ => ⟨n.pluginId, "", none, [], "", [], [], []⟩

theorem plugin_of_ok (n : Node) (p : Plugin) (found : c.pluginOf n = .ok p) :
    c.plugin n = p := by
  rw [plugin, found]

/-- A link that ends at a node and comes from a step has its indices in range, and the step has an
id. -/
def Wires (nodes : List Node) (node : Node) (link : Link) : Prop :=
  link.target = node.id → ∀ source, Node.last? link.source nodes = some source →
    source.internal = false →
      (∃ ports, c.linkPorts link source node = .ok ports) ∧ ∃ id, c.stepId source = .ok id

/-- The source that an arrival gives to its inlet. -/
def wire (a : Arrival) : String × String := (a.inlet, outputRef (c.stepName a.source) a.outlet)

/-- One link, as a write to the sources of a step. -/
def wireStep (nodes : List Node) (node : Node) (sources : OrderedMap String String) (link : Link) :
    OrderedMap String String :=
  match c.arrival? nodes false node link with
  | some a => sources.insert (c.wire a).1 (c.wire a).2
  | none => sources

theorem wireStep_of_idle (nodes : List Node) (node : Node) (sources : OrderedMap String String)
    (link : Link) (idle : ∀ a, c.arrival? nodes false node link ≠ some a) :
    c.wireStep nodes node sources link = sources := by
  rw [wireStep, Option.eq_none_iff_forall_ne_some.2 idle]

/-- A link that comes from no step, or leads to another node, writes no source. -/
theorem wires_of_idle (nodes : List Node) (node : Node) (sources : OrderedMap String String)
    (link : Link) (idle : link.target = node.id → ∀ source,
      Node.last? link.source nodes = some source → source.internal ≠ false) :
    c.Wires nodes node link ∧ sources = c.wireStep nodes node sources link := by
  constructor
  · intro here source found step
    exact absurd step (idle here source found)
  · refine (c.wireStep_of_idle nodes node sources link ?_).symm
    intro a arrived
    obtain ⟨here, found, step, -⟩ := (c.arrival?_eq_some_iff nodes false node link a).1 arrived
    exact idle here a.source found step

theorem wireLink_eq_ok_iff (nodes : List Node) (node : Node)
    (sources after : OrderedMap String String) (link : Link) :
    wireLink c nodes node sources link = .ok after ↔
      c.Wires nodes node link ∧ after = c.wireStep nodes node sources link := by
  have unchanged : (link.target = node.id → ∀ source, Node.last? link.source nodes = some source →
      source.internal ≠ false) →
      ((.ok sources : Except CompileError _) = .ok after ↔
        c.Wires nodes node link ∧ after = c.wireStep nodes node sources link) := by
    intro idle
    obtain ⟨able, stays⟩ := c.wires_of_idle nodes node sources link idle
    rw [← stays, and_iff_right able, Except.ok.injEq, eq_comm]
  rw [wireLink]
  by_cases here : link.target = node.id
  · rw [if_neg (not_not_intro here)]
    cases found : Node.last? link.source nodes with
    | none =>
      apply unchanged
      intro _ source other
      rw [found] at other
      cases other
    | some source =>
      by_cases internal : source.internal = true
      · simp only [internal, ↓reduceIte]
        apply unchanged
        intro _ other same
        cases found.symm.trans same
        rw [internal]
        decide
      · have step : source.internal = false := by simpa using internal
        simp only [step, Bool.false_eq_true, ↓reduceIte, bind_eq_ok]
        constructor
        · intro given
          obtain ⟨⟨outlet, inlet⟩, ports, id, named, made⟩ := given
          have arrived := (c.arrival?_eq_some_iff nodes false node link
            ⟨source, outlet, inlet⟩).2 ⟨here, found, step, ports⟩
          cases made
          rw [wireStep, arrived, c.eq_stepName source id named]
          refine ⟨?_, rfl⟩
          intro _ other same _
          cases found.symm.trans same
          exact ⟨⟨_, ports⟩, _, named⟩
        · intro given
          obtain ⟨able, rfl⟩ := given
          obtain ⟨⟨⟨outlet, inlet⟩, ports⟩, id, named⟩ := able here source found step
          have arrived := (c.arrival?_eq_some_iff nodes false node link
            ⟨source, outlet, inlet⟩).2 ⟨here, found, step, ports⟩
          refine ⟨⟨outlet, inlet⟩, ports, id, named, ?_⟩
          rw [wireStep, arrived, c.eq_stepName source id named]
          rfl
  · rw [if_pos here]
    exact unchanged fun same => absurd same here

theorem foldl_wireStep (nodes : List Node) (links : List Link) (node : Node)
    (sources : OrderedMap String String) :
    links.foldl (c.wireStep nodes node) sources =
      sources.insertAll ((c.arrivals nodes links false node).map c.wire) := by
  induction links generalizing sources with
  | nil => rfl
  | cons link rest ih =>
    rw [List.foldl_cons, ih, wireStep, arrivals, arrivals, List.filterMap_cons]
    cases c.arrival? nodes false node link <;> rfl

/-- The wiring loop: of the links into one inlet the last decides. -/
theorem foldlM_wireLink (nodes : List Node) (links : List Link) (node : Node)
    (sources after : OrderedMap String String) :
    links.foldlM (wireLink c nodes node) sources = .ok after ↔
      (∀ link ∈ links, c.Wires nodes node link) ∧
        after = sources.insertAll ((c.arrivals nodes links false node).map c.wire) := by
  rw [← c.foldl_wireStep nodes links node sources]
  exact foldlM_eq_ok_iff (wireLink c nodes node) (c.wireStep nodes node) (c.Wires nodes node)
    (fun _ => True) (fun _ _ _ => trivial)
    (fun s link s' _ => c.wireLink_eq_ok_iff nodes node s s' link) links sources after trivial

def boundPorts (links : List Link) (nodes : List Node) (n : Node) : List BoundPort :=
  boundInputs n (inlinedFrom c links nodes n.id) (c.plugin n).inputs ++
    boundOutputs n (c.plugin n).outputs

def stepOf (version : String) (links : List Link) (nodes : List Node) (n : Node) : Step :=
  { id := c.stepName n
    run :=
      { baseCommand := (c.plugin n).baseCommand
        container := (c.plugin n).container
        version := version
        inputs := OrderedMap.ofList ((c.plugin n).inputs.map Binding.inputDeclaration ++
          (c.plugin n).outputs.map Binding.outputDeclaration)
        outputs := OrderedMap.ofList ((c.plugin n).outputs.map Binding.toolOutput)
        writable := (c.plugin n).outputs.map fun b => s!"$(inputs.{b.name})" }
    sources := OrderedMap.ofList
      ((c.boundPorts links nodes n).map (BoundPort.sourceEntry (c.stepName n)) ++
        (c.arrivals nodes links false n).map c.wire)
    out := (c.plugin n).outputs.map Binding.name }

def jobEntries (links : List Link) (nodes : List Node) (n : Node) : List (String × JobInput) :=
  (c.boundPorts links nodes n).map (BoundPort.jobEntry (c.stepName n))

def typeEntries (links : List Link) (nodes : List Node) (n : Node) : List (String × CwlType) :=
  (c.boundPorts links nodes n).map (BoundPort.typeEntry (c.stepName n))

def outputEntries (n : Node) : List (String × WorkflowOutput) :=
  (c.plugin n).outputs.map (Binding.workflowOutput (c.stepName n))

/-- A workflow with the step of one more node. -/
def extend (links : List Link) (nodes : List Node) (w : Workflow) (n : Node) : Workflow :=
  { header := w.header
    jobInputs := w.jobInputs.insertAll (c.jobEntries links nodes n)
    inputs := w.inputs.insertAll (c.typeEntries links nodes n)
    outputs := w.outputs.insertAll (c.outputEntries n)
    order := w.order ++ [c.stepName n]
    steps := w.steps.insert (c.stepName n) (c.stepOf w.header.stepCwlVersion links nodes n) }

/-- A node becomes a step when it has a plugin and an id and the links from other steps can be
wired. -/
def Emits (links : List Link) (nodes : List Node) (n : Node) : Prop :=
  (∃ p, c.pluginOf n = .ok p) ∧ (∃ id, c.stepId n = .ok id) ∧
    ∀ link ∈ links, c.Wires nodes n link

def draft (w : Workflow) (n : Node) : Draft :=
  ⟨w, ⟨c.stepName n, ⟨(c.plugin n).baseCommand, (c.plugin n).container, w.header.stepCwlVersion,
    .empty, .empty, []⟩, .empty, []⟩⟩

/-- The three loops over inputs, outputs and links amount to the entries of the node. -/
theorem addStep_draft (links : List Link) (nodes : List Node) (w : Workflow) (n : Node)
    (d : Draft)
    (drafted : d = (c.plugin n).outputs.foldl (Draft.addOutput n)
      ((c.plugin n).inputs.foldl (Draft.addInput n (inlinedFrom c links nodes n.id))
        (c.draft w n))) :
    d.workflow.addStep { d.step with
      sources := d.step.sources.insertAll ((c.arrivals nodes links false n).map c.wire) } =
        c.extend links nodes w n := by
  rw [drafted, Draft.foldl_addInput, Draft.foldl_addOutput]
  simp only [draft, Draft.declareAll, Draft.bindAll, Draft.offerAll, Workflow.addStep, extend,
    stepOf, jobEntries, typeEntries, outputEntries, boundPorts, OrderedMap.ofList_eq_insertAll,
    OrderedMap.insertAll_append, List.map_append, List.nil_append]

theorem addNode_eq_ok_iff (links : List Link) (nodes : List Node) (w w' : Workflow) (n : Node) :
    addNode c links nodes w n = .ok w' ↔
      c.Emits links nodes n ∧ w' = c.extend links nodes w n := by
  rw [addNode, bind_eq_ok]
  constructor
  · intro given
    obtain ⟨p, found, rest⟩ := given
    obtain ⟨id, named, rest⟩ := (bind_eq_ok _ _ _).1 rest
    obtain ⟨sources, wired, rest⟩ := (bind_eq_ok _ _ _).1 rest
    obtain ⟨wires, rfl⟩ := (c.foldlM_wireLink nodes links n _ sources).1 wired
    cases rest
    obtain rfl := c.plugin_of_ok n p found
    obtain rfl := c.eq_stepName n id named
    exact ⟨⟨⟨_, found⟩, ⟨_, named⟩, wires⟩, c.addStep_draft links nodes w n _ rfl⟩
  · intro given
    obtain ⟨⟨⟨p, found⟩, ⟨id, named⟩, wires⟩, rfl⟩ := given
    obtain rfl := c.plugin_of_ok n p found
    obtain rfl := c.eq_stepName n id named
    refine ⟨_, found, (bind_eq_ok _ _ _).2 ⟨_, named, (bind_eq_ok _ _ _).2 ⟨_,
      (c.foldlM_wireLink nodes links n _ _).2 ⟨wires, rfl⟩, ?_⟩⟩⟩
    exact congrArg Except.ok (c.addStep_draft links nodes w n _ rfl)

/-- The workflow that has the steps of the given nodes. -/
def workflowOf (header : Header) (links : List Link) (nodes emitted : List Node) : Workflow :=
  { header := header
    jobInputs := OrderedMap.ofList (emitted.flatMap (c.jobEntries links nodes))
    inputs := OrderedMap.ofList (emitted.flatMap (c.typeEntries links nodes))
    outputs := OrderedMap.ofList (emitted.flatMap c.outputEntries)
    order := emitted.map c.stepName
    steps := OrderedMap.ofList
      (emitted.map fun n => (c.stepName n, c.stepOf header.stepCwlVersion links nodes n)) }

theorem foldl_extend (links : List Link) (nodes emitted : List Node) (w : Workflow) :
    emitted.foldl (c.extend links nodes) w =
      { header := w.header
        jobInputs := w.jobInputs.insertAll (emitted.flatMap (c.jobEntries links nodes))
        inputs := w.inputs.insertAll (emitted.flatMap (c.typeEntries links nodes))
        outputs := w.outputs.insertAll (emitted.flatMap c.outputEntries)
        order := w.order ++ emitted.map c.stepName
        steps := w.steps.insertAll (emitted.map fun n =>
          (c.stepName n, c.stepOf w.header.stepCwlVersion links nodes n)) } := by
  induction emitted generalizing w with
  | nil => simp
  | cons n rest ih =>
    rw [List.foldl_cons, ih]
    simp only [extend, List.flatMap_cons, OrderedMap.insertAll_append, List.map_cons,
      OrderedMap.insertAll_cons, List.append_assoc, List.singleton_append]

/-- The loop over the nodes succeeds when each can be made a step. -/
theorem foldlM_addNode (header : Header) (links : List Link) (nodes emitted : List Node)
    (w : Workflow) :
    emitted.foldlM (addNode c links nodes) (Workflow.empty header) = .ok w ↔
      (∀ n ∈ emitted, c.Emits links nodes n) ∧ w = c.workflowOf header links nodes emitted := by
  have result := c.foldl_extend links nodes emitted (Workflow.empty header)
  rw [foldlM_eq_ok_iff (addNode c links nodes) (c.extend links nodes) (c.Emits links nodes)
    (fun _ => True) (fun _ _ _ => trivial)
    (fun w n w' _ => c.addNode_eq_ok_iff links nodes w w' n) emitted _ w trivial, result]
  exact Iff.rfl

theorem wires_map (f : Node → Node) (same : ∀ n, (f n).bare = n.bare) (nodes : List Node)
    (n : Node) (link : Link) : c.Wires (nodes.map f) (f n) link ↔ c.Wires nodes n link := by
  have ids : ∀ n, (f n).id = n.id := fun n => Node.id_of_bare (same n)
  simp only [Wires, Node.last?_map f ids, Option.map_eq_some_iff, ids]
  constructor
  · intro able here s source internal
    obtain ⟨⟨ports, joined⟩, id, named⟩ := able here (f s) ⟨s, source, rfl⟩
      ((Node.internal_of_bare (same s)).trans internal)
    exact ⟨⟨ports, (c.linkPorts_congr link (same s) (same n)).symm.trans joined⟩,
      id, (c.stepId_congr (same s)).symm.trans named⟩
  · rintro able here - ⟨s, source, rfl⟩ internal
    obtain ⟨⟨ports, joined⟩, id, named⟩ := able here s source
      ((Node.internal_of_bare (same s)).symm.trans internal)
    exact ⟨⟨ports, (c.linkPorts_congr link (same s) (same n)).trans joined⟩,
      id, (c.stepId_congr (same s)).trans named⟩

theorem emits_map (f : Node → Node) (same : ∀ n, (f n).bare = n.bare) (links : List Link)
    (nodes : List Node) (n : Node) :
    c.Emits links (nodes.map f) (f n) ↔ c.Emits links nodes n := by
  simp only [Emits, c.pluginOf_congr (same n), c.stepId_congr (same n), c.wires_map f same]

theorem plugin_congr {m n : Node} (same : m.bare = n.bare) : c.plugin m = c.plugin n := by
  change c.plugin m.bare = c.plugin n.bare
  rw [same]

end Catalog

theorem stepNodes_map (f : Node → Node) (same : ∀ n, (f n).bare = n.bare) (order : List Int)
    (nodes : List Node) : stepNodes order (nodes.map f) = (stepNodes order nodes).map f := by
  have ids : ∀ n, (f n).id = n.id := fun n => Node.id_of_bare (same n)
  have kinds : ((fun n => !n.internal) ∘ f : Node → Bool) = fun n => !n.internal := by
    funext n
    rw [Function.comp_apply, Node.internal_of_bare (same n)]
  have found : (fun id => Node.last? id (nodes.map f)) =
      fun id => (Node.last? id nodes).map f := by
    funext id
    exact Node.last?_map f ids id nodes
  rw [stepNodes, stepNodes, found, ← List.map_filterMap, List.filter_map, kinds]

namespace Catalog

variable (c : Catalog)

/-- The steps, from the nodes as the settings passes leave them. -/
def compiled (header : Header) (order : List Int) (g : Graph) : Workflow :=
  c.workflowOf header g.links (g.nodes.map (c.settled order g))
    ((stepNodes order g.nodes).map (c.settled order g))

/-- What synthesis asks of the graph beyond an order. -/
structure Synthesizes (order : List Int) (g : Graph) : Prop where
  fills : ∀ n ∈ g.nodes, n.id ∈ order →
    (∃ ports, c.portsOf n = .ok ports) ∧ ∃ id, c.stepId n = .ok id
  inlines : ∀ link ∈ g.links, c.Inlines g.nodes link
  emits : ∀ n ∈ stepNodes order g.nodes, c.Emits g.links g.nodes n

theorem synthesize_eq_ok_iff (header : Header) (order : List Int) (g : Graph)
    (distinct : g.ids.Nodup) (w : Workflow) :
    synthesize c header order g = .ok w ↔
      c.Synthesizes order g ∧ w = c.compiled header order g := by
  have emits : (∀ n ∈ (stepNodes order g.nodes).map (c.settled order g),
      c.Emits g.links (g.nodes.map (c.settled order g)) n) ↔
        ∀ n ∈ stepNodes order g.nodes, c.Emits g.links g.nodes n := by
    simp only [List.forall_mem_map, c.emits_map _ (c.settled_bare order g)]
  rw [synthesize, bind_eq_ok]
  simp only [fillSettings_eq_ok_iff c order g distinct]
  constructor
  · intro given
    obtain ⟨_, ⟨⟨fills, inlines⟩, rfl⟩, rest⟩ := given
    rw [stepNodes_map _ (c.settled_bare order g), foldlM_addNode, emits] at rest
    exact ⟨⟨fills, inlines, rest.1⟩, rest.2⟩
  · intro given
    obtain ⟨able, rfl⟩ := given
    refine ⟨_, ⟨⟨able.fills, able.inlines⟩, rfl⟩, ?_⟩
    rw [stepNodes_map _ (c.settled_bare order g), foldlM_addNode, emits]
    exact ⟨able.emits, rfl⟩

theorem toWorkflow_eq_ok_iff (header : Header) (strict : Bool) (g : Graph)
    (distinct : g.ids.Nodup) (w : Workflow) :
    toWorkflow c header strict g = .ok w ↔
      g.Numbered ∧ ∃ order, sequence (adjacency g.nodes g.links) = .ok order ∧
        (strict && isIncomplete (adjacency g.nodes g.links) order) = false ∧
        c.Synthesizes order g ∧ w = c.compiled header order g := by
  rw [toWorkflow]
  constructor
  · intro made
    split at made
    · cases made
    · rename_i records order taken
      obtain ⟨numbered, rfl, found⟩ := (executionOrder_eq_ok_iff distinct records).1 taken
      split at made
      · cases made
      · rename_i complete
        obtain ⟨able, rfl⟩ := (c.synthesize_eq_ok_iff header order g distinct w).1 made
        exact ⟨numbered, order, found, Bool.eq_false_iff.2 complete, able, rfl⟩
  · rintro ⟨numbered, order, found, complete, able, rfl⟩
    rw [(executionOrder_eq_ok_iff distinct _).2 ⟨numbered, rfl, found⟩]
    dsimp only
    rw [complete, if_neg Bool.false_ne_true]
    exact (c.synthesize_eq_ok_iff header order g distinct _).2 ⟨able, rfl⟩

theorem toWorkflow_of_unnumbered (header : Header) (strict : Bool) (g : Graph)
    (unnumbered : ¬ g.DanglingNumbered) :
    toWorkflow c header strict g = .error (.order .noNumeral) := by
  have stops : executionOrder g = .error .noNumeral := by
    rw [executionOrder, reportedAdjacency_eq, if_neg unnumbered]
    rfl
  rw [toWorkflow, stops]

/-- What a workflow tells of the pipeline that it was made of. -/
theorem compiled_of_toWorkflow (header : Header) (strict : Bool) (g : Graph)
    (distinct : g.ids.Nodup) (w : Workflow) (made : toWorkflow c header strict g = .ok w) :
    ∃ order, sequence (adjacency g.nodes g.links) = .ok order ∧ g.IsOrder order ∧
      c.Synthesizes order g ∧
      fillSettings c order g.links g.nodes = .ok (g.nodes.map (c.settled order g)) ∧
      w = c.compiled header order g := by
  obtain ⟨-, order, found, -, able, same⟩ :=
    (c.toWorkflow_eq_ok_iff header strict g distinct w).1 made
  have filled := (fillSettings_eq_ok_iff c order g distinct _).2 ⟨⟨able.fills, able.inlines⟩, rfl⟩
  exact ⟨order, found, isOrder_of_sequence g distinct order found, able, filled, same⟩

end Catalog

end PipelineCompiler
