import PipelineCompiler.Proofs.Document

set_option autoImplicit false

namespace PipelineCompiler

/-- Ports bound to job inputs all get the same source under one name. -/
theorem getLast?_written_sourceEntry (stepId : String) (bound : List BoundPort) (port : String) :
    (OrderedMap.written port (bound.map (BoundPort.sourceEntry stepId))).getLast? =
      if port ∈ bound.map BoundPort.port then some (jobKey stepId port) else none := by
  induction bound with
  | nil => rfl
  | cons b rest ih =>
    rw [List.map_cons, List.map_cons, OrderedMap.written_cons, BoundPort.sourceEntry]
    by_cases here : b.port = port
    · rw [if_pos here, List.getLast?_cons, ih, here, if_pos List.mem_cons_self]
      by_cases later : port ∈ rest.map BoundPort.port <;> simp [later]
    · have apart : port ≠ b.port := Ne.symm here
      rw [if_neg here, ih]
      simp [apart]

namespace Catalog

variable (c : Catalog)

theorem mem_boundPorts_iff (links : List Link) (nodes : List Node) (n : Node) (port : String) :
    port ∈ (c.boundPorts links nodes n).map BoundPort.port ↔
      port ∈ (c.plugin n).outputs.map Binding.name ∨
        (port ∈ (c.plugin n).inputs.map Binding.name ∧ hasValue (n.input port) = true) := by
  have valued : port ∈ (boundInputs n (inlinedFrom c links nodes n.id)
      (c.plugin n).inputs).map BoundPort.port ↔
        port ∈ (c.plugin n).inputs.map Binding.name ∧ hasValue (n.input port) = true := by
    rw [boundInputs, List.map_map, List.mem_map, List.mem_map]
    constructor
    · intro h
      obtain ⟨b, member, rfl⟩ := h
      obtain ⟨listed, value⟩ := List.mem_filter.1 member
      exact ⟨⟨b, listed, rfl⟩, value⟩
    · intro h
      obtain ⟨⟨b, listed, rfl⟩, value⟩ := h
      exact ⟨b, List.mem_filter.2 ⟨listed, value⟩, rfl⟩
  have all : (boundOutputs n (c.plugin n).outputs).map BoundPort.port =
      (c.plugin n).outputs.map Binding.name := by
    rw [boundOutputs, List.map_map]
    rfl
  rw [boundPorts, List.map_append, List.mem_append, valued, all, or_comm]

/-- The source of a port by the rules of wiring. -/
def sourceOf? (g : Graph) (n : Node) (port : String) : Option String :=
  match c.lastArrival? g.nodes g.links false n port with
  | some a => some (outputRef (c.stepName a.source) a.outlet)
  | none =>
    if port ∈ (c.plugin n).outputs.map Binding.name ∨
        (port ∈ (c.plugin n).inputs.map Binding.name ∧ hasValue (c.inputValue g n port)) then
      some (jobKey (c.stepName n) port)
    else none

/-- At one port the last link counts, and without one the job input if there is one. -/
theorem get?_sources_stepAt (header : Header) (order : List Int) (g : Graph) (n : Node)
    (port : String) :
    (c.stepAt header order g n).sources.get? port =
      ((c.lastArrival? g.nodes g.links false n port).map fun a =>
        outputRef (c.stepName a.source) a.outlet).or
      (if port ∈ (c.plugin n).outputs.map Binding.name ∨
          (port ∈ (c.plugin n).inputs.map Binding.name ∧
            hasValue ((c.settled order g n).input port)) then
        some (jobKey (c.stepName n) port)
      else none) := by
  have linked : (OrderedMap.written port ((c.arrivals g.nodes g.links false n).map c.wire)).getLast?
      = (c.lastArrival? g.nodes g.links false n port).map fun a =>
        outputRef (c.stepName a.source) a.outlet := by
    unfold wire
    rw [OrderedMap.written_map, List.getLast?_map, lastArrival?]
  rw [c.sources_stepAt, OrderedMap.get?_ofList, OrderedMap.written_append, List.getLast?_append,
    linked, getLast?_written_sourceEntry]
  simp only [mem_boundPorts_iff, c.plugin_congr (c.settled_bare order g n)]

variable {c} {header : Header} {order : List Int} {g : Graph}

/-- In a compiled document the port of a step has the source that the rules of wiring give. -/
theorem binding?_eq_sourceOf? (valid : g.IsOrder order) (n : Node)
    (step : n ∈ stepNodes order g.nodes) (inside : n ∈ g.nodes) (ordered : n.id ∈ order)
    (port : String) :
    Document.binding? (c.compiled header order g).document (c.stepName n) port =
      (c.sourceOf? g n port).map Document.binding := by
  rw [c.binding?_compiled header order g valid.nodup n step, c.get?_sources_stepAt header order g,
    input_settled_eq valid n inside ordered, sourceOf?]
  cases c.lastArrival? g.nodes g.links false n port <;> rfl

theorem mem_keys_run_inputs_iff (n : Node) (port : String) :
    port ∈ (c.stepAt header order g n).run.inputs.keys ↔
      port ∈ (c.plugin n).inputs.map Binding.name ∨
        port ∈ (c.plugin n).outputs.map Binding.name := by
  rw [c.run_inputs_stepAt, OrderedMap.mem_keys_ofList, List.map_append, List.mem_append,
    List.map_map, List.map_map]
  rfl

theorem declares_iff (once : order.Nodup) (n : Node) (step : n ∈ stepNodes order g.nodes)
    (port : String) :
    Document.Declares (c.compiled header order g).document (c.stepName n) port ↔
      port ∈ (c.plugin n).inputs.map Binding.name ∨
        port ∈ (c.plugin n).outputs.map Binding.name := by
  unfold Document.Declares
  rw [c.step?_compiled header order g once n step]
  simp only [Option.some.injEq, exists_eq_left', Document.field_run_inputs,
    Document.hasField_toObject_iff, mem_keys_run_inputs_iff]

theorem offers_iff (once : order.Nodup) (n : Node) (step : n ∈ stepNodes order g.nodes)
    (port : String) :
    Document.Offers (c.compiled header order g).document (c.stepName n) port ↔
      port ∈ (c.plugin n).outputs.map Binding.name := by
  unfold Document.Offers
  rw [c.step?_compiled header order g once n step]
  simp only [Option.some.injEq, exists_eq_left', Document.produces_iff, c.out_stepAt]

/-- In the editor's order, what a link brings to a step is offered by another step. -/
theorem offers_of_arrival (valid : g.IsOrder order) (distinct : g.ids.Nodup)
    (editor : c.order = Plugin.editorOrder) (n : Node) (step : n ∈ stepNodes order g.nodes)
    (a : Arrival) (arrived : a ∈ c.arrivals g.nodes g.links false n) :
    Document.Offers (c.compiled header order g).document (c.stepName a.source) a.outlet := by
  obtain ⟨inside, ordered, -⟩ := (mem_stepNodes_iff order g.nodes distinct n).1 step
  obtain ⟨known, kind, before⟩ := precedes_of_arrival valid false n inside ordered a arrived
  have source := (mem_stepNodes_iff order g.nodes distinct a.source).2 ⟨known, before.mem, kind⟩
  obtain ⟨link, -, -, -, -, -, joined⟩ :=
    c.exists_link_of_mem_arrivals g.nodes g.links false n a arrived
  obtain ⟨⟨p, found, listed⟩, -⟩ :=
    c.ports_of_linkPorts editor link a.source n a.outlet a.inlet joined
  rw [offers_iff valid.nodup a.source source, c.plugin_of_ok a.source p found]
  exact listed

theorem inlet_of_arrival (editor : c.order = Plugin.editorOrder) (n : Node) (a : Arrival)
    (arrived : a ∈ c.arrivals g.nodes g.links false n) :
    a.inlet ∈ (c.plugin n).inputs.map Binding.name := by
  obtain ⟨link, -, -, -, -, -, joined⟩ :=
    c.exists_link_of_mem_arrivals g.nodes g.links false n a arrived
  obtain ⟨-, p, found, listed⟩ :=
    c.ports_of_linkPorts editor link a.source n a.outlet a.inlet joined
  rw [c.plugin_of_ok n p found]
  exact listed

variable (c) in
/-- A port of a step is fed by a step that stands before it, from an outlet that the source's plugin
shows. In the editor's order the outlet is offered and the port declared. -/
structure LinkedBack (document : Value) (n : Node) (port : String) (a : Arrival) : Prop where
  fed : Document.binding? document (c.stepName n) port =
    some (Document.binding (outputRef (c.stepName a.source) a.outlet))
  earlier : Precedes (Document.stepIds document) (c.stepName a.source) (c.stepName n)
  shown : ∃ ports, c.portsOf a.source = .ok ports ∧ a.outlet ∈ ports.outputs.map Binding.name
  offered : c.order = Plugin.editorOrder → Document.Offers document (c.stepName a.source) a.outlet
  declared : c.order = Plugin.editorOrder → Document.Declares document (c.stepName n) port

/-- Where the last link from another step arrives, the port is linked backwards. -/
theorem linkedBack_of_arrival (valid : g.IsOrder order) (distinct : g.ids.Nodup) (n : Node)
    (step : n ∈ stepNodes order g.nodes) (port : String) (a : Arrival)
    (last : c.lastArrival? g.nodes g.links false n port = some a) :
    c.LinkedBack (c.compiled header order g).document n port a := by
  obtain ⟨inside, ordered, external⟩ := (mem_stepNodes_iff order g.nodes distinct n).1 step
  obtain ⟨arrived, inlet⟩ := mem_arrivals_of_last g.nodes g.links false n port a last
  obtain ⟨known, kind, before⟩ := precedes_of_arrival valid false n inside ordered a arrived
  constructor
  · rw [binding?_eq_sourceOf? valid n step inside ordered, sourceOf?, last]
    rfl
  · rw [c.stepIds_compiled header order g valid.nodup]
    exact precedes_stepNames distinct a.source n known inside kind external before
  · exact outlet_of_arrival g.nodes g.links false n a arrived
  · intro editor
    exact offers_of_arrival valid distinct editor n step a arrived
  · intro editor
    rw [declares_iff valid.nodup n step, ← inlet]
    exact .inl (inlet_of_arrival editor n a arrived)

end Catalog

/-- The steps of a compiled document run in the order in which they stand: they are the steps of
the nodes that are not internal, in the order of the sequence, each under its own id, and a source
that came from a link is an output of an earlier step. -/
theorem compiled_steps_run_in_order (c : Catalog) (header : Header) (strict : Bool) (g : Graph)
    (distinct : g.ids.Nodup) (w : Workflow) (made : toWorkflow c header strict g = .ok w) :
    ∃ order document, sequence (adjacency g.nodes g.links) = .ok order ∧
      w.document? = .ok document ∧
      Document.stepIds document = (stepNodes order g.nodes).map c.stepName ∧
      (Document.stepIds document).Nodup ∧
      ∀ n ∈ stepNodes order g.nodes, c.stepId n = .ok (c.stepName n) ∧
        ∀ port,
          (∀ a, c.lastArrival? g.nodes g.links false n port = some a →
            c.LinkedBack document n port a) ∧
          (c.lastArrival? g.nodes g.links false n port = none →
            ∀ fed, Document.binding? document (c.stepName n) port = some fed →
              fed = Document.binding (jobKey (c.stepName n) port)) := by
  obtain ⟨-, order, found, -, able, rfl⟩ :=
    (c.toWorkflow_eq_ok_iff header strict g distinct w).1 made
  have valid := isOrder_of_sequence g distinct order found
  have ids := c.stepIds_compiled header order g valid.nodup
  refine ⟨order, _, found, c.document?_compiled header order g valid.nodup, ids, ?_, ?_⟩
  · rw [ids]
    exact c.nodup_stepNames order g.nodes valid.nodup
  · intro n step
    obtain ⟨inside, ordered, -⟩ := (mem_stepNodes_iff order g.nodes distinct n).1 step
    obtain ⟨-, ⟨id, named⟩, -⟩ := able.emits n step
    refine ⟨c.eq_stepName n id named ▸ named, ?_⟩
    intro port
    constructor
    · intro a last
      exact Catalog.linkedBack_of_arrival valid distinct n step port a last
    · intro none fed written
      rw [Catalog.binding?_eq_sourceOf? valid n step inside ordered, Catalog.sourceOf?,
        none] at written
      dsimp only at written
      split at written
      · exact (Option.some.inj written).symm
      · cases written

def relayPlugin : Plugin :=
  ⟨"relay", "Relay", none, ["relay"], "relay:latest",
    [⟨"data", "string", true⟩, ⟨"mode", "string", false⟩], [⟨"result", "path", true⟩], []⟩

def relayCatalog : Catalog := .ofPlugins [relayPlugin]

def relaySender : Node := ⟨1, "relay", "First tool", false, none⟩

def relayReceiver : Node := ⟨2, "relay", "Second", false, none⟩

/-- A step that feeds another, and an internal node that has values for both. -/
def relayGraph : Graph :=
  { nodes := [relaySender, relayReceiver,
      ⟨3, "relay", "Value", true, some ⟨none, some ⟨[("result", .str "fast")]⟩⟩⟩]
    links := [⟨3, 2, 0, 0⟩, ⟨3, 2, 0, 1⟩, ⟨1, 2, 0, 0⟩, ⟨3, 1, 0, 0⟩] }

theorem relay_sequence :
    sequence (adjacency relayGraph.nodes relayGraph.links) = .ok [3, 1, 2] := by
  rfl

theorem relay_compiles : ∃ w, toWorkflow relayCatalog .default true relayGraph = .ok w := by
  apply exists_eq_ok_of_isOk
  decide +kernel

theorem compiled_steps_run_in_order_relay :
    ∃ w document, toWorkflow relayCatalog .default true relayGraph = .ok w ∧
      w.document? = .ok document ∧ Document.stepIds document = ["First_tool_1", "Second_2"] ∧
      relayCatalog.LinkedBack document relayReceiver "data" ⟨relaySender, "result", "data"⟩ := by
  obtain ⟨w, made⟩ := relay_compiles
  have distinct : relayGraph.ids.Nodup := by decide
  obtain ⟨order, document, found, written, ids, -, steps⟩ :=
    compiled_steps_run_in_order relayCatalog .default true relayGraph distinct w made
  rw [relay_sequence] at found
  cases found
  have names : (stepNodes [3, 1, 2] relayGraph.nodes).map relayCatalog.stepName =
      ["First_tool_1", "Second_2"] := by decide +kernel
  have step : relayReceiver ∈ stepNodes [3, 1, 2] relayGraph.nodes := by decide +kernel
  obtain ⟨-, ports⟩ := steps relayReceiver step
  exact ⟨w, document, made, written, ids.trans names, (ports "data").1 _ rfl⟩

/-- Each port of each step of a compiled document has exactly the source that links and values of
the graph give it, and no source if they give none. -/
theorem compiled_bindings_eq (c : Catalog) (header : Header) (strict : Bool) (g : Graph)
    (distinct : g.ids.Nodup) (w : Workflow) (made : toWorkflow c header strict g = .ok w) :
    ∃ order document, sequence (adjacency g.nodes g.links) = .ok order ∧
      w.document? = .ok document ∧
      Document.stepIds document = (stepNodes order g.nodes).map c.stepName ∧
      ∀ n ∈ stepNodes order g.nodes, c.pluginOf n = .ok (c.plugin n) ∧
        c.stepId n = .ok (c.stepName n) ∧
        ∀ port, Document.binding? document (c.stepName n) port =
          (c.sourceOf? g n port).map Document.binding := by
  obtain ⟨-, order, found, -, able, rfl⟩ :=
    (c.toWorkflow_eq_ok_iff header strict g distinct w).1 made
  have valid := isOrder_of_sequence g distinct order found
  refine ⟨order, _, found, c.document?_compiled header order g valid.nodup,
    c.stepIds_compiled header order g valid.nodup, ?_⟩
  intro n step
  obtain ⟨inside, ordered, -⟩ := (mem_stepNodes_iff order g.nodes distinct n).1 step
  obtain ⟨⟨p, listed⟩, ⟨id, named⟩, -⟩ := able.emits n step
  refine ⟨c.plugin_of_ok n p listed ▸ listed, c.eq_stepName n id named ▸ named, ?_⟩
  intro port
  exact Catalog.binding?_eq_sourceOf? valid n step inside ordered port

theorem compiled_bindings_eq_relay :
    ∃ w document, toWorkflow relayCatalog .default true relayGraph = .ok w ∧
      w.document? = .ok document ∧
      Document.binding? document "Second_2" "data" =
        some (Document.binding "First_tool_1/result") ∧
      Document.binding? document "Second_2" "mode" = some (Document.binding "Second_2_mode") ∧
      Document.binding? document "First_tool_1" "mode" = none := by
  obtain ⟨w, made⟩ := relay_compiles
  have distinct : relayGraph.ids.Nodup := by decide
  obtain ⟨order, document, found, written, -, steps⟩ :=
    compiled_bindings_eq relayCatalog .default true relayGraph distinct w made
  rw [relay_sequence] at found
  cases found
  have sender := (steps relaySender (by decide +kernel)).2.2
  have receiver := (steps relayReceiver (by decide +kernel)).2.2
  have senderName : relayCatalog.stepName relaySender = "First_tool_1" := by decide +kernel
  have receiverName : relayCatalog.stepName relayReceiver = "Second_2" := by decide +kernel
  rw [senderName] at sender
  rw [receiverName] at receiver
  have linked : relayCatalog.sourceOf? relayGraph relayReceiver "data" =
      some "First_tool_1/result" := by decide +kernel
  have valued : relayCatalog.sourceOf? relayGraph relayReceiver "mode" =
      some "Second_2_mode" := by decide +kernel
  have unset : relayCatalog.sourceOf? relayGraph relaySender "mode" = none := by decide +kernel
  refine ⟨w, document, made, written, ?_, ?_, ?_⟩
  · rw [receiver, linked]
    rfl
  · rw [receiver, valued]
    rfl
  · rw [sender, unset]
    rfl

end PipelineCompiler
