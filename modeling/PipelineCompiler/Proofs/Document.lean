import PipelineCompiler.Proofs.Synthesis
import PipelineCompiler.Schema.Validation

set_option autoImplicit false

namespace PipelineCompiler

theorem mem_stepNodes_iff (order : List Int) (nodes : List Node)
    (distinct : (nodes.map Node.id).Nodup) (n : Node) :
    n ∈ stepNodes order nodes ↔ n ∈ nodes ∧ n.id ∈ order ∧ n.internal = false := by
  simp only [stepNodes, List.mem_filter, List.mem_filterMap, Node.last?_eq_some_iff _ _ distinct,
    Bool.not_eq_true']
  constructor
  · intro given
    obtain ⟨⟨_, ordered, inside, rfl⟩, step⟩ := given
    exact ⟨inside, ordered, step⟩
  · intro given
    obtain ⟨inside, ordered, step⟩ := given
    exact ⟨⟨n.id, ordered, inside, rfl⟩, step⟩

/-- The ids of the step nodes are a part of the order. -/
theorem sublist_ids_stepNodes (order : List Int) (nodes : List Node) :
    ((stepNodes order nodes).map Node.id).Sublist order := by
  have found : ((order.filterMap fun id => Node.last? id nodes).map Node.id).Sublist order :=
    sublist_map_filterMap _ Node.id (fun id n last => (Node.mem_of_last? id nodes n last).2) order
  have kept := (List.filter_sublist (p := fun n : Node => !n.internal)
    (l := order.filterMap fun id => Node.last? id nodes)).map Node.id
  exact kept.trans found

theorem nodup_stepNodes (order : List Int) (nodes : List Node) (once : order.Nodup) :
    (stepNodes order nodes).Nodup :=
  List.Nodup.of_map Node.id ((sublist_ids_stepNodes order nodes).nodup once)

theorem eq_of_id_stepNodes (order : List Int) (nodes : List Node) (once : order.Nodup) (m n : Node)
    (left : m ∈ stepNodes order nodes) (right : n ∈ stepNodes order nodes) (same : m.id = n.id) :
    m = n :=
  List.inj_on_of_nodup_map ((sublist_ids_stepNodes order nodes).nodup once) left right same

namespace Catalog

variable (c : Catalog)

theorem nodup_stepNames (order : List Int) (nodes : List Node) (once : order.Nodup) :
    ((stepNodes order nodes).map c.stepName).Nodup := by
  have ids := (sublist_ids_stepNodes order nodes).nodup once
  rw [List.nodup_iff_pairwise_ne, List.pairwise_map] at ids ⊢
  exact ids.imp fun apart same => apart (c.id_eq_of_stepName_eq _ _ same)

/-- The step of a node of the graph. -/
def stepAt (header : Header) (order : List Int) (g : Graph) (n : Node) : Step :=
  c.stepOf header.stepCwlVersion g.links (g.nodes.map (c.settled order g)) (c.settled order g n)

theorem out_stepAt (header : Header) (order : List Int) (g : Graph) (n : Node) :
    (c.stepAt header order g n).out = (c.plugin n).outputs.map Binding.name := by
  rw [stepAt, stepOf, c.plugin_congr (c.settled_bare order g n)]

theorem run_inputs_stepAt (header : Header) (order : List Int) (g : Graph) (n : Node) :
    (c.stepAt header order g n).run.inputs =
      OrderedMap.ofList ((c.plugin n).inputs.map Binding.inputDeclaration ++
        (c.plugin n).outputs.map Binding.outputDeclaration) := by
  rw [stepAt, stepOf, c.plugin_congr (c.settled_bare order g n)]

/-- The sources of a step are its job inputs and over them the links. The settings passes change
neither names nor where links come from. -/
theorem sources_stepAt (header : Header) (order : List Int) (g : Graph) (n : Node) :
    (c.stepAt header order g n).sources =
      OrderedMap.ofList
        ((c.boundPorts g.links (g.nodes.map (c.settled order g)) (c.settled order g n)).map
            (BoundPort.sourceEntry (c.stepName n)) ++
          (c.arrivals g.nodes g.links false n).map c.wire) := by
  have wires : (c.arrivals (g.nodes.map (c.settled order g)) g.links false
      (c.settled order g n)).map c.wire = (c.arrivals g.nodes g.links false n).map c.wire := by
    rw [c.arrivals_map (c.settled order g) (c.settled_bare order g), List.map_map]
    apply List.map_congr_left
    intro a _
    have named := c.stepName_congr (c.settled_bare order g a.source)
    simp only [Function.comp_apply, wire, named]
  rw [stepAt, stepOf, wires, c.stepName_congr (c.settled_bare order g n)]

theorem entries_steps_compiled (header : Header) (order : List Int) (g : Graph)
    (once : order.Nodup) :
    (c.compiled header order g).steps.entries =
      (stepNodes order g.nodes).map fun n => (c.stepName n, c.stepAt header order g n) := by
  have names : ∀ n, c.stepName (c.settled order g n) = c.stepName n := fun n =>
    c.stepName_congr (c.settled_bare order g n)
  rw [compiled, workflowOf, OrderedMap.entries_ofList_of_nodup]
  · rw [List.map_map]
    simp only [Function.comp_def, names, stepAt]
  · simp only [List.map_map, Function.comp_def, names]
    exact c.nodup_stepNames order g.nodes once

theorem order_compiled (header : Header) (order : List Int) (g : Graph) :
    (c.compiled header order g).order = (stepNodes order g.nodes).map c.stepName := by
  rw [compiled, workflowOf, List.map_map]
  apply List.map_congr_left
  intro n _
  exact c.stepName_congr (c.settled_bare order g n)

theorem keys_steps_compiled (header : Header) (order : List Int) (g : Graph)
    (once : order.Nodup) :
    (c.compiled header order g).steps.keys = (stepNodes order g.nodes).map c.stepName := by
  rw [OrderedMap.keys, c.entries_steps_compiled header order g once, List.map_map]
  rfl

/-- Written in execution order, the steps are what they are. -/
theorem orderedSteps_compiled (header : Header) (order : List Int) (g : Graph)
    (once : order.Nodup) :
    (c.compiled header order g).orderedSteps = (c.compiled header order g).steps := by
  have keys := c.keys_steps_compiled header order g once
  have distinct : (c.compiled header order g).steps.keys.Nodup := by
    rw [keys]
    exact c.nodup_stepNames order g.nodes once
  rw [Workflow.orderedSteps, c.order_compiled, ← keys, OrderedMap.filterMap_keys_get? _ distinct]
  have same := OrderedMap.entries_ofList_of_nodup (c.compiled header order g).steps.entries distinct
  cases h : OrderedMap.ofList (c.compiled header order g).steps.entries
  rw [h] at same
  exact congrArg OrderedMap.mk same

end Catalog

namespace Document

def stepIds (document : Value) : List String := (fields (field document "steps")).map Prod.fst

def step? (document : Value) (id : String) : Option Value := (field document "steps").field? id

def binding? (document : Value) (id port : String) : Option Value :=
  (step? document id).bind fun step => (field step "in").field? port

def binding (source : String) : Value := .object [("source", .str source)]

/-- The tool of a step declares the input. -/
def Declares (document : Value) (id port : String) : Prop :=
  ∃ step, step? document id = some step ∧ hasField (field (field step "run") "inputs") port = true

/-- A step lists the output. -/
def Offers (document : Value) (id port : String) : Prop :=
  ∃ step, step? document id = some step ∧ produces step port = true

theorem field_steps (w : Workflow) :
    field w.document "steps" = w.orderedSteps.toObject Step.toValue := by
  simp [Workflow.document, field, Value.field?, OrderedMap.lookup]

theorem field_in (s : Step) :
    field s.toValue "in" = s.sources.toObject binding := by
  simp only [Step.toValue, field, Value.field?, OrderedMap.lookup, ↓reduceIte, Option.getD_some]
  rfl

theorem field_run (s : Step) : field s.toValue "run" = s.run.toValue := by
  simp [Step.toValue, field, Value.field?, OrderedMap.lookup]

theorem field_run_inputs (s : Step) :
    field (field s.toValue "run") "inputs" = s.run.inputs.toObject ToolInput.toValue := by
  simp [Step.toValue, Tool.toValue, field, Value.field?, OrderedMap.lookup]

theorem field_out (s : Step) : field s.toValue "out" = .strings s.out := by
  simp [Step.toValue, field, Value.field?, OrderedMap.lookup]

theorem field?_toObject {α : Type} (f : α → Value) (d : OrderedMap String α) (key : String) :
    (d.toObject f).field? key = (d.get? key).map f :=
  d.get?_map f key

theorem hasField_toObject_iff {α : Type} (f : α → Value) (d : OrderedMap String α)
    (key : String) : hasField (d.toObject f) key = true ↔ key ∈ d.keys := by
  rw [hasField, field?_toObject, Option.isSome_map, OrderedMap.mem_keys_iff_contains]
  rfl

theorem fields_toObject {α : Type} (f : α → Value) (d : OrderedMap String α) :
    fields (d.toObject f) = d.entries.map fun e => (e.1, f e.2) := rfl

theorem produces_iff (s : Step) (port : String) :
    produces s.toValue port = true ↔ port ∈ s.out := by
  rw [produces, field_out]
  simp [Value.strings]

end Document

namespace Catalog

variable (c : Catalog) (header : Header) (order : List Int) (g : Graph)

theorem stepIds_compiled (once : order.Nodup) :
    Document.stepIds (c.compiled header order g).document =
      (stepNodes order g.nodes).map c.stepName := by
  rw [Document.stepIds, Document.field_steps, Document.fields_toObject,
    c.orderedSteps_compiled header order g once, c.entries_steps_compiled header order g once]
  simp only [List.map_map, Function.comp_def]

theorem step?_compiled (once : order.Nodup) (n : Node) (step : n ∈ stepNodes order g.nodes) :
    Document.step? (c.compiled header order g).document (c.stepName n) =
      some (c.stepAt header order g n).toValue := by
  have distinct : (c.compiled header order g).steps.keys.Nodup := by
    rw [c.keys_steps_compiled header order g once]
    exact c.nodup_stepNames order g.nodes once
  have member : (c.stepName n, c.stepAt header order g n) ∈
      (c.compiled header order g).steps.entries := by
    rw [c.entries_steps_compiled header order g once]
    exact List.mem_map_of_mem step
  rw [Document.step?, Document.field_steps, Document.field?_toObject,
    c.orderedSteps_compiled header order g once,
    OrderedMap.get?_of_mem_entries _ distinct _ member]
  rfl

theorem binding?_compiled (once : order.Nodup) (n : Node) (step : n ∈ stepNodes order g.nodes)
    (port : String) :
    Document.binding? (c.compiled header order g).document (c.stepName n) port =
      ((c.stepAt header order g n).sources.get? port).map Document.binding := by
  rw [Document.binding?, c.step?_compiled header order g once n step, Option.bind_some,
    Document.field_in, Document.field?_toObject]

/-- Every id in the order has a step, and so the document can be written. -/
theorem document?_compiled (once : order.Nodup) :
    (c.compiled header order g).document? = .ok (c.compiled header order g).document := by
  have known : (c.compiled header order g).unknownStep? = none := by
    rw [Workflow.unknownStep?, List.find?_eq_none]
    intro id listed
    rw [c.order_compiled, ← c.keys_steps_compiled header order g once,
      OrderedMap.mem_keys_iff_contains] at listed
    simp [listed]
  rw [Workflow.document?, known]

variable {c header order g}

/-- What reaches a node in the order comes from a node before it. -/
theorem precedes_of_arrival (valid : g.IsOrder order) (fromInternal : Bool) (n : Node)
    (inside : n ∈ g.nodes) (ordered : n.id ∈ order) (a : Arrival)
    (arrived : a ∈ c.arrivals g.nodes g.links fromInternal n) :
    a.source ∈ g.nodes ∧ a.source.internal = fromInternal ∧ Precedes order a.source.id n.id := by
  obtain ⟨link, member, target, source, known, kind, -⟩ :=
    c.exists_link_of_mem_arrivals g.nodes g.links fromInternal n a arrived
  have joins : link.Joins g.ids := by
    rw [Link.Joins, source, target]
    exact ⟨List.mem_map_of_mem known, List.mem_map_of_mem inside⟩
  have earlier := valid.precedes link member joins (target ▸ ordered)
  rw [source, target] at earlier
  exact ⟨known, kind, earlier⟩

theorem outlet_of_arrival (nodes : List Node) (links : List Link) (fromInternal : Bool) (n : Node)
    (a : Arrival) (arrived : a ∈ c.arrivals nodes links fromInternal n) :
    ∃ ports, c.portsOf a.source = .ok ports ∧ a.outlet ∈ ports.outputs.map Binding.name := by
  obtain ⟨link, -, -, -, -, -, joined⟩ :=
    c.exists_link_of_mem_arrivals nodes links fromInternal n a arrived
  obtain ⟨out, -, found, -, named, -⟩ :=
    (c.linkPorts_eq_ok_iff link a.source n a.outlet a.inlet).1 joined
  obtain ⟨b, shown, name⟩ := Option.map_eq_some_iff.1 named
  exact ⟨out, found, name ▸ List.mem_map_of_mem (List.mem_of_getElem? shown)⟩

theorem mem_arrivals_of_last (nodes : List Node) (links : List Link) (fromInternal : Bool)
    (n : Node) (port : String) (a : Arrival)
    (last : c.lastArrival? nodes links fromInternal n port = some a) :
    a ∈ c.arrivals nodes links fromInternal n ∧ a.inlet = port := by
  have member := List.mem_of_getLast? last
  rw [List.mem_filter] at member
  exact ⟨member.1, by simpa using member.2⟩

/-- In a node of the order, an input holds its effective value. -/
theorem input_settled_eq (valid : g.IsOrder order) (n : Node) (inside : n ∈ g.nodes)
    (ordered : n.id ∈ order) (port : String) :
    (c.settled order g n).input port = c.inputValue g n port := by
  rw [input_settled, inputValue]
  cases last : c.lastArrival? g.nodes g.links true n port with
  | none => rfl
  | some a =>
    have arrived := (mem_arrivals_of_last g.nodes g.links true n port a last).1
    obtain ⟨-, -, earlier⟩ := precedes_of_arrival valid true n inside ordered a arrived
    obtain ⟨ports, found, shown⟩ := outlet_of_arrival g.nodes g.links true n a arrived
    exact c.output_placed order a.source ports a.outlet earlier.mem found shown

theorem precedes_stepNames (distinct : g.ids.Nodup) (m n : Node) (left : m ∈ g.nodes)
    (right : n ∈ g.nodes) (leftStep : m.internal = false) (rightStep : n.internal = false)
    (earlier : Precedes order m.id n.id) :
    Precedes ((stepNodes order g.nodes).map c.stepName) (c.stepName m) (c.stepName n) := by
  have foundLeft := (Node.last?_eq_some_iff m.id g.nodes distinct m).2 ⟨left, rfl⟩
  have foundRight := (Node.last?_eq_some_iff n.id g.nodes distinct n).2 ⟨right, rfl⟩
  have nodes := earlier.filterMap (fun id => Node.last? id g.nodes) m n foundLeft foundRight
  have steps := nodes.filterMap (Option.guard fun n => !n.internal) m n
    (by simp [Option.guard, leftStep]) (by simp [Option.guard, rightStep])
  rw [List.filterMap_eq_filter] at steps
  have names := steps.filterMap (fun n => some (c.stepName n)) _ _ rfl rfl
  rwa [List.filterMap_eq_map'] at names

end Catalog

end PipelineCompiler
