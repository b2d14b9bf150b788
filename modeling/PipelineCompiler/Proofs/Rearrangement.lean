import PipelineCompiler.Proofs.Agreement
import PipelineCompiler.Proofs.JobInputs
import PipelineCompiler.Proofs.Outcome

set_option autoImplicit false

namespace PipelineCompiler

/-- A link ends at one inlet of one node. -/
def Link.entersAt (target : Int) (inlet : Nat) (l : Link) : Bool :=
  l.target = target ∧ l.inlet = inlet

/-- The nodes and links of a graph in another order, in which the links into one inlet keep their
turns. -/
structure Graph.Rearranges (g' g : Graph) : Prop where
  nodes : g'.nodes.Perm g.nodes
  links : g'.links.Perm g.links
  turns : ∀ target inlet,
    g'.links.filter (Link.entersAt target inlet) = g.links.filter (Link.entersAt target inlet)

/-- Only inlets into which links lead have to be looked at. -/
theorem Graph.rearranges_iff (g' g : Graph) :
    g'.Rearranges g ↔ g'.nodes.Perm g.nodes ∧ g'.links.Perm g.links ∧
      ∀ l ∈ g.links, g'.links.filter (Link.entersAt l.target l.inlet) =
        g.links.filter (Link.entersAt l.target l.inlet) := by
  constructor
  · intro same
    exact ⟨same.nodes, same.links, fun l _ => same.turns l.target l.inlet⟩
  · rintro ⟨nodes, links, turns⟩
    refine ⟨nodes, links, fun target inlet => ?_⟩
    by_cases entered : ∃ l ∈ g.links, Link.entersAt target inlet l = true
    · obtain ⟨l, linked, enters⟩ := entered
      obtain ⟨rfl, rfl⟩ := of_decide_eq_true enters
      exact turns l linked
    · have none : ∀ l ∈ g.links, ¬ Link.entersAt target inlet l = true := fun l linked enters =>
        entered ⟨l, linked, enters⟩
      rw [List.filter_eq_nil_iff.2 none,
        List.filter_eq_nil_iff.2 fun l linked => none l (links.mem_iff.1 linked)]

instance (g' g : Graph) : Decidable (g'.Rearranges g) :=
  decidable_of_iff' _ (Graph.rearranges_iff g' g)

namespace Graph.Rearranges

variable {g g' : Graph} {order order' : List Int} (same : g'.Rearranges g)

include same

theorem symm : g.Rearranges g' where
  nodes := same.nodes.symm
  links := same.links.symm
  turns := fun target inlet => (same.turns target inlet).symm

theorem ids : g'.ids.Perm g.ids := same.nodes.map Node.id

theorem distinct (distinct : g.ids.Nodup) : g'.ids.Nodup := same.ids.nodup_iff.2 distinct

theorem feeds : g'.Feeds = g.Feeds := by
  funext a b
  simp only [Feeds, Link.Joins, same.links.mem_iff, same.ids.mem_iff]

theorem order_perm (valid : g.IsOrder order) (valid' : g'.IsOrder order') :
    order'.Perm order := by
  rw [List.perm_ext_iff_of_nodup valid'.nodup valid.nodup]
  intro id
  rw [valid'.mem_iff, valid.mem_iff, Blocked, Blocked, same.feeds, same.ids.mem_iff]

theorem exists_sequence (distinct : g.ids.Nodup)
    (found : sequence (adjacency g.nodes g.links) = .ok order) :
    ∃ order', sequence (adjacency g'.nodes g'.links) = .ok order' := by
  obtain ⟨id, inside, entry⟩ := (g.hasEntry_iff distinct).2 ⟨order, found⟩
  rw [← g'.hasEntry_iff (same.distinct distinct), HasEntry, same.feeds]
  exact ⟨id, same.ids.mem_iff.2 inside, entry⟩

theorem isIncomplete_eq (distinct : g.ids.Nodup) (valid : g.IsOrder order)
    (valid' : g'.IsOrder order') :
    isIncomplete (adjacency g'.nodes g'.links) order' =
      isIncomplete (adjacency g.nodes g.links) order := by
  rw [Bool.eq_iff_iff, valid'.isIncomplete_iff (same.distinct distinct),
    valid.isIncomplete_iff distinct, Acyclic, Acyclic, same.feeds]

theorem last?_eq (distinct : g.ids.Nodup) (id : Int) :
    Node.last? id g'.nodes = Node.last? id g.nodes := by
  ext n
  rw [Node.last?_eq_some_iff id g'.nodes (same.distinct distinct),
    Node.last?_eq_some_iff id g.nodes distinct, same.nodes.mem_iff]

theorem stepNodes_perm (distinct : g.ids.Nodup) (valid : g.IsOrder order)
    (valid' : g'.IsOrder order') :
    (stepNodes order' g'.nodes).Perm (stepNodes order g.nodes) := by
  simp only [stepNodes, same.last?_eq distinct]
  exact ((same.order_perm valid valid').filterMap _).filter _

theorem arrivals_eq (distinct : g.ids.Nodup) (c : Catalog) (links : List Link)
    (fromInternal : Bool) (n : Node) :
    c.arrivals g'.nodes links fromInternal n = c.arrivals g.nodes links fromInternal n := by
  apply List.filterMap_congr
  intro l _
  rw [Catalog.arrival?, Catalog.arrival?, same.last?_eq distinct]

/-- A graph that compiles does so however it is arranged. -/
theorem exists_toWorkflow (distinct : g.ids.Nodup) (c : Catalog) (header : Header) (strict : Bool)
    (w : Workflow) (made : toWorkflow c header strict g = .ok w) :
    ∃ w', toWorkflow c header strict g' = .ok w' := by
  have distinct' := same.distinct distinct
  obtain ⟨numbered, order, found, goesOn, able, -⟩ :=
    (c.toWorkflow_eq_ok_iff header strict g distinct w).1 made
  have numbered' : g'.Numbered :=
    { dangling := fun l linked => .inr (numbered.hasNumerals l (same.links.mem_iff.1 linked))
      ids := fun id inside => numbered.ids id (same.ids.mem_iff.1 inside) }
  obtain ⟨order', found'⟩ := same.exists_sequence distinct found
  have valid := isOrder_of_sequence g distinct order found
  have valid' := isOrder_of_sequence g' distinct' order' found'
  rw [← same.isIncomplete_eq distinct valid valid'] at goesOn
  have able' := able.mono distinct distinct' same.nodes.subset same.links.subset
    (same.order_perm valid valid').subset
  exact ⟨_, (c.toWorkflow_eq_ok_iff header strict g' distinct' _).2
    ⟨numbered', order', found', goesOn, able', rfl⟩⟩

end Graph.Rearranges

namespace Catalog

variable (c : Catalog)

/-- The position of an input among those that the plugin of a node shows. -/
def inletIndex (n : Node) (port : String) : Nat :=
  ((c.order (c.plugin n)).inputs.map Binding.name).idxOf port

variable (editor : c.order = Plugin.editorOrder)
  (unique : ∀ p ∈ c.plugins, (p.inputs.map Binding.name).Nodup)

include editor unique

/-- Where input names do not repeat, the links that arrive at one port are those to one index. -/
theorem inlet_eq_iff (n : Node) (port : String) (nodes : List Node) (fromInternal : Bool) (l : Link)
    (a : Arrival) (arrived : c.arrival? nodes fromInternal n l = some a) :
    a.inlet = port ↔ l.inlet = c.inletIndex n port := by
  obtain ⟨-, -, -, joined⟩ := (c.arrival?_eq_some_iff nodes fromInternal n l a).1 arrived
  obtain ⟨-, inn, -, ports, -, name⟩ :=
    (c.linkPorts_eq_ok_iff l a.source n a.outlet a.inlet).1 joined
  obtain ⟨p, found, rfl⟩ := (c.portsOf_eq_ok_iff n inn).1 ports
  have distinct : ((c.order p).inputs.map Binding.name).Nodup := by
    rw [editor]
    exact nodup_names_orderBindings _ p.inputs (unique p (c.mem_of_pluginOf n p found))
  rw [← List.getElem?_map] at name
  obtain ⟨bound, there⟩ := List.getElem?_eq_some_iff.1 name
  rw [inletIndex, c.plugin_of_ok n p found, ← there]
  constructor
  · rintro rfl
    exact (distinct.idxOf_getElem l.inlet bound).symm
  · intro index
    simp only [index]
    exact List.getElem_idxOf _

/-- What arrives at one port comes over the links to one inlet. -/
theorem filter_arrivals (n : Node) (port : String) (nodes : List Node) (links : List Link)
    (fromInternal : Bool) :
    (c.arrivals nodes links fromInternal n).filter (fun a => a.inlet = port) =
      c.arrivals nodes (links.filter (Link.entersAt n.id (c.inletIndex n port))) fromInternal
        n := by
  rw [arrivals, arrivals, List.filter_filterMap, List.filterMap_filter]
  apply List.filterMap_congr
  intro l _
  cases arrived : c.arrival? nodes fromInternal n l with
  | none => simp
  | some a =>
    have here := ((c.arrival?_eq_some_iff nodes fromInternal n l a).1 arrived).1
    have there := c.inlet_eq_iff editor unique n port nodes fromInternal l a arrived
    by_cases meets : a.inlet = port
    · simp [Link.entersAt, here, meets, there.1 meets]
    · simp [Link.entersAt, meets, mt there.2 meets]

variable {g g' : Graph} (same : g'.Rearranges g) (distinct : g.ids.Nodup)

include same distinct

/-- Each port gets what it got before from the last link into it. -/
theorem lastArrival?_of_rearranged (fromInternal : Bool) (n : Node) (port : String) :
    c.lastArrival? g'.nodes g'.links fromInternal n port =
      c.lastArrival? g.nodes g.links fromInternal n port := by
  rw [lastArrival?, lastArrival?, same.arrivals_eq distinct, c.filter_arrivals editor unique,
    c.filter_arrivals editor unique, same.turns]

variable {order order' : List Int}

theorem sameValues_of_rearranged (ordered : order'.Perm order) (n : Node) (inside : n ∈ g.nodes) :
    c.SameValues order order' g g' n n := by
  have placed : ∀ m, c.placed order' m = c.placed order m := by
    intro m
    simp only [Catalog.placed, fill, List.contains_eq_mem, ordered.mem_iff]
  apply sameValues_of_broughtTo distinct (same.distinct distinct) inside
    (same.nodes.mem_iff.2 inside) rfl
  · intro port
    rfl
  · intro port
    rw [placed]
  · intro port
    have brings : c.brings order' = c.brings order := by
      funext a
      rw [Catalog.brings, Catalog.brings, placed]
    rw [broughtTo, broughtTo, c.lastArrival?_of_rearranged editor unique same distinct, brings]

end Catalog

namespace Document

/-- Objects with the same fields, in whatever order. No name stands twice. -/
structure SameFields (v v' : Value) : Prop where
  once : ((fields v).map Prod.fst).Nodup
  perm : (fields v').Perm (fields v)

/-- Steps with the same tool, the same outputs and the same sources. -/
structure SameStep (step step' : Value) : Prop where
  run : field step' "run" = field step "run"
  out : field step' "out" = field step "out"
  sources : SameFields (field step "in") (field step' "in")

def head (document : Value) : List (String × Value) := (fields document).take 6

/-- Documents with one head and with the same steps under the same ids, in whatever order. -/
structure SameSteps (document document' : Value) : Prop where
  head : head document' = head document
  once : (stepIds document).Nodup
  ids : (stepIds document').Perm (stepIds document)
  steps : ∀ id ∈ stepIds document, ∃ step step', step? document id = some step ∧
    step? document' id = some step' ∧ SameStep step step'

/-- Documents with the same job inputs, declarations and outputs, in whatever order. -/
structure SameJob (document document' : Value) : Prop where
  jobInputs : SameFields (field document "cwlJobInputs") (field document' "cwlJobInputs")
  inputs : SameFields (field document "inputs") (field document' "inputs")
  outputs : SameFields (field document "outputs") (field document' "outputs")

theorem head_document (w w' : Workflow) (same : w'.header = w.header) :
    head w'.document = head w.document := by
  rw [head, head, Workflow.document, Workflow.document, same]
  rfl

theorem sameFields_toObject {α : Type} (f : α → Value) (d e : OrderedMap String α)
    (left : d.keys.Nodup) (right : e.keys.Nodup) (same : ∀ k, e.get? k = d.get? k) :
    SameFields (d.toObject f) (e.toObject f) := by
  constructor
  · rw [fields_toObject, List.map_map]
    exact left
  · rw [fields_toObject, fields_toObject]
    exact (OrderedMap.entries_perm_of_get? e d right left same).map _

end Document

namespace Catalog

variable (c : Catalog)

/-- No two of the steps write to one key of the job. -/
def KeysApart (emitted : List Node) : Prop :=
  ∀ m ∈ emitted, ∀ n ∈ emitted, n ≠ m → ∀ p ∈ c.writers m, ∀ q ∈ c.writers n,
    c.keyOf q ≠ c.keyOf p

instance (emitted : List Node) : Decidable (c.KeysApart emitted) :=
  inferInstanceAs (Decidable (∀ m ∈ emitted, ∀ n ∈ emitted, n ≠ m → ∀ p ∈ c.writers m,
    ∀ q ∈ c.writers n, c.keyOf q ≠ c.keyOf p))

variable {c} {g g' : Graph} {order order' : List Int}

/-- What steps with keys of their own write does not depend on the order in which they write. -/
theorem get?_flatMap_of_apart {α : Type} (once : order.Nodup)
    (steps : (stepNodes order' g'.nodes).Perm (stepNodes order g.nodes))
    (apart : c.KeysApart ((stepNodes order g.nodes).map (c.settled order g)))
    (entries entries' : Node → List (String × α))
    (agree : ∀ n ∈ stepNodes order g.nodes, entries' n = entries n)
    (written : ∀ n, ∀ key ∈ (entries n).map Prod.fst,
      ∃ p ∈ c.writers (c.settled order g n), c.keyOf p = key) (key : String) :
    (OrderedMap.ofList ((stepNodes order' g'.nodes).flatMap entries')).get? key =
      (OrderedMap.ofList ((stepNodes order g.nodes).flatMap entries)).get? key := by
  have agree' : ∀ n ∈ stepNodes order' g'.nodes, entries' n = entries n := fun n step =>
    agree n (steps.mem_iff.1 step)
  rw [List.flatMap_congr agree']
  symm
  apply OrderedMap.get?_ofList_flatMap_perm _ _ _ steps.symm (nodup_stepNodes order g.nodes once)
  intro m left n right other key mine others
  obtain ⟨p, writer, rfl⟩ := written m key mine
  obtain ⟨q, writer', meets⟩ := written n _ others
  -- The passes keep the ids, by which steps are told apart.
  have different : c.settled order g n ≠ c.settled order g m := by
    intro same
    have ids := congrArg Node.id same
    rw [Node.id_of_bare (c.settled_bare order g n), Node.id_of_bare (c.settled_bare order g m)]
      at ids
    exact other (eq_of_id_stepNodes order g.nodes once n m right left ids)
  exact apart _ (List.mem_map_of_mem left) _ (List.mem_map_of_mem right) different p writer q
    writer' meets

variable (editor : c.order = Plugin.editorOrder)
  (unique : ∀ p ∈ c.plugins, (p.inputs.map Binding.name).Nodup) (same : g'.Rearranges g)
  (distinct : g.ids.Nodup) (header : Header) (valid : g.IsOrder order) (valid' : g'.IsOrder order')

include editor unique same distinct valid valid'

theorem sameStep_of_rearranged (n : Node) (inside : n ∈ g.nodes) :
    Document.SameStep (c.stepAt header order g n).toValue
      (c.stepAt header order' g' n).toValue := by
  have ordered := same.order_perm valid valid'
  have values := c.sameValues_of_rearranged editor unique same distinct ordered n inside
  have step := values.stepAt header
  constructor
  · rw [Document.field_run, Document.field_run, step]
  · rw [Document.field_out, Document.field_out, step]
  · rw [Document.field_in, Document.field_in]
    apply Document.sameFields_toObject
    · rw [c.sources_stepAt]
      exact OrderedMap.nodup_keys_ofList _
    · rw [c.sources_stepAt]
      exact OrderedMap.nodup_keys_ofList _
    · intro port
      simp only [c.get?_sources_stepAt, c.lastArrival?_of_rearranged editor unique same distinct,
        values.input]

theorem sameSteps_of_rearranged :
    Document.SameSteps (c.compiled header order g).document
      (c.compiled header order' g').document := by
  have steps := same.stepNodes_perm distinct valid valid'
  have ids := c.stepIds_compiled header order g valid.nodup
  have ids' := c.stepIds_compiled header order' g' valid'.nodup
  have headers : (c.compiled header order' g').header = (c.compiled header order g).header := by
    rw [compiled_eq, compiled_eq]
  constructor
  · exact Document.head_document _ _ headers
  · rw [ids]
    exact c.nodup_stepNames order g.nodes valid.nodup
  · rw [ids, ids']
    exact steps.map c.stepName
  · rw [ids]
    intro id listed
    obtain ⟨n, step, rfl⟩ := List.mem_map.1 listed
    have inside := ((mem_stepNodes_iff order g.nodes distinct n).1 step).1
    exact ⟨_, _, c.step?_compiled header order g valid.nodup n step,
      c.step?_compiled header order' g' valid'.nodup n (steps.mem_iff.2 step),
      sameStep_of_rearranged editor unique same distinct header valid valid' n inside⟩

theorem sameJob_of_rearranged
    (apart : c.KeysApart ((stepNodes order g.nodes).map (c.settled order g))) :
    Document.SameJob (c.compiled header order g).document
      (c.compiled header order' g').document := by
  have ordered := same.order_perm valid valid'
  have steps := same.stepNodes_perm distinct valid valid'
  have values : ∀ n ∈ stepNodes order g.nodes, c.SameValues order order' g g' n n := by
    intro n step
    have inside := ((mem_stepNodes_iff order g.nodes distinct n).1 step).1
    exact c.sameValues_of_rearranged editor unique same distinct ordered n inside
  have jobs := get?_flatMap_of_apart valid.nodup steps apart _ _
    (fun n step => (values n step).jobsAt)
    fun n => c.exists_port_of_jobEntries g.links _ (c.settled order g n)
  have types := get?_flatMap_of_apart valid.nodup steps apart _ _
    (fun n step => (values n step).typesAt)
    fun n => c.exists_port_of_typeEntries g.links _ (c.settled order g n)
  have outputs := get?_flatMap_of_apart valid.nodup steps apart c.outputEntries c.outputEntries
    (fun _ _ => rfl) fun n key listed => c.exists_port_of_outputEntries (c.settled order g n) key
      ((c.outputEntries_congr (c.settled_bare order g n)).symm ▸ listed)
  rw [compiled_eq, compiled_eq]
  constructor
  · exact Document.sameFields_toObject _ _ _ (OrderedMap.nodup_keys_ofList _)
      (OrderedMap.nodup_keys_ofList _) jobs
  · exact Document.sameFields_toObject _ _ _ (OrderedMap.nodup_keys_ofList _)
      (OrderedMap.nodup_keys_ofList _) types
  · exact Document.sameFields_toObject _ _ _ (OrderedMap.nodup_keys_ofList _)
      (OrderedMap.nodup_keys_ofList _) outputs

end Catalog

/-- The order in which a graph lists its nodes and links does not matter, but for the turns of the
links into one inlet: a rearranged graph compiles exactly when the graph does, to the same steps;
and where no two steps share a key of the job, to the same job inputs, declarations and outputs. -/
theorem compiled_of_rearranged (c : Catalog) (header : Header) (strict : Bool) (g g' : Graph)
    (editor : c.order = Plugin.editorOrder)
    (unique : ∀ p ∈ c.plugins, (p.inputs.map Binding.name).Nodup) (distinct : g.ids.Nodup)
    (same : g'.Rearranges g) :
    ((∃ w', toWorkflow c header strict g' = .ok w') ↔
      ∃ w, toWorkflow c header strict g = .ok w) ∧
    ∀ w w', toWorkflow c header strict g = .ok w → toWorkflow c header strict g' = .ok w' →
      ∃ order nodes document document', sequence (adjacency g.nodes g.links) = .ok order ∧
        fillSettings c order g.links g.nodes = .ok nodes ∧
        w.document? = .ok document ∧ w'.document? = .ok document' ∧
        Document.SameSteps document document' ∧
        (c.KeysApart (stepNodes order nodes) → Document.SameJob document document') := by
  have distinct' := same.distinct distinct
  constructor
  · constructor
    · rintro ⟨w', made⟩
      exact same.symm.exists_toWorkflow distinct' c header strict w' made
    · rintro ⟨w, made⟩
      exact same.exists_toWorkflow distinct c header strict w made
  · intro w w' made made'
    obtain ⟨order, found, valid, -, filled, rfl⟩ :=
      c.compiled_of_toWorkflow header strict g distinct w made
    obtain ⟨order', -, valid', -, -, rfl⟩ :=
      c.compiled_of_toWorkflow header strict g' distinct' w' made'
    refine ⟨order, _, _, _, found, filled, c.document?_compiled header order g valid.nodup,
      c.document?_compiled header order' g' valid'.nodup,
      Catalog.sameSteps_of_rearranged editor unique same distinct header valid valid', ?_⟩
    rw [stepNodes_map _ (c.settled_bare order g)]
    exact Catalog.sameJob_of_rearranged editor unique same distinct header valid valid'

/-- Two internal nodes with values for two steps that do not depend on each other. At the first
inlet of the second step the links of both meet. -/
def fanGraph : Graph :=
  { nodes := [relaySender, relayReceiver,
      ⟨3, "relay", "Value", true, some ⟨none, some ⟨[("result", .str "fast")]⟩⟩⟩,
      ⟨4, "relay", "Other", true, some ⟨none, some ⟨[("result", .str "slow")]⟩⟩⟩]
    links := [⟨3, 1, 0, 0⟩, ⟨3, 2, 0, 0⟩, ⟨4, 2, 0, 0⟩, ⟨4, 1, 0, 1⟩] }

def turnedFanGraph : Graph :=
  { nodes := fanGraph.nodes.reverse
    links := [⟨3, 1, 0, 0⟩, ⟨4, 1, 0, 1⟩, ⟨3, 2, 0, 0⟩, ⟨4, 2, 0, 0⟩] }

theorem compiled_of_rearranged_fan :
    turnedFanGraph.Rearranges fanGraph ∧ ∃ w w' document document',
      toWorkflow relayCatalog .default true fanGraph = .ok w ∧
      toWorkflow relayCatalog .default true turnedFanGraph = .ok w' ∧
      w.document? = .ok document ∧ w'.document? = .ok document' ∧
      w.order = ["Second_2", "First_tool_1"] ∧ w'.order = ["First_tool_1", "Second_2"] ∧
      Document.SameSteps document document' ∧ Document.SameJob document document' := by
  have same : turnedFanGraph.Rearranges fanGraph := by decide +kernel
  have distinct : fanGraph.ids.Nodup := by decide
  have unique : ∀ p ∈ relayCatalog.plugins, (p.inputs.map Binding.name).Nodup := by decide
  obtain ⟨compiles, agree⟩ :=
    compiled_of_rearranged relayCatalog .default true fanGraph turnedFanGraph rfl unique distinct
      same
  have first : (toWorkflow relayCatalog .default true fanGraph).map Workflow.order =
      .ok ["Second_2", "First_tool_1"] := by decide +kernel
  have turned : (toWorkflow relayCatalog .default true turnedFanGraph).map Workflow.order =
      .ok ["First_tool_1", "Second_2"] := by decide +kernel
  obtain ⟨w, made, ids⟩ := (map_eq_ok _ _ _).1 first
  obtain ⟨w', made'⟩ := compiles.2 ⟨w, made⟩
  rw [made'] at turned
  have ids' : w'.order = ["First_tool_1", "Second_2"] := Except.ok.inj turned
  obtain ⟨order, nodes, document, document', found, filled, written, written', steps, job⟩ :=
    agree w w' made made'
  have sequenced : sequence (adjacency fanGraph.nodes fanGraph.links) = .ok [3, 4, 2, 1] := by rfl
  rw [sequenced] at found
  cases found
  have apart : (fillSettings relayCatalog [3, 4, 2, 1] fanGraph.links fanGraph.nodes).map
      (fun nodes => decide (relayCatalog.KeysApart (stepNodes [3, 4, 2, 1] nodes))) =
        .ok true := by decide +kernel
  rw [filled] at apart
  have different := of_decide_eq_true (Except.ok.inj apart)
  exact ⟨same, w, w', document, document', made, made', written, written', ids, ids', steps,
    job different⟩

end PipelineCompiler
