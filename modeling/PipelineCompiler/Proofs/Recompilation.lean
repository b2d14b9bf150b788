import PipelineCompiler.Proofs.Agreement

set_option autoImplicit false

/- Compiling what the settings passes leave. No pass undoes what another has done: placeholders are
values and are not due again, inlining does not touch the outputs that it reads, and the same links
write the same values once more. So the passes leave their own result as it is. -/
namespace PipelineCompiler

namespace Node

/-- Nodes with settings are the same when all else and their values are. -/
theorem eq_of_provision {m n : Node} (left : m.provision = m) (right : n.provision = n)
    (bare : m.bare = n.bare) (inputs : m.inputs = n.inputs) (outputs : m.outputs = n.outputs) :
    m = n := by
  rw [← left, ← right, provision, provision, inputs, outputs]
  change m.bare.withSettings n.inputs n.outputs = n.bare.withSettings n.inputs n.outputs
  rw [bare]

theorem provision_foldl_absorb (arrivals : List Arrival) (n : Node)
    (provisioned : n.provision = n) :
    (arrivals.foldl absorb n).provision = arrivals.foldl absorb n := by
  induction arrivals generalizing n with
  | nil => exact provisioned
  | cons a rest ih => exact ih _ rfl

end Node

theorem Graph.nodup_ids_map (g : Graph) (f : Node → Node) (same : ∀ n, (f n).bare = n.bare)
    (distinct : g.ids.Nodup) : ({ g with nodes := g.nodes.map f } : Graph).ids.Nodup := by
  rw [Graph.ids, Node.map_id_map f same]
  exact distinct

/-- Values of nodes do not show in the records of the adjacency. -/
theorem adjacency_map (f : Node → Node) (same : ∀ n, (f n).bare = n.bare) (nodes : List Node)
    (links : List Link) : adjacency (nodes.map f) links = adjacency nodes links := by
  have ids : ∀ n, (f n).id = n.id := fun n => Node.id_of_bare (same n)
  simp only [adjacency, List.map_map, Function.comp_def, ids]

namespace Catalog

variable (c : Catalog) (order : List Int) (g : Graph)

theorem provision_fill (n : Node) (provisioned : n.provision = n) :
    (c.fill order n).provision = c.fill order n := by
  rw [fill]
  split
  · rfl
  · exact provisioned

theorem provision_settled (n : Node) :
    (c.settled order g n).provision = c.settled order g n := by
  apply Node.provision_foldl_absorb
  exact c.provision_fill order n.provision rfl

theorem outputs_settled (n : Node) :
    (c.settled order g n).outputs = (c.placed order n).outputs := by
  rw [settled, inline, outputs_foldl_absorb]

variable {c order g}

theorem fill_settled (n : Node) : c.fill order (c.settled order g n) = c.settled order g n := by
  have bare : (c.settled order g n).bare = n.provision.bare := c.settled_bare order g n
  rw [fill]
  split
  · rename_i ordered
    have ids := Node.id_of_bare bare
    have outputs : (c.settled order g n).outputs = c.filledOutputs n.provision := by
      rw [outputs_settled, placed, fill, if_pos (ids ▸ ordered), Node.outputs_withSettings]
    rw [c.filledOutputs_of_filled bare outputs]
    exact c.provision_settled order g n
  · rfl

theorem inline_settled (n : Node) :
    c.inline (g.nodes.map (c.settled order g)) g.links (c.settled order g n) =
      c.settled order g n := by
  have settled := c.settled_bare order g
  have placed := c.placed_bare order
  -- The links read outputs, and those the first inlining has left alone.
  have brought : ((c.arrivals (g.nodes.map (c.settled order g)) g.links true
      (c.settled order g n)).map fun a => (a.inlet, a.source.output a.outlet)) =
        (c.arrivals (g.nodes.map (c.placed order)) g.links true (c.placed order n)).map
          fun a => (a.inlet, a.source.output a.outlet) := by
    rw [c.arrivals_map _ settled, c.arrivals_map _ placed, List.map_map, List.map_map]
    simp only [Function.comp_def, output_settled]
  apply Node.eq_of_provision
  · exact Node.provision_foldl_absorb _ _ (c.provision_settled order g n)
  · exact c.provision_settled order g n
  · rw [inline, foldl_absorb_bare]
  · have inputs : (c.settled order g n).inputs = (c.placed order n).inputs.insertAll
        ((c.arrivals (g.nodes.map (c.placed order)) g.links true (c.placed order n)).map
          fun a => (a.inlet, a.source.output a.outlet)) := by
      rw [Catalog.settled, inline, inputs_foldl_absorb]
    rw [inline, inputs_foldl_absorb, brought, inputs, OrderedMap.insertAll_insertAll]
  · rw [inline, outputs_foldl_absorb]

/-- Nodes run in the order, and every pass leaves them as they are. -/
structure Stable (c : Catalog) (order : List Int) (links : List Link) (nodes : List Node) :
    Prop where
  sequence : sequence (adjacency nodes links) = .ok order
  provision : nodes.map Node.provision = nodes
  placeholders : fillPlaceholders c order nodes = .ok nodes
  inlining : inlineValues c links nodes = .ok nodes

theorem map_eq_self {f : Node → Node} (same : ∀ n, f (c.settled order g n) = c.settled order g n) :
    (g.nodes.map (c.settled order g)).map f = g.nodes.map (c.settled order g) := by
  rw [List.map_map]
  exact List.map_congr_left fun n _ => same n

theorem stable_settled (found : sequence (adjacency g.nodes g.links) = .ok order)
    (able : c.Synthesizes order g) (distinct : g.ids.Nodup) :
    c.Stable order g.links (g.nodes.map (c.settled order g)) := by
  have same := c.settled_bare order g
  constructor
  · rw [adjacency_map _ same, found]
  · exact map_eq_self (c.provision_settled order g)
  · rw [fillPlaceholders_eq_ok_iff]
    refine ⟨?_, (map_eq_self fill_settled).symm⟩
    simp only [List.forall_mem_map, c.portsOf_congr (same _), c.stepId_congr (same _),
      Node.id_of_bare (same _)]
    exact able.fills
  · rw [inlineValues_eq_ok_iff c _ _ (g.nodup_ids_map _ same distinct)]
    refine ⟨?_, (map_eq_self inline_settled).symm⟩
    intro l linked
    exact (c.inlines_map _ same g.nodes l).2 (able.inlines l linked)

theorem Stable.fillSettings {nodes : List Node} {links : List Link}
    (stable : c.Stable order links nodes) : fillSettings c order links nodes = .ok nodes := by
  rw [PipelineCompiler.fillSettings, stable.provision, stable.placeholders]
  exact stable.inlining

/-- Without a change of the values that a step can see, synthesis asks nothing new. -/
theorem synthesizes_map (f : Node → Node) (same : ∀ n, (f n).bare = n.bare)
    (able : c.Synthesizes order g) : c.Synthesizes order { g with nodes := g.nodes.map f } := by
  constructor
  · simp only [List.forall_mem_map, c.portsOf_congr (same _), c.stepId_congr (same _),
      Node.id_of_bare (same _)]
    exact able.fills
  · intro l linked
    exact (c.inlines_map f same g.nodes l).2 (able.inlines l linked)
  · rw [stepNodes_map f same, List.forall_mem_map]
    intro n step
    exact (c.emits_map f same g.links g.nodes n).2 (able.emits n step)

/-- Other values in the nodes make no difference where the placeholders make up for them. -/
theorem compiled_map (header : Header) (distinct : g.ids.Nodup) (f : Node → Node)
    (same : ∀ n, (f n).bare = n.bare) (inputs : ∀ n ∈ g.nodes, (f n).input = n.input)
    (outputs : ∀ n ∈ g.nodes, (c.placed order (f n)).output = (c.placed order n).output) :
    c.compiled header order { g with nodes := g.nodes.map f } = c.compiled header order g := by
  have distinct' := g.nodup_ids_map f same distinct
  have brought : ∀ n port, c.broughtTo order { g with nodes := g.nodes.map f } (f n) port =
      c.broughtTo order g n port := by
    intro n port
    rw [broughtTo, broughtTo, c.lastArrival?_map f same, Option.map_map]
    cases last : c.lastArrival? g.nodes g.links true n port with
    | none => rfl
    | some a =>
      have arrived := (mem_arrivals_of_last g.nodes g.links true n port a last).1
      obtain ⟨-, -, -, -, inside, -⟩ := c.exists_link_of_mem_arrivals _ _ _ n a arrived
      simp only [Option.map_some, Function.comp_apply, brings, Arrival.outletRef,
        Node.id_of_bare (same a.source), outputs a.source inside]
  apply compiled_congr header f (stepNodes_map f same order g.nodes)
  intro n step
  have inside := ((mem_stepNodes_iff order g.nodes distinct n).1 step).1
  constructor
  · exact sameValues_of_broughtTo distinct distinct' inside (List.mem_map_of_mem inside)
      (same n) (congrFun (inputs n inside)) (congrFun (outputs n inside)) (brought n)
  · simp only [wires, c.arrivals_map f same, List.map_map]
    apply List.map_congr_left
    intro a _
    simp only [Function.comp_apply, wire, c.stepName_congr (same a.source)]

/-- The order does not depend on the values of nodes. -/
theorem numbered_map (numbered : g.Numbered) (f : Node → Node) (same : ∀ n, (f n).bare = n.bare) :
    Graph.Numbered { g with nodes := g.nodes.map f } where
  dangling := fun l linked => .inr (numbered.hasNumerals l linked)
  ids := by
    rw [Graph.ids, Node.map_id_map f same]
    exact numbered.ids

theorem toWorkflow_map (header : Header) (strict : Bool) (f : Node → Node)
    (same : ∀ n, (f n).bare = n.bare) (distinct : g.ids.Nodup) (numbered : g.Numbered)
    (found : sequence (adjacency g.nodes g.links) = .ok order)
    (goesOn : (strict && isIncomplete (adjacency g.nodes g.links) order) = false) :
    toWorkflow c header strict { g with nodes := g.nodes.map f } =
      synthesize c header order { g with nodes := g.nodes.map f } := by
  have ordered := (executionOrder_eq_ok_iff (g.nodup_ids_map f same distinct) _).2
    ⟨numbered_map numbered f same, rfl, by rw [adjacency_map f same, found]⟩
  rw [toWorkflow, ordered]
  simp only [adjacency_map f same, goesOn, Bool.false_eq_true, ↓reduceIte]

/-- Nodes with other values that come to the same are as good. -/
theorem synthesize_map (header : Header) (distinct : g.ids.Nodup) (able : c.Synthesizes order g)
    (f : Node → Node) (same : ∀ n, (f n).bare = n.bare)
    (inputs : ∀ n ∈ g.nodes, (f n).input = n.input)
    (outputs : ∀ n ∈ g.nodes, (c.placed order (f n)).output = (c.placed order n).output) :
    synthesize c header order { g with nodes := g.nodes.map f } =
      .ok (c.compiled header order g) := by
  have distinct' := g.nodup_ids_map f same distinct
  rw [c.synthesize_eq_ok_iff header order _ distinct']
  exact ⟨synthesizes_map f same able, (compiled_map header distinct f same inputs outputs).symm⟩

end Catalog

/-- The user gives an output a value. -/
def Node.withOutput (n : Node) (port : String) (v : Value) : Node :=
  n.withSettings n.inputs (n.outputs.insert port v)

def Node.withOutputAt (id : Int) (port : String) (v : Value) (n : Node) : Node :=
  if n.id = id then n.withOutput port v else n

def Graph.withOutput (g : Graph) (id : Int) (port : String) (v : Value) : Graph :=
  { g with nodes := g.nodes.map (Node.withOutputAt id port v) }

theorem Node.bare_withOutputAt (id : Int) (port : String) (v : Value) (n : Node) :
    (withOutputAt id port v n).bare = n.bare := by
  rw [withOutputAt]
  split <;> rfl

theorem Node.input_withOutputAt (id : Int) (port : String) (v : Value) (n : Node) :
    (withOutputAt id port v n).input = n.input := by
  rw [withOutputAt]
  split <;> rfl

theorem Node.output_withOutput (n : Node) (port : String) (v : Value) (other : String) :
    (n.withOutput port v).output other = if other = port then v else n.output other := by
  rw [output, withOutput, outputs_withSettings, OrderedMap.get?_insert]
  split <;> rfl

namespace Catalog

variable {c : Catalog} {order : List Int} {g : Graph}

theorem fills_congr {m n : Node} (bare : m.bare = n.bare) (port : String)
    (same : m.output port = n.output port) : c.Fills order m port ↔ c.Fills order n port := by
  rw [Fills, Fills, c.portsOf_congr bare, Node.id_of_bare bare, same]

theorem output_fill_congr {m n : Node} (bare : m.bare = n.bare) (port : String)
    (same : m.output port = n.output port) :
    (c.fill order m).output port = (c.fill order n).output port := by
  classical
  rw [output_fill_eq, output_fill_eq, c.stepName_congr bare, same]
  simp only [fills_congr bare port same]

/-- A placeholder that the user gives is as good as one that the pass gives. -/
theorem output_fill_withOutput (n : Node) (port : String) :
    (c.fill order (n.withOutput port ((c.fill order n).output port))).output =
      (c.fill order n).output := by
  classical
  funext other
  have bare : (n.withOutput port ((c.fill order n).output port)).bare = n.bare := rfl
  have value := n.output_withOutput port ((c.fill order n).output port) other
  by_cases here : other = port
  · subst here
    rw [if_pos rfl] at value
    -- A placeholder is a value, and what is no placeholder was there before.
    have left : ¬ c.Fills order (n.withOutput other ((c.fill order n).output other)) other := by
      intro fills
      by_cases filled : c.Fills order n other
      · obtain ⟨-, -, -, -, -, empty⟩ := fills
        rw [value, output_fill_eq, if_pos filled, hasValue_placeholder] at empty
        cases empty
      · have own : (c.fill order n).output other = n.output other := by
          rw [output_fill_eq, if_neg filled]
        exact filled ((fills_congr bare other (value.trans own)).1 fills)
    rw [output_fill_eq, if_neg left, value]
  · rw [if_neg here] at value
    exact output_fill_congr bare other value

theorem output_placed_withOutput (n : Node) (port : String) :
    (c.placed order (n.withOutput port ((c.placed order n).output port))).output =
      (c.placed order n).output :=
  output_fill_withOutput n.provision port

end Catalog

/-- Compiling is stable: the passes leave their own result as it is, and the pipeline with the nodes
that they leave compiles to the same workflow. So does the pipeline in which the user sets an output
to what the passes leave there, such as a placeholder. -/
theorem compiled_again (c : Catalog) (header : Header) (strict : Bool) (g : Graph)
    (distinct : g.ids.Nodup) (w : Workflow) (made : toWorkflow c header strict g = .ok w) :
    ∃ order nodes, sequence (adjacency g.nodes g.links) = .ok order ∧
      fillSettings c order g.links g.nodes = .ok nodes ∧
      toWorkflow c header strict { g with nodes := nodes } = .ok w ∧
      c.Stable order g.links nodes ∧
      ∀ n ∈ nodes, ∀ port,
        toWorkflow c header strict (g.withOutput n.id port (n.output port)) = .ok w := by
  obtain ⟨numbered, order, found, goesOn, able, rfl⟩ :=
    (c.toWorkflow_eq_ok_iff header strict g distinct w).1 made
  have filled := (fillSettings_eq_ok_iff c order g distinct _).2 ⟨⟨able.fills, able.inlines⟩, rfl⟩
  have stable := Catalog.stable_settled found able distinct
  have synthesized := (c.synthesize_eq_ok_iff header order g distinct _).2 ⟨able, rfl⟩
  refine ⟨order, _, found, filled, ?_, stable, ?_⟩
  · rw [Catalog.toWorkflow_map header strict _ (c.settled_bare order g) distinct numbered found
      goesOn, ← synthesized, synthesize, synthesize, filled, stable.fillSettings]
  · intro m member port
    obtain ⟨n, inside, rfl⟩ := List.mem_map.1 member
    rw [c.output_settled, Node.id_of_bare (c.settled_bare order g n)]
    have bare := Node.bare_withOutputAt n.id port ((c.placed order n).output port)
    rw [Graph.withOutput,
      Catalog.toWorkflow_map header strict _ bare distinct numbered found goesOn]
    apply Catalog.synthesize_map header distinct able _ bare
    · intro m _
      exact Node.input_withOutputAt n.id port _ m
    · intro m inside'
      rw [Node.withOutputAt]
      split
      · rename_i here
        obtain rfl : m = n := List.inj_on_of_nodup_map distinct inside' inside here
        exact Catalog.output_placed_withOutput m port
      · rfl

theorem compiled_again_relay :
    ∃ w nodes, toWorkflow relayCatalog .default true relayGraph = .ok w ∧
      fillSettings relayCatalog [3, 1, 2] relayGraph.links relayGraph.nodes = .ok nodes ∧
      toWorkflow relayCatalog .default true { relayGraph with nodes := nodes } = .ok w ∧
      relayCatalog.Stable [3, 1, 2] relayGraph.links nodes ∧
      toWorkflow relayCatalog .default true
        (relayGraph.withOutput 1 "result" (.str "First_tool_1-result")) = .ok w := by
  obtain ⟨w, made⟩ := relay_compiles
  have distinct : relayGraph.ids.Nodup := by decide
  obtain ⟨order, nodes, found, filled, again, stable, placeholders⟩ :=
    compiled_again relayCatalog .default true relayGraph distinct w made
  rw [relay_sequence] at found
  cases found
  have placeholder : (fillSettings relayCatalog [3, 1, 2] relayGraph.links relayGraph.nodes).map
      (fun nodes => nodes.any fun n => n.id = 1 ∧
        n.output "result" = .str "First_tool_1-result") = .ok true := by
    decide +kernel
  rw [filled] at placeholder
  obtain ⟨n, member, value⟩ := List.any_eq_true.1 (Except.ok.inj placeholder)
  obtain ⟨id, output⟩ := of_decide_eq_true value
  have given := placeholders n member "result"
  rw [id, output] at given
  exact ⟨w, nodes, made, filled, again, stable, given⟩

end PipelineCompiler
