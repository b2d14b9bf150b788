import PipelineCompiler.Filling
import PipelineCompiler.Proofs.OrderedMap
import PipelineCompiler.Proofs.Placeholder
import PipelineCompiler.Proofs.Sequence
import PipelineCompiler.Workflow.Synthesis

set_option autoImplicit false

namespace PipelineCompiler

/-- A node takes in the value that a link brings. -/
def Node.absorb (n : Node) (a : Arrival) : Node :=
  n.withSettings (n.inputs.insert a.inlet (a.source.output a.outlet)) n.outputs

/-- A node takes in the values of all links from internal nodes, in their order. -/
def Catalog.inline (c : Catalog) (nodes : List Node) (links : List Link) (n : Node) : Node :=
  (c.arrivals nodes links true n).foldl Node.absorb n

theorem foldl_absorb_bare (arrivals : List Arrival) (n : Node) :
    (arrivals.foldl Node.absorb n).bare = n.bare := by
  induction arrivals generalizing n with
  | nil => rfl
  | cons a rest ih => rw [List.foldl_cons, ih, Node.absorb, Node.bare_withSettings]

theorem outputs_foldl_absorb (arrivals : List Arrival) (n : Node) :
    (arrivals.foldl Node.absorb n).outputs = n.outputs := by
  induction arrivals generalizing n with
  | nil => rfl
  | cons a rest ih => rw [List.foldl_cons, ih, Node.absorb, Node.outputs_withSettings]

theorem inputs_foldl_absorb (arrivals : List Arrival) (n : Node) :
    (arrivals.foldl Node.absorb n).inputs =
      n.inputs.insertAll (arrivals.map fun a => (a.inlet, a.source.output a.outlet)) := by
  induction arrivals generalizing n with
  | nil => rfl
  | cons a rest ih =>
    rw [List.foldl_cons, ih, Node.absorb, Node.inputs_withSettings, List.map_cons,
      OrderedMap.insertAll_cons]

/-- The last arrival at a port decides about its value. -/
theorem get?_inputs_foldl_absorb (arrivals : List Arrival) (n : Node) (port : String) :
    (arrivals.foldl Node.absorb n).inputs.get? port =
      match (arrivals.filter fun a => a.inlet = port).getLast? with
      | some a => some (a.source.output a.outlet)
      | none => n.inputs.get? port := by
  rw [inputs_foldl_absorb, OrderedMap.get?_insertAll, OrderedMap.written_map, List.getLast?_map]
  cases (arrivals.filter fun a => a.inlet = port).getLast? <;> rfl

theorem input_foldl_absorb (arrivals : List Arrival) (n : Node) (port : String) :
    (arrivals.foldl Node.absorb n).input port =
      match (arrivals.filter fun a => a.inlet = port).getLast? with
      | some a => a.source.output a.outlet
      | none => n.input port := by
  rw [Node.input, get?_inputs_foldl_absorb]
  cases (arrivals.filter fun a => a.inlet = port).getLast? <;> rfl

/-- A link from an internal node has its indices in range, and its ends can be noted. -/
def Catalog.Inlines (c : Catalog) (nodes : List Node) (link : Link) : Prop :=
  ∀ source target, Node.last? link.source nodes = some source →
    Node.last? link.target nodes = some target → source.internal = true →
      link.hasNumerals = true ∧ ∃ ports, c.linkPorts link source target = .ok ports

/-- One link, as a change of every node. -/
def Catalog.inlineStep (c : Catalog) (nodes : List Node) (current : List Node) (link : Link) :
    List Node :=
  current.map fun n =>
    match c.arrival? nodes true n link with
    | some a => n.absorb a
    | none => n

/-- Nodes whose inputs alone may have changed. -/
def SameButInputs (nodes current : List Node) : Prop :=
  ∃ f : Node → Node, (∀ n, (f n).bare = n.bare ∧ (f n).outputs = n.outputs) ∧
    current = nodes.map f

theorem Catalog.arrival?_congr (c : Catalog) (nodes : List Node) (fromInternal : Bool) {m n : Node}
    (same : m.bare = n.bare) (link : Link) :
    c.arrival? nodes fromInternal m link = c.arrival? nodes fromInternal n link := by
  change c.arrival? nodes fromInternal m.bare link = c.arrival? nodes fromInternal n.bare link
  rw [same]

theorem SameButInputs.inlineStep (c : Catalog) {nodes current : List Node}
    (same : SameButInputs nodes current) (link : Link) :
    SameButInputs nodes (c.inlineStep nodes current link) := by
  obtain ⟨f, kept, rfl⟩ := same
  refine ⟨fun n => match c.arrival? nodes true (f n) link with
    | some a => (f n).absorb a
    | none => f n, ?_, ?_⟩
  · intro n
    dsimp only
    cases c.arrival? nodes true (f n) link with
    | none => exact kept n
    | some a => exact kept n
  · rw [Catalog.inlineStep, List.map_map]
    rfl

theorem unifyNodes_of_nodup (nodes : List Node) (distinct : (nodes.map Node.id).Nodup) :
    unifyNodes nodes = nodes := by
  rw [unifyNodes]
  conv => rhs; rw [← List.map_id nodes]
  apply List.map_congr_left
  intro n member
  rw [(Node.last?_eq_some_iff n.id nodes distinct n).2 ⟨member, rfl⟩]
  rfl

/-- A link that brings nothing changes nothing. -/
theorem Catalog.inlineStep_of_idle (c : Catalog) (nodes : List Node) (f : Node → Node)
    (kept : ∀ n, (f n).bare = n.bare) (link : Link)
    (idle : ∀ n ∈ nodes, ∀ a, c.arrival? nodes true n link ≠ some a) :
    c.inlineStep nodes (nodes.map f) link = nodes.map f := by
  rw [inlineStep, List.map_map]
  apply List.map_congr_left
  intro n member
  have absent : c.arrival? nodes true (f n) link = none := by
    rw [c.arrival?_congr nodes true (kept n) link]
    exact Option.eq_none_iff_forall_ne_some.2 (idle n member)
  simp only [Function.comp_apply, absent]

theorem Catalog.inlineStep_of_arrival (c : Catalog) (nodes : List Node)
    (distinct : (nodes.map Node.id).Nodup) (f : Node → Node)
    (kept : ∀ n, (f n).bare = n.bare ∧ (f n).outputs = n.outputs) (link : Link) (t : Node)
    (a : Arrival) (member : t ∈ nodes) (arrived : c.arrival? nodes true t link = some a) :
    c.inlineStep nodes (nodes.map f) link =
      replaceNode ((f t).absorb { a with source := f a.source }) (nodes.map f) := by
  have ids : ∀ n, (f n).id = n.id := fun n => Node.id_of_bare (kept n).1
  rw [inlineStep, replaceNode, List.map_map, List.map_map]
  apply List.map_congr_left
  intro n inside
  have here := ((c.arrival?_eq_some_iff nodes true t link a).1 arrived).1
  have target : ((f t).absorb { a with source := f a.source }).id = t.id := ids t
  simp only [Function.comp_apply, target, ids, c.arrival?_congr nodes true (kept n).1 link]
  by_cases same : n.id = t.id
  · obtain rfl : n = t := List.inj_on_of_nodup_map distinct inside member same
    have value : (f a.source).output a.outlet = a.source.output a.outlet := by
      rw [Node.output, (kept a.source).2, Node.output]
    simp only [arrived, ↓reduceIte, Node.absorb, value]
  · have absent : c.arrival? nodes true n link = none := by
      rw [Option.eq_none_iff_forall_ne_some]
      intro b other
      have there := ((c.arrival?_eq_some_iff nodes true n link b).1 other).1
      exact same (there.symm.trans here)
    simp only [absent, same, ↓reduceIte]

/-- A link that does not come from an internal node, or leads nowhere, changes no node. -/
theorem Catalog.inlines_of_idle (c : Catalog) (nodes : List Node) (f : Node → Node)
    (kept : ∀ n, (f n).bare = n.bare) (distinct : (nodes.map Node.id).Nodup) (link : Link)
    (idle : ∀ s t, Node.last? link.source nodes = some s → Node.last? link.target nodes = some t →
      s.internal ≠ true) :
    c.Inlines nodes link ∧ nodes.map f = c.inlineStep nodes (nodes.map f) link := by
  constructor
  · intro s t source target internal
    exact absurd internal (idle s t source target)
  · refine (c.inlineStep_of_idle nodes f kept link ?_).symm
    intro n inside a arrived
    obtain ⟨here, source, internal, -⟩ := (c.arrival?_eq_some_iff nodes true n link a).1 arrived
    have target := (Node.last?_eq_some_iff link.target nodes distinct n).2 ⟨inside, here.symm⟩
    exact idle a.source n source target internal

theorem inlineLink_eq_ok_iff (c : Catalog) (nodes current : List Node) (link : Link)
    (distinct : (nodes.map Node.id).Nodup) (same : SameButInputs nodes current)
    (after : List Node) :
    inlineLink c current link = .ok after ↔
      c.Inlines nodes link ∧ after = c.inlineStep nodes current link := by
  obtain ⟨f, kept, rfl⟩ := same
  have ids : ∀ n, (f n).id = n.id := fun n => Node.id_of_bare (kept n).1
  have unchanged : (∀ s t, Node.last? link.source nodes = some s →
      Node.last? link.target nodes = some t → s.internal ≠ true) →
      ((.ok (nodes.map f) : Except CompileError (List Node)) = .ok after ↔
        c.Inlines nodes link ∧ after = c.inlineStep nodes (nodes.map f) link) := by
    intro idle
    obtain ⟨able, stays⟩ := c.inlines_of_idle nodes f (fun n => (kept n).1) distinct link idle
    rw [← stays, and_iff_right able, Except.ok.injEq, eq_comm]
  rw [inlineLink, Node.last?_map f ids, Node.last?_map f ids]
  cases source : Node.last? link.source nodes with
  | none =>
    apply unchanged
    intro s t found
    rw [source] at found
    cases found
  | some s =>
    cases target : Node.last? link.target nodes with
    | none =>
      apply unchanged
      intro s t _ found
      rw [target] at found
      cases found
    | some t =>
      obtain ⟨member, here⟩ := Node.mem_of_last? link.target nodes t target
      simp only [Option.map_some, Node.internal_of_bare (kept s).1,
        c.linkPorts_congr link (kept s).1 (kept t).1]
      by_cases internal : s.internal = true
      · have able : c.Inlines nodes link ↔
            link.hasNumerals = true ∧ ∃ ports, c.linkPorts link s t = .ok ports := by
          constructor
          · exact fun able => able s t source target internal
          · intro good s' t' source' target' _
            cases source.symm.trans source'
            cases target.symm.trans target'
            exact good
        rw [if_pos internal, able]
        cases ports : c.linkPorts link s t with
        | error e =>
          constructor
          · intro made
            cases made
          · rintro ⟨⟨-, _, other⟩, -⟩
            cases other
        | ok found =>
          obtain ⟨outlet, inlet⟩ := found
          have arrived : c.arrival? nodes true t link = some ⟨s, outlet, inlet⟩ :=
            (c.arrival?_eq_some_iff nodes true t link _).2 ⟨here.symm, source, internal, ports⟩
          rw [c.inlineStep_of_arrival nodes distinct f kept link t _ member arrived, ok_bind]
          cases link.hasNumerals with
          | false => simp
          | true =>
            rw [if_pos rfl, Except.ok.injEq, eq_comm]
            exact (and_iff_right ⟨rfl, _, rfl⟩).symm
      · rw [if_neg internal]
        apply unchanged
        intro s' t' source' _
        cases source.symm.trans source'
        exact internal

theorem foldl_inlineStep (c : Catalog) (nodes : List Node) (links : List Link) (f : Node → Node)
    (kept : ∀ n, (f n).bare = n.bare) :
    links.foldl (c.inlineStep nodes) (nodes.map f) =
      nodes.map fun n => (c.arrivals nodes links true n).foldl Node.absorb (f n) := by
  induction links generalizing f with
  | nil => rfl
  | cons link rest ih =>
    let g (n : Node) : Node :=
      match c.arrival? nodes true n link with
      | some a => (f n).absorb a
      | none => f n
    have first : c.inlineStep nodes (nodes.map f) link = nodes.map g := by
      rw [Catalog.inlineStep, List.map_map]
      apply List.map_congr_left
      intro n _
      simp only [Function.comp_apply, c.arrival?_congr nodes true (kept n) link, g]
    have kept' : ∀ n, (g n).bare = n.bare := by
      intro n
      dsimp only [g]
      cases c.arrival? nodes true n link <;> exact kept n
    rw [List.foldl_cons, first, ih g kept']
    apply List.map_congr_left
    intro n _
    simp only [Catalog.arrivals, List.filterMap_cons, g]
    cases c.arrival? nodes true n link <;> rfl

/-- The pass succeeds when the indices of all links from internal nodes are in range, and then
every node has taken in what its links bring. -/
theorem inlineValues_eq_ok_iff (c : Catalog) (nodes : List Node) (links : List Link)
    (distinct : (nodes.map Node.id).Nodup) (nodes' : List Node) :
    inlineValues c links nodes = .ok nodes' ↔
      (∀ link ∈ links, c.Inlines nodes link) ∧ nodes' = nodes.map (c.inline nodes links) := by
  have start : SameButInputs nodes nodes := ⟨id, fun _ => ⟨rfl, rfl⟩, (List.map_id nodes).symm⟩
  have result := foldl_inlineStep c nodes links id fun _ => rfl
  rw [List.map_id] at result
  rw [inlineValues, unifyNodes_of_nodup nodes distinct,
    foldlM_eq_ok_iff _ (c.inlineStep nodes) (c.Inlines nodes) (SameButInputs nodes) _ _ links nodes
      nodes' start, result]
  · rfl
  · intro current link same
    exact same.inlineStep c link
  · intro current link after same
    exact inlineLink_eq_ok_iff c nodes current link distinct same after

namespace Catalog

variable (c : Catalog) (order : List Int)

/-- A node with its placeholders, before values are inlined. -/
def placed (n : Node) : Node := c.fill order n.provision

/-- A node as the settings passes leave it. -/
def settled (g : Graph) (n : Node) : Node :=
  c.inline (g.nodes.map (c.placed order)) g.links (c.placed order n)

theorem placed_bare (n : Node) : (c.placed order n).bare = n.bare := by
  rw [placed, fill_bare]
  rfl

theorem settled_bare (g : Graph) (n : Node) : (c.settled order g n).bare = n.bare := by
  rw [settled, inline, foldl_absorb_bare, placed_bare]

theorem input_placed (n : Node) (port : String) :
    (c.placed order n).input port = n.input port := by
  rw [Node.input, placed, inputs_fill]
  rfl

theorem output_settled (g : Graph) (n : Node) (port : String) :
    (c.settled order g n).output port = (c.placed order n).output port := by
  rw [Node.output, settled, inline, outputs_foldl_absorb, Node.output]

theorem output_placed (n : Node) (ports : PortOrder) (port : String) (ordered : n.id ∈ order)
    (found : c.portsOf n = .ok ports) (listed : port ∈ ports.outputs.map Binding.name) :
    (c.placed order n).output port = c.outputValue n port :=
  c.output_fill order n.provision ports port ordered found listed

/-- An input holds what the last link from an internal node brings, or its own value. -/
theorem input_settled (g : Graph) (n : Node) (port : String) :
    (c.settled order g n).input port =
      match c.lastArrival? g.nodes g.links true n port with
      | some a => (c.placed order a.source).output a.outlet
      | none => n.input port := by
  rw [settled, inline, c.arrivals_map (c.placed order) (c.placed_bare order), input_foldl_absorb,
    lastArrival?, List.filter_map, List.getLast?_map, input_placed]
  simp only [Function.comp_def]
  cases ((c.arrivals g.nodes g.links true n).filter fun a => a.inlet = port).getLast? <;> rfl

/-- The effective value of an input: what the last link from an internal node into it brings, or
its own. -/
def inputValue (g : Graph) (n : Node) (port : String) : Value :=
  match c.lastArrival? g.nodes g.links true n port with
  | some a => c.outputValue a.source a.outlet
  | none => n.input port

theorem exists_link_of_mem_arrivals (nodes : List Node) (links : List Link) (fromInternal : Bool)
    (n : Node) (a : Arrival) (arrived : a ∈ c.arrivals nodes links fromInternal n) :
    ∃ link ∈ links, link.target = n.id ∧ link.source = a.source.id ∧ a.source ∈ nodes ∧
      a.source.internal = fromInternal ∧
      c.linkPorts link a.source n = .ok (a.outlet, a.inlet) := by
  obtain ⟨link, member, brings⟩ := List.mem_filterMap.1 arrived
  obtain ⟨here, found, kind, ports⟩ := (c.arrival?_eq_some_iff _ _ _ _ _).1 brings
  obtain ⟨inside, id⟩ := Node.mem_of_last? link.source nodes a.source found
  exact ⟨link, member, here, id.symm, inside, kind, ports⟩

end Catalog

theorem Catalog.inlines_map (c : Catalog) (f : Node → Node) (same : ∀ n, (f n).bare = n.bare)
    (nodes : List Node) (link : Link) : c.Inlines (nodes.map f) link ↔ c.Inlines nodes link := by
  have ids : ∀ n, (f n).id = n.id := fun n => Node.id_of_bare (same n)
  simp only [Inlines, Node.last?_map f ids, Option.map_eq_some_iff]
  constructor
  · intro able s t source target internal
    obtain ⟨noted, ports, joined⟩ := able (f s) (f t) ⟨s, source, rfl⟩ ⟨t, target, rfl⟩
      ((Node.internal_of_bare (same s)).trans internal)
    exact ⟨noted, ports, (c.linkPorts_congr link (same s) (same t)).symm.trans joined⟩
  · rintro able - - ⟨s, source, rfl⟩ ⟨t, target, rfl⟩ internal
    obtain ⟨noted, ports, joined⟩ := able s t source target
      ((Node.internal_of_bare (same s)).symm.trans internal)
    exact ⟨noted, ports, (c.linkPorts_congr link (same s) (same t)).trans joined⟩

/-- The passes succeed when the nodes in the order have plugins and step ids and when the links
from internal nodes, also those outside the order, have their indices in range. -/
theorem fillSettings_eq_ok_iff (c : Catalog) (order : List Int) (g : Graph)
    (distinct : g.ids.Nodup) (filled : List Node) :
    fillSettings c order g.links g.nodes = .ok filled ↔
      ((∀ n ∈ g.nodes, n.id ∈ order →
        (∃ ports, c.portsOf n = .ok ports) ∧ ∃ id, c.stepId n = .ok id) ∧
        ∀ link ∈ g.links, c.Inlines g.nodes link) ∧
      filled = g.nodes.map (c.settled order g) := by
  have placed : (g.nodes.map Node.provision).map (c.fill order) =
      g.nodes.map (c.placed order) := List.map_map
  have distinct' : ((g.nodes.map (c.placed order)).map Node.id).Nodup := by
    rw [Node.map_id_map _ (c.placed_bare order)]
    exact distinct
  have settled : (g.nodes.map (c.placed order)).map
      (c.inline (g.nodes.map (c.placed order)) g.links) = g.nodes.map (c.settled order g) :=
    List.map_map
  rw [fillSettings, bind_eq_ok]
  simp only [fillPlaceholders_eq_ok_iff, List.forall_mem_map, placed]
  constructor
  · intro given
    obtain ⟨_, ⟨able, rfl⟩, rest⟩ := given
    rw [inlineValues_eq_ok_iff c _ _ distinct', settled] at rest
    refine ⟨⟨able, ?_⟩, rest.2⟩
    intro link member
    exact (c.inlines_map _ (c.placed_bare order) g.nodes link).1 (rest.1 link member)
  · intro given
    obtain ⟨⟨able, inlines⟩, rfl⟩ := given
    refine ⟨_, ⟨able, rfl⟩, ?_⟩
    rw [inlineValues_eq_ok_iff c _ _ distinct', settled]
    refine ⟨?_, rfl⟩
    intro link member
    exact (c.inlines_map _ (c.placed_bare order) g.nodes link).2 (inlines link member)

end PipelineCompiler
