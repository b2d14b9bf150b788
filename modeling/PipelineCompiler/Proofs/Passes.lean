import PipelineCompiler.Proofs.LargeIds

set_option autoImplicit false

namespace PipelineCompiler

namespace Catalog

variable (c : Catalog)

/-- A link takes the value at an outlet of an internal node to an input of a node. -/
structure Carries (nodes : List Node) (link : Link) (source : Node) (outlet : String)
    (target : Node) (inlet : String) : Prop where
  listed : source ∈ nodes
  internal : source.internal = true
  leaves : link.source = source.id
  arrives : link.target = target.id
  ends : c.linkPorts link source target = .ok (outlet, inlet)

/-- A link takes some value to an input. -/
def Reaches (nodes : List Node) (target : Node) (inlet : String) (link : Link) : Prop :=
  ∃ source outlet, c.Carries nodes link source outlet target inlet

/-- What an input holds after inlining: what the last link that reaches it takes there, as its
source held it before, or what it held itself. -/
inductive Receives (nodes : List Node) (links : List Link) (target : Node) (inlet : String) :
    Option Value → Prop
  | moved (before : List Link) (link : Link) (after : List Link) (source : Node) (outlet : String)
      (split : links = before ++ link :: after)
      (carries : c.Carries nodes link source outlet target inlet)
      (last : ∀ later ∈ after, ¬ c.Reaches nodes target inlet later) :
      Receives nodes links target inlet (some (source.output outlet))
  | kept (unreached : ∀ link ∈ links, ¬ c.Reaches nodes target inlet link) :
      Receives nodes links target inlet (target.inputs.get? inlet)

section Receives

variable {nodes : List Node} (distinct : (nodes.map Node.id).Nodup) (links : List Link)
  (target : Node) (inlet : String)
include distinct

theorem arrival?_eq_some_iff_carries (link : Link) (a : Arrival) :
    c.arrival? nodes true target link = some a ↔
      c.Carries nodes link a.source a.outlet target a.inlet := by
  rw [arrival?_eq_some_iff, Node.last?_eq_some_iff _ _ distinct]
  constructor
  · rintro ⟨arrives, ⟨listed, leaves⟩, internal, ends⟩
    exact ⟨listed, internal, leaves.symm, arrives, ends⟩
  · intro carries
    exact ⟨carries.arrives, ⟨carries.listed, carries.leaves.symm⟩, carries.internal, carries.ends⟩

theorem not_reaches_iff (link : Link) :
    ¬ c.Reaches nodes target inlet link ↔
      (c.arrival? nodes true target link).filter (fun a => a.inlet = inlet) = none := by
  rw [Option.filter_eq_none_iff]
  simp only [c.arrival?_eq_some_iff_carries distinct, decide_eq_true_eq, Reaches]
  constructor
  · rintro unreached a carries rfl
    exact unreached ⟨_, _, carries⟩
  · rintro silent ⟨source, outlet, carries⟩
    exact silent ⟨source, outlet, inlet⟩ carries rfl

theorem receives_inline :
    c.Receives nodes links target inlet ((c.inline nodes links target).inputs.get? inlet) := by
  have value := get?_inputs_foldl_absorb (c.arrivals nodes links true target) target inlet
  rw [arrivals, List.filter_filterMap, List.getLast?_filterMap] at value
  rw [inline, arrivals, value]
  -- The last arrival is the first when the links are read backwards.
  cases found : links.reverse.findSome? fun link =>
      (c.arrival? nodes true target link).filter fun a => a.inlet = inlet with
  | none =>
    apply Receives.kept
    intro link member
    rw [c.not_reaches_iff distinct]
    exact List.findSome?_eq_none_iff.1 found link (List.mem_reverse.2 member)
  | some a =>
    obtain ⟨after, link, before, split, arrived, silent⟩ := List.findSome?_eq_some_iff.1 found
    obtain ⟨arrived, here⟩ := Option.filter_eq_some_iff.1 arrived
    have carries := (c.arrival?_eq_some_iff_carries distinct target link a).1 arrived
    rw [of_decide_eq_true here] at carries
    refine .moved before.reverse link after.reverse a.source a.outlet ?_ carries ?_
    · have whole := congrArg List.reverse split
      simpa using whole
    · intro later member
      rw [c.not_reaches_iff distinct]
      exact silent later (List.mem_reverse.1 member)

end Receives

end Catalog

/-- Inlining succeeds when the links from internal nodes to nodes have their indices in range. It
keeps the nodes in their places, and of each all but its inputs; and each input holds what the last
link that reaches it takes there from the nodes as they were. -/
theorem inlineValues_moves_last_values (c : Catalog) (links : List Link) (nodes : List Node)
    (distinct : (nodes.map Node.id).Nodup) :
    ((∃ nodes', inlineValues c links nodes = .ok nodes') ↔
      ∀ link ∈ links, c.Inlines nodes link) ∧
    ∀ nodes', inlineValues c links nodes = .ok nodes' →
      List.Forall₂ (fun n m =>
        (m.id = n.id ∧ m.pluginId = n.pluginId ∧ m.name = n.name ∧ m.internal = n.internal) ∧
        m.outputs = n.outputs ∧
        ∀ inlet, c.Receives nodes links n inlet (m.inputs.get? inlet)) nodes nodes' := by
  simp only [inlineValues_eq_ok_iff c nodes links distinct]
  constructor
  · simp
  · rintro nodes' ⟨-, rfl⟩
    rw [List.forall₂_map_right_iff, List.forall₂_same]
    intro n member
    refine ⟨?_, outputs_foldl_absorb _ n, fun inlet => c.receives_inline distinct links n inlet⟩
    rw [← Node.bare_eq_iff]
    exact foldl_absorb_bare _ n

def chainedStep : Node := ⟨3, "relay", "Step", false, none⟩

/-- A chain of two internal nodes, both linked into the same port of a step. -/
def chainedGraph : Graph :=
  { nodes := [chainedStep,
      ⟨1, "relay", "Near", true, some ⟨none, some ⟨[("result", .str "near")]⟩⟩⟩,
      ⟨2, "relay", "Far", true, some ⟨none, some ⟨[("result", .str "far")]⟩⟩⟩]
    links := [⟨2, 1, 0, 0⟩, ⟨2, 3, 0, 0⟩, ⟨1, 3, 0, 0⟩] }

theorem inlineValues_moves_last_values_chained :
    (chainedGraph.nodes.map Node.id).Nodup ∧
      ∃ nodes', inlineValues relayCatalog chainedGraph.links chainedGraph.nodes = .ok nodes' ∧
        nodes'.map (fun n => n.inputs.get? "data") =
          [some (.str "near"), some (.str "far"), none] ∧
        relayCatalog.Receives chainedGraph.nodes chainedGraph.links chainedStep "data"
          (some (.str "near")) := by
  have distinct : (chainedGraph.nodes.map Node.id).Nodup := by decide
  have made : (inlineValues relayCatalog chainedGraph.links chainedGraph.nodes).map
      (fun nodes' => nodes'.map fun n => n.inputs.get? "data") =
        .ok [some (.str "near"), some (.str "far"), none] := by decide +kernel
  obtain ⟨nodes', made, values⟩ := (map_eq_ok _ _ _).1 made
  obtain ⟨-, moves⟩ :=
    inlineValues_moves_last_values relayCatalog chainedGraph.links chainedGraph.nodes distinct
  obtain ⟨m, rest, ⟨-, -, received⟩, -, rfl⟩ := List.forall₂_cons_left_iff.1 (moves nodes' made)
  have near : m.inputs.get? "data" = some (.str "near") := (List.cons.inj values).1
  exact ⟨distinct, m :: rest, made, values, near ▸ received "data"⟩

/-- An output awaits its placeholder: its plugin lists it, no entry of the user interface shows it,
and it holds nothing or the empty text. -/
structure Node.Awaits (n : Node) (ports : PortOrder) (output : String) : Prop where
  listed : output ∈ ports.outputs.map Binding.name
  hidden : ∀ entry ∈ ports.ui, entry.key ≠ Direction.outputs.key output
  unset : n.outputs.get? output = none ∨ n.outputs.get? output = some .null ∨
    n.outputs.get? output = some (.str "")

/-- What a node of the order becomes, by the ports of its plugin and the id of its step. -/
structure Node.Filled (n : Node) (ports : PortOrder) (id : String) (m : Node) : Prop where
  same : m.id = n.id ∧ m.pluginId = n.pluginId ∧ m.name = n.name ∧ m.internal = n.internal
  inputs : m.inputs = n.inputs
  awaited : ∀ output, n.Awaits ports output →
    m.outputs.get? output = some (.str (id ++ "-" ++ output))
  kept : ∀ output, ¬ n.Awaits ports output → m.outputs.get? output = n.outputs.get? output

theorem hasValue_eq_false_iff (held : Option Value) :
    hasValue (held.getD .null) = false ↔
      held = none ∨ held = some .null ∨ held = some (.str "") := by
  cases held with
  | none => simp [hasValue]
  | some v => simp [hasValue, or_iff_not_imp_left]

theorem Node.awaits_iff (n : Node) (ports : PortOrder) (output : String) :
    n.Awaits ports output ↔
      output ∈ ports.outputs.map Binding.name ∧ isDue ports n.outputs output = true := by
  have hidden : ports.exposes (Direction.outputs.key output) = false ↔
      ∀ entry ∈ ports.ui, entry.key ≠ Direction.outputs.key output := by
    simp [PortOrder.exposes]
  rw [isDue, Bool.and_eq_true, Bool.not_eq_true', Bool.not_eq_true', hasValue_eq_false_iff, hidden]
  constructor
  · rintro ⟨listed, hidden, unset⟩
    exact ⟨listed, hidden, unset⟩
  · rintro ⟨listed, hidden, unset⟩
    exact ⟨listed, hidden, unset⟩

instance (n : Node) (ports : PortOrder) (output : String) : Decidable (n.Awaits ports output) :=
  decidable_of_iff _ (n.awaits_iff ports output).symm

namespace Catalog

variable (c : Catalog) (order : List Int)

theorem filled_fill (n : Node) (ordered : n.id ∈ order) (ports : PortOrder)
    (found : c.portsOf n = .ok ports) (id : String) (named : c.stepId n = .ok id) :
    n.Filled ports id (c.fill order n) := by
  have outputs : ∀ output, (c.fill order n).outputs.get? output =
      if n.Awaits ports output then some (.str (id ++ "-" ++ output))
      else n.outputs.get? output := by
    intro output
    rw [fill, if_pos (List.contains_iff_mem.2 ordered), Node.outputs_withSettings, filledOutputs,
      found, ← c.eq_stepName n id named]
    simp only [get?_foldl_fillOutput, n.awaits_iff]
    rfl
  constructor
  · exact (Node.bare_eq_iff _ _).1 (c.fill_bare order n)
  · exact c.inputs_fill order n
  · intro output awaits
    rw [outputs, if_pos awaits]
  · intro output rest
    rw [outputs, if_neg rest]

theorem fillPlaceholders_again (nodes nodes' : List Node)
    (made : fillPlaceholders c order nodes = .ok nodes') :
    fillPlaceholders c order nodes' = .ok nodes' := by
  obtain ⟨able, rfl⟩ := (fillPlaceholders_eq_ok_iff c order nodes nodes').1 made
  rw [fillPlaceholders_eq_ok_iff]
  constructor
  · intro m member ordered
    obtain ⟨n, inside, rfl⟩ := List.mem_map.1 member
    have same := c.fill_bare order n
    rw [Node.id_of_bare same] at ordered
    rw [c.portsOf_congr same, c.stepId_congr same]
    exact able n inside ordered
  · rw [List.map_map]
    apply List.map_congr_left
    intro n _
    exact (c.fill_fill order n).symm

/-- Why a node of the order cannot be filled in, if its id is no obstacle. -/
inductive Obstacle (n : Node) : CompileError → Prop
  | unknown (absent : ¬ c.Knows n) : Obstacle n (.pluginNotFound n.pluginId n.id)
  | unstable (listed : c.Knows n) (changes : ¬ c.Canonical n) :
      Obstacle n (.naming (.notCanonical (c.sanitize n.name)))

theorem fillOutputs_eq_error_iff_obstacle (n : Node) (fits : ¬ n.Oversized) (e : CompileError) :
    n.fillOutputs c = .error e ↔ c.Obstacle n e := by
  have written := hasNumeral_of_fitsInt n.id (n.not_oversized_iff.1 fits)
  rw [fillOutputs_eq_error_iff, exists_portsOf_iff, portsOf, map_eq_error, pluginOf_eq_error_iff,
    CompileError.showing_of_numeral written, stepId_eq_error_iff]
  constructor
  · rintro (⟨absent, rfl⟩ | ⟨listed, ⟨changes, rfl⟩ | ⟨-, large, -⟩⟩)
    · exact .unknown absent
    · exact .unstable listed changes
    · exact absurd large fits
  · rintro (absent | ⟨listed, changes⟩)
    · exact .inl ⟨absent, rfl⟩
    · exact .inr ⟨listed, .inl ⟨changes, rfl⟩⟩

end Catalog

/-- Filling in placeholders keeps the nodes in their places: those outside the order as they are,
and of the others all but the outputs that await a placeholder. Done again, it changes nothing. With
ids that have a floating number, it fails at the first node of the order that has an obstacle, and
only there. -/
theorem fillPlaceholders_fills_awaiting_outputs (c : Catalog) (order : List Int)
    (nodes : List Node) :
    (∀ nodes', fillPlaceholders c order nodes = .ok nodes' →
      List.Forall₂ (fun n m =>
        (n.id ∉ order → m = n) ∧
        (n.id ∈ order → ∃ ports id, c.portsOf n = .ok ports ∧ c.stepId n = .ok id ∧
          n.Filled ports id m)) nodes nodes' ∧
      fillPlaceholders c order nodes' = .ok nodes') ∧
    ((∀ n ∈ nodes, n.id ∈ order → ¬ n.Oversized) →
      ∀ e, fillPlaceholders c order nodes = .error e ↔
        ∃ before n after, nodes = before ++ n :: after ∧ n.id ∈ order ∧ c.Obstacle n e ∧
          ∀ m ∈ before, m.id ∈ order → c.Knows m ∧ c.Canonical m) := by
  constructor
  · intro nodes' made
    refine ⟨?_, c.fillPlaceholders_again order nodes nodes' made⟩
    obtain ⟨able, rfl⟩ := (fillPlaceholders_eq_ok_iff c order nodes nodes').1 made
    rw [List.forall₂_map_right_iff, List.forall₂_same]
    intro n member
    constructor
    · intro outside
      exact if_neg fun inside => outside (List.contains_iff_mem.1 inside)
    · intro ordered
      obtain ⟨⟨ports, found⟩, id, named⟩ := able n member ordered
      exact ⟨ports, id, found, named, c.filled_fill order n ordered ports found id named⟩
  · intro fits e
    rw [fillPlaceholders_eq_error_iff]
    refine exists₃_congr fun before n after => and_congr_right fun split =>
      and_congr_right fun ordered => ?_
    subst split
    have nameable : ∀ m ∈ before, m.id ∈ order →
        ((∃ filled, m.fillOutputs c = .ok filled) ↔ c.Knows m ∧ c.Canonical m) := by
      intro m member runs
      have small : ¬ m.Oversized := fits m (by simp [member]) runs
      rw [c.exists_fillOutputs_iff, Catalog.Nameable]
      simp only [small, not_false_eq_true, and_true]
    rw [c.fillOutputs_eq_error_iff_obstacle n (fits n (by simp) ordered)]
    exact and_congr_right fun _ => forall₃_congr nameable

theorem fillPlaceholders_fills_awaiting_outputs_relay :
    (∃ nodes', fillPlaceholders relayCatalog [2, 3] relayGraph.nodes = .ok nodes' ∧
      fillPlaceholders relayCatalog [2, 3] nodes' = .ok nodes' ∧
      nodes'.map (fun n => n.outputs.get? "result") =
        [none, some (.str "Second_2-result"), some (.str "fast")]) ∧
    (∀ n ∈ relayGraph.nodes, n.id ∈ [2, 3] → ¬ n.Oversized) ∧
    fillPlaceholders (.ofPlugins []) [2, 3] relayGraph.nodes =
      .error (.pluginNotFound "relay" 2) := by
  have made : (fillPlaceholders relayCatalog [2, 3] relayGraph.nodes).map
      (fun nodes' => nodes'.map fun n => n.outputs.get? "result") =
        .ok [none, some (.str "Second_2-result"), some (.str "fast")] := by decide +kernel
  obtain ⟨nodes', made, values⟩ := (map_eq_ok _ _ _).1 made
  obtain ⟨fills, -⟩ := fillPlaceholders_fills_awaiting_outputs relayCatalog [2, 3] relayGraph.nodes
  have finite : ∀ n ∈ relayGraph.nodes, Binary64.fitsInt n.id = true := by decide +kernel
  have small : ∀ n ∈ relayGraph.nodes, n.id ∈ [2, 3] → ¬ n.Oversized := fun n inside _ =>
    n.not_oversized_iff.2 (finite n inside)
  obtain ⟨-, fails⟩ :=
    fillPlaceholders_fills_awaiting_outputs (.ofPlugins []) [2, 3] relayGraph.nodes
  refine ⟨⟨nodes', made, (fills nodes' made).2, values⟩, small, (fails small _).2 ?_⟩
  refine ⟨[relaySender], relayReceiver, _, rfl, by decide, .unknown List.not_mem_nil, ?_⟩
  -- The first node has no plugin either, but no place in the order.
  have skipped : relaySender.id ∉ ([2, 3] : List Int) := by decide
  intro m member runs
  rw [List.mem_singleton.1 member] at runs
  exact absurd runs skipped

end PipelineCompiler
