import PipelineCompiler.Filling
import PipelineCompiler.Proofs.Catalog

set_option autoImplicit false

namespace PipelineCompiler

/-- The outputs of a node with a placeholder wherever one is due. -/
def Catalog.filledOutputs (c : Catalog) (n : Node) : OrderedMap String Value :=
  match c.portsOf n with
  | .ok ports => ports.outputs.foldl (fillOutput ports (c.stepName n)) n.outputs
  | .error _ => n.outputs

def Catalog.fill (c : Catalog) (order : List Int) (n : Node) : Node :=
  if order.contains n.id then n.withSettings n.inputs (c.filledOutputs n) else n

/-- The effective value of an output: its own, or the placeholder if it has none and the user
interface does not show it. -/
def Catalog.outputValue (c : Catalog) (n : Node) (port : String) : Value :=
  if hasValue (n.output port) then n.output port
  else
    match c.portsOf n with
    | .ok ports =>
      if ports.exposes (Direction.outputs.key port) then n.output port
      else .str (placeholder (c.stepName n) port)
    | .error _ => n.output port

theorem hasValue_placeholder (stepId output : String) :
    hasValue (.str (placeholder stepId output)) = true := by
  have dash : '-' ∈ (placeholder stepId output).toList := by
    simp [placeholder, String.toList_append]
  have full : placeholder stepId output ≠ "" := by
    intro empty
    rw [empty] at dash
    cases dash
  simp [hasValue, full]

/-- A placeholder is due at a port that has no value and is not shown. -/
def isDue (ports : PortOrder) (outputs : OrderedMap String Value) (port : String) : Bool :=
  !ports.exposes (Direction.outputs.key port) && !hasValue ((outputs.get? port).getD .null)

theorem fillOutput_eq (ports : PortOrder) (stepId : String) (outputs : OrderedMap String Value)
    (b : Binding) :
    fillOutput ports stepId outputs b =
      if isDue ports outputs b.name then
        outputs.insert b.name (.str (placeholder stepId b.name))
      else outputs := by
  rw [fillOutput, isDue]
  cases ports.exposes (Direction.outputs.key b.name) with
  | true => rfl
  | false => cases hasValue ((outputs.get? b.name).getD .null) <;> rfl

theorem get?_fillOutput (ports : PortOrder) (stepId : String) (outputs : OrderedMap String Value)
    (b : Binding) (port : String) :
    (fillOutput ports stepId outputs b).get? port =
      if b.name = port ∧ isDue ports outputs port then some (.str (placeholder stepId port))
      else outputs.get? port := by
  rw [fillOutput_eq]
  by_cases here : b.name = port
  · subst here
    by_cases due : isDue ports outputs b.name = true <;> simp [due]
  · have other : ¬ (b.name = port ∧ isDue ports outputs port = true) := fun h => here h.1
    rw [if_neg other]
    by_cases due : isDue ports outputs b.name = true
    · rw [if_pos due, OrderedMap.get?_insert_of_ne _ _ _ _ (Ne.symm here)]
    · rw [if_neg due]

/-- Once filled, a port is not due again. -/
theorem isDue_fillOutput (ports : PortOrder) (stepId : String) (outputs : OrderedMap String Value)
    (b : Binding) (port : String) :
    isDue ports (fillOutput ports stepId outputs b) port =
      (isDue ports outputs port && b.name ≠ port) := by
  rw [isDue, get?_fillOutput]
  by_cases filled : b.name = port ∧ isDue ports outputs port = true
  · rw [if_pos filled, Option.getD_some, hasValue_placeholder]
    simp [filled.1]
  · rw [if_neg filled, ← isDue]
    by_cases here : b.name = port
    · have done : isDue ports outputs port = false := by simpa [here] using filled
      simp [done]
    · simp [here]

/-- The pass writes a placeholder to each listed port where one is due, and nothing else. -/
theorem get?_foldl_fillOutput (ports : PortOrder) (stepId : String) (bindings : List Binding)
    (outputs : OrderedMap String Value) (port : String) :
    (bindings.foldl (fillOutput ports stepId) outputs).get? port =
      if port ∈ bindings.map Binding.name ∧ isDue ports outputs port then
        some (.str (placeholder stepId port))
      else outputs.get? port := by
  induction bindings generalizing outputs with
  | nil => simp
  | cons b rest ih =>
    rw [List.foldl_cons, ih, isDue_fillOutput, get?_fillOutput]
    by_cases due : isDue ports outputs port = true
    · by_cases here : b.name = port
      · simp [due, here]
      · simp [due, here, Ne.symm here]
    · simp [due]

/-- The pass has nothing to do where nothing is due. -/
theorem foldl_fillOutput_of_filled (ports : PortOrder) (stepId : String) (bindings : List Binding)
    (outputs : OrderedMap String Value)
    (filled : ∀ b ∈ bindings, isDue ports outputs b.name = false) :
    bindings.foldl (fillOutput ports stepId) outputs = outputs := by
  induction bindings with
  | nil => rfl
  | cons b rest ih =>
    rw [List.forall_mem_cons] at filled
    have same : fillOutput ports stepId outputs b = outputs := by
      rw [fillOutput_eq, filled.1]
      rfl
    rw [List.foldl_cons, same, ih filled.2]

/-- The pass leaves its own result as it is. -/
theorem foldl_fillOutput_idem (ports : PortOrder) (stepId : String) (bindings : List Binding)
    (outputs : OrderedMap String Value) :
    bindings.foldl (fillOutput ports stepId) (bindings.foldl (fillOutput ports stepId) outputs) =
      bindings.foldl (fillOutput ports stepId) outputs := by
  apply foldl_fillOutput_of_filled
  intro b member
  have listed : b.name ∈ bindings.map Binding.name := List.mem_map_of_mem member
  rw [isDue, get?_foldl_fillOutput]
  by_cases due : isDue ports outputs b.name = true
  · rw [if_pos ⟨listed, due⟩, Option.getD_some, hasValue_placeholder]
    simp
  · rw [if_neg fun h => due h.2, ← isDue]
    simpa using due

theorem Catalog.fill_bare (c : Catalog) (order : List Int) (n : Node) :
    (c.fill order n).bare = n.bare := by
  rw [fill]
  split <;> rfl

theorem Catalog.inputs_fill (c : Catalog) (order : List Int) (n : Node) :
    (c.fill order n).inputs = n.inputs := by
  rw [fill]
  split <;> rfl

/-- The placeholders of a node that has them already. -/
theorem Catalog.filledOutputs_of_filled (c : Catalog) {m n : Node} (bare : m.bare = n.bare)
    (outputs : m.outputs = c.filledOutputs n) : c.filledOutputs m = m.outputs := by
  rw [filledOutputs] at outputs
  rw [filledOutputs, c.portsOf_congr bare, c.stepName_congr bare]
  cases found : c.portsOf n with
  | error e => rfl
  | ok ports =>
    rw [found] at outputs
    simp only [outputs, foldl_fillOutput_idem]

theorem Catalog.fill_fill (c : Catalog) (order : List Int) (n : Node) :
    c.fill order (c.fill order n) = c.fill order n := by
  by_cases ordered : order.contains n.id = true
  · have filled : c.fill order n = n.withSettings n.inputs (c.filledOutputs n) := if_pos ordered
    have settled := c.filledOutputs_of_filled (m := c.fill order n) (c.fill_bare order n)
      (by rw [filled, Node.outputs_withSettings])
    have again : order.contains (c.fill order n).id = true := by
      rw [Node.id_of_bare (c.fill_bare order n)]
      exact ordered
    rw [fill, if_pos again, settled, filled]
    rfl
  · have same : c.fill order n = n := if_neg ordered
    rw [same, same]

/-- The pass gives a port of a node its placeholder. -/
def Catalog.Fills (c : Catalog) (order : List Int) (n : Node) (port : String) : Prop :=
  n.id ∈ order ∧ ∃ ports, c.portsOf n = .ok ports ∧ port ∈ ports.outputs.map Binding.name ∧
    ports.exposes (Direction.outputs.key port) = false ∧ hasValue (n.output port) = false

open scoped Classical in
/-- What an output holds after the pass. -/
theorem Catalog.output_fill_eq (c : Catalog) (order : List Int) (n : Node) (port : String) :
    (c.fill order n).output port =
      if c.Fills order n port then .str (placeholder (c.stepName n) port) else n.output port := by
  by_cases ordered : n.id ∈ order
  · rw [Node.output, fill, if_pos (List.contains_iff_mem.2 ordered), Node.outputs_withSettings,
      filledOutputs]
    cases found : c.portsOf n with
    | error e => simp [Fills, found, Node.output]
    | ok ports =>
      have due : (port ∈ ports.outputs.map Binding.name ∧ isDue ports n.outputs port = true) ↔
          c.Fills order n port := by
        simp [Fills, found, ordered, isDue, Node.output]
      simp only [get?_foldl_fillOutput, due]
      split <;> rfl
  · have out : ¬ order.contains n.id = true := fun h => ordered (List.contains_iff_mem.1 h)
    rw [fill, if_neg out, if_neg fun h : c.Fills order n port => ordered h.1]

/-- At a port that its plugin shows, a node in the order holds the effective value. -/
theorem Catalog.output_fill (c : Catalog) (order : List Int) (n : Node) (ports : PortOrder)
    (port : String) (ordered : n.id ∈ order) (found : c.portsOf n = .ok ports)
    (listed : port ∈ ports.outputs.map Binding.name) :
    (c.fill order n).output port = c.outputValue n port := by
  have fills : c.Fills order n port ↔ ports.exposes (Direction.outputs.key port) = false ∧
      hasValue (n.output port) = false := by
    simp only [Fills, ordered, found, Except.ok.injEq, exists_eq_left', listed, true_and]
  rw [output_fill_eq, outputValue, found]
  by_cases valued : hasValue (n.output port) = true
  · simp [fills, valued]
  · by_cases shown : ports.exposes (Direction.outputs.key port) = true <;>
      simp [fills, valued, shown]

theorem Catalog.fillOutputs_eq_ok_iff (c : Catalog) (n m : Node) :
    n.fillOutputs c = .ok m ↔
      ((∃ ports, c.portsOf n = .ok ports) ∧ ∃ id, c.stepId n = .ok id) ∧
        m = n.withSettings n.inputs (c.filledOutputs n) := by
  rw [Node.fillOutputs, bind_eq_ok]
  constructor
  · intro given
    obtain ⟨ports, found, rest⟩ := given
    obtain ⟨id, named, rest⟩ := (bind_eq_ok _ _ _).1 rest
    cases rest
    refine ⟨⟨⟨ports, found⟩, id, named⟩, ?_⟩
    rw [filledOutputs, found, ← c.eq_stepName n id named]
  · intro given
    obtain ⟨⟨⟨ports, found⟩, id, named⟩, rfl⟩ := given
    refine ⟨ports, found, (bind_eq_ok _ _ _).2 ⟨id, named, ?_⟩⟩
    rw [filledOutputs, found, ← c.eq_stepName n id named]

/-- The pass succeeds when every node in the order has a plugin and a step id. -/
theorem fillPlaceholders_eq_ok_iff (c : Catalog) (order : List Int) (nodes nodes' : List Node) :
    fillPlaceholders c order nodes = .ok nodes' ↔
      (∀ n ∈ nodes, n.id ∈ order →
        (∃ ports, c.portsOf n = .ok ports) ∧ ∃ id, c.stepId n = .ok id) ∧
        nodes' = nodes.map (c.fill order) := by
  induction nodes generalizing nodes' with
  | nil =>
    constructor
    · intro made
      cases made
      exact ⟨by simp, rfl⟩
    · intro given
      obtain ⟨-, rfl⟩ := given
      rfl
  | cons n rest ih =>
    rw [fillPlaceholders, List.forall_mem_cons, List.map_cons]
    by_cases ordered : n.id ∈ order
    · simp only [List.contains_iff_mem.2 ordered, ↓reduceIte, bind_eq_ok, c.fillOutputs_eq_ok_iff,
        ih, Catalog.fill]
      constructor
      · intro given
        obtain ⟨m, ⟨able, rfl⟩, others, ⟨all, rfl⟩, last⟩ := given
        cases last
        exact ⟨⟨fun _ => able, all⟩, rfl⟩
      · intro given
        obtain ⟨⟨able, all⟩, rfl⟩ := given
        exact ⟨_, ⟨able ordered, rfl⟩, _, ⟨all, rfl⟩, rfl⟩
    · have outside : ¬ order.contains n.id = true := fun h => ordered (List.contains_iff_mem.1 h)
      have same : c.fill order n = n := by rw [Catalog.fill, if_neg outside]
      rw [if_neg outside, same]
      change (fillPlaceholders c order rest >>= fun rest => .ok (n :: rest)) = .ok nodes' ↔ _
      simp only [bind_eq_ok, ih]
      constructor
      · intro given
        obtain ⟨others, ⟨all, rfl⟩, last⟩ := given
        cases last
        exact ⟨⟨fun h => absurd h ordered, all⟩, rfl⟩
      · intro given
        obtain ⟨⟨-, all⟩, rfl⟩ := given
        exact ⟨_, ⟨all, rfl⟩, rfl⟩

/-- Filling in the outputs of a node fails where its plugin is looked up, or else at its name. -/
theorem Catalog.fillOutputs_eq_error_iff (c : Catalog) (n : Node) (e : CompileError) :
    n.fillOutputs c = .error e ↔
      c.portsOf n = .error e ∨ (∃ ports, c.portsOf n = .ok ports) ∧ c.stepId n = .error e := by
  rw [Node.fillOutputs, bind_eq_error]
  constructor
  · rintro (unknown | ⟨ports, found, failed⟩)
    · exact .inl unknown
    · rcases (bind_eq_error _ _ _).1 failed with unnamed | ⟨id, -, made⟩
      · exact .inr ⟨⟨ports, found⟩, unnamed⟩
      · cases made
  · rintro (unknown | ⟨⟨ports, found⟩, unnamed⟩)
    · exact .inl unknown
    · exact .inr ⟨ports, found, (bind_eq_error _ _ _).2 (.inl unnamed)⟩

theorem fillPlaceholders_cons_eq_error_iff (c : Catalog) (order : List Int) (n : Node)
    (rest : List Node) (e : CompileError) :
    fillPlaceholders c order (n :: rest) = .error e ↔
      (n.id ∈ order ∧ n.fillOutputs c = .error e) ∨
        ((n.id ∈ order → ∃ m, n.fillOutputs c = .ok m) ∧
          fillPlaceholders c order rest = .error e) := by
  have behind : ∀ m, (fillPlaceholders c order rest >>= fun rest => .ok (m :: rest)) = .error e ↔
      fillPlaceholders c order rest = .error e := by
    intro m
    simp [bind_eq_error]
  rw [fillPlaceholders]
  by_cases ordered : n.id ∈ order
  · simp only [List.contains_iff_mem, ordered, ↓reduceIte, bind_eq_error, behind, true_and,
      forall_const, exists_and_right]
  · simp only [List.contains_iff_mem, ordered, ↓reduceIte, false_and, false_implies, true_and,
      false_or]
    exact behind n

/-- The pass fails at the first node of the order that cannot be filled in. -/
theorem fillPlaceholders_eq_error_iff (c : Catalog) (order : List Int) (nodes : List Node)
    (e : CompileError) :
    fillPlaceholders c order nodes = .error e ↔
      ∃ before n after, nodes = before ++ n :: after ∧ n.id ∈ order ∧
        n.fillOutputs c = .error e ∧
        ∀ m ∈ before, m.id ∈ order → ∃ filled, m.fillOutputs c = .ok filled := by
  induction nodes with
  | nil => simp [fillPlaceholders]
  | cons first rest ih =>
    rw [fillPlaceholders_cons_eq_error_iff, ih]
    constructor
    · rintro (⟨ordered, fails⟩ | ⟨passes, before, n, after, rfl, later⟩)
      · exact ⟨[], first, rest, rfl, ordered, fails, by simp⟩
      · obtain ⟨ordered, fails, others⟩ := later
        exact ⟨first :: before, n, after, rfl, ordered, fails,
          List.forall_mem_cons.2 ⟨passes, others⟩⟩
    · rintro ⟨before, n, after, cut, ordered, fails, others⟩
      cases before with
      | nil =>
        cases cut
        exact .inl ⟨ordered, fails⟩
      | cons m before =>
        cases cut
        obtain ⟨passes, others⟩ := List.forall_mem_cons.1 others
        exact .inr ⟨passes, before, n, after, rfl, ordered, fails, others⟩

end PipelineCompiler
