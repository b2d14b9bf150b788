import PipelineCompiler.Proofs.JobKeys

set_option autoImplicit false

namespace PipelineCompiler

/-- The job inputs have the declared keys and classes, and every output of the workflow is declared
and comes from an output, of the same type, of one of its steps. -/
structure Workflow.Consistent (w : Workflow) : Prop where
  order : w.order = w.steps.keys
  keys : w.inputs.keys = w.jobInputs.keys
  classes : ∀ key type job, w.inputs.get? key = some type → w.jobInputs.get? key = some job →
    (type = .directory ↔ job.isDirectory = true)
  declared : ∀ key ∈ w.outputs.keys, key ∈ w.inputs.keys
  offered : ∀ key output, w.outputs.get? key = some output →
    ∃ id step port tool, w.steps.get? id = some step ∧ output.source = outputRef id port ∧
      port ∈ step.out ∧ step.run.outputs.get? port = some tool ∧ tool.type = output.type

/-- The tool of a step takes each output of the plugin as a required input, produces it, may write
to it, and the step binds and offers it. -/
structure Step.Serves (s : Step) (p : Plugin) : Prop where
  out : s.out = p.outputs.map Binding.name
  writable : s.run.writable = s.out.map fun port => s!"$(inputs.{port})"
  produced : ∀ port, port ∈ s.run.outputs.keys ↔ port ∈ s.out
  agreed : ∀ port ∈ s.out, ∃ input output, s.run.inputs.get? port = some input ∧
    s.run.outputs.get? port = some output ∧ input.optional = false ∧ input.type = output.type
  bound : ∀ port ∈ s.out, port ∈ s.sources.keys

theorem primitiveType_ne_directory (type : String) : Binding.primitiveType type ≠ .directory := by
  rw [Binding.primitiveType]
  split
  · simp
  · split
    · simp
    · split
      · simp
      · split <;> simp

theorem StepPort.type_eq_directory_iff (p : StepPort) :
    p.type = .directory ↔ p.binding.isDirectory = true := by
  rw [StepPort.type]
  cases p.direction with
  | inputs =>
    rw [Binding.inputType]
    by_cases directory : p.binding.isDirectory = true
    · simp [directory]
    · simp [directory, primitiveType_ne_directory]
  | outputs =>
    rw [Binding.outputType]
    by_cases directory : p.binding.isDirectory = true <;> simp [directory]

/-- Of the outputs with one name the last decides about what the tool produces. -/
theorem get?_toolOutputs (bindings : List Binding) (port : String) :
    (OrderedMap.ofList (bindings.map Binding.toolOutput)).get? port =
      (bindings.filter fun b => b.name = port).getLast?.map fun b => b.toolOutput.2 :=
  OrderedMap.get?_ofList_map Binding.name (fun b => b.toolOutput.2) bindings port

theorem exists_last_of_mem_names (bindings : List Binding) (port : String)
    (listed : port ∈ bindings.map Binding.name) :
    ∃ b, (bindings.filter fun b => b.name = port).getLast? = some b := by
  obtain ⟨b, member, rfl⟩ := List.mem_map.1 listed
  have filled : (bindings.filter fun d => d.name = b.name) ≠ [] :=
    List.ne_nil_of_mem (List.mem_filter.2 ⟨member, by simp⟩)
  exact ⟨_, List.getLast?_eq_some_getLast filled⟩

namespace Catalog

variable (c : Catalog)

/-- What a tool takes under the name of an output is the output, also where an input has that
name. -/
theorem agreed_of_declarations (inputs outputs : List Binding) (port : String)
    (listed : port ∈ outputs.map Binding.name) :
    ∃ input output,
      (OrderedMap.ofList (inputs.map Binding.inputDeclaration ++
        outputs.map Binding.outputDeclaration)).get? port = some input ∧
      (OrderedMap.ofList (outputs.map Binding.toolOutput)).get? port = some output ∧
      input.optional = false ∧ input.type = output.type := by
  obtain ⟨b, last⟩ := exists_last_of_mem_names outputs port listed
  have taken : OrderedMap.written port (outputs.map Binding.outputDeclaration) =
      (outputs.filter fun b => b.name = port).map fun b => b.outputDeclaration.2 :=
    OrderedMap.written_map Binding.name (fun b => b.outputDeclaration.2) port outputs
  refine ⟨b.outputDeclaration.2, b.toolOutput.2, ?_, ?_, rfl, rfl⟩
  · rw [OrderedMap.get?_ofList, OrderedMap.written_append, List.getLast?_append, taken,
      List.getLast?_map, last]
    rfl
  · rw [get?_toolOutputs, last]
    rfl

theorem serves_stepOf (version : String) (links : List Link) (nodes : List Node) (n : Node) :
    (c.stepOf version links nodes n).Serves (c.plugin n) where
  out := rfl
  writable := by
    rw [stepOf, List.map_map]
    rfl
  produced := by
    intro port
    rw [stepOf, OrderedMap.mem_keys_ofList, List.map_map]
    rfl
  agreed := by
    intro port listed
    exact agreed_of_declarations (c.plugin n).inputs (c.plugin n).outputs port listed
  bound := by
    intro port listed
    have binds := (c.mem_boundPorts_iff links nodes n port).2 (.inl listed)
    rw [stepOf, OrderedMap.mem_keys_ofList, List.map_append, List.mem_append, List.map_map]
    exact .inl binds

/-- What one more step adds to the outputs of a workflow is what its tool produces. -/
theorem offered_of_outputEntries (version : String) (links : List Link) (nodes : List Node)
    (n : Node) (key : String) (output : WorkflowOutput)
    (last : (OrderedMap.written key (c.outputEntries n)).getLast? = some output) :
    ∃ port tool, output.source = outputRef (c.stepName n) port ∧
      port ∈ (c.stepOf version links nodes n).out ∧
      (c.stepOf version links nodes n).run.outputs.get? port = some tool ∧
      tool.type = output.type := by
  have entries : OrderedMap.written key (c.outputEntries n) =
      ((c.plugin n).outputs.filter fun b => jobKey (c.stepName n) b.name = key).map
        fun b => (b.workflowOutput (c.stepName n)).2 :=
    OrderedMap.written_map (fun b : Binding => jobKey (c.stepName n) b.name)
      (fun b => (b.workflowOutput (c.stepName n)).2) key (c.plugin n).outputs
  rw [entries, List.getLast?_map, Option.map_eq_some_iff] at last
  obtain ⟨b, last, rfl⟩ := last
  obtain ⟨listed, written⟩ := List.mem_filter.1 (List.mem_of_getLast? last)
  have keyed : jobKey (c.stepName n) b.name = key := by simpa using written
  -- Within one step two ports share a key only if they share their name.
  have names : ((c.plugin n).outputs.filter fun d => d.name = b.name) =
      (c.plugin n).outputs.filter fun d => jobKey (c.stepName n) d.name = key := by
    apply List.filter_congr
    intro d _
    rw [← keyed, decide_eq_decide]
    exact ⟨fun same => same ▸ rfl, jobKey_left_injective (c.stepName n) d.name b.name⟩
  refine ⟨b.name, b.toolOutput.2, rfl, List.mem_map_of_mem listed, ?_, rfl⟩
  rw [stepOf, get?_toolOutputs, names, last]
  rfl

theorem mem_typeEntries_of_outputEntries (links : List Link) (nodes : List Node) (n : Node)
    (key : String) (listed : key ∈ (c.outputEntries n).map Prod.fst) :
    key ∈ (c.typeEntries links nodes n).map Prod.fst := by
  rw [outputEntries, List.map_map] at listed
  obtain ⟨b, declared, rfl⟩ := List.mem_map.1 listed
  have port : StepPort.mk n .outputs b ∈ c.stepPorts n :=
    (c.mem_stepPorts_iff n _).2 ⟨rfl, declared⟩
  have writer : StepPort.mk n .outputs b ∈ c.writers n := List.mem_filter.2 ⟨port, rfl⟩
  rw [typeEntries_eq, List.map_map, List.mem_map]
  exact ⟨StepPort.mk n .outputs b, writer, rfl⟩

/-- A workflow stays consistent when the step of one more node joins it. -/
theorem consistent_extend (links : List Link) (nodes : List Node) (w : Workflow) (n : Node)
    (consistent : w.Consistent) (fresh : c.stepName n ∉ w.steps.keys) :
    (c.extend links nodes w n).Consistent where
  order := by
    rw [extend, OrderedMap.keys_insert_of_not_mem _ _ _ fresh, consistent.order]
  keys := by
    apply OrderedMap.keys_insertAll_congr _ _ _ _ consistent.keys
    exact c.keys_typeEntries links nodes n
  classes := by
    intro key type job typed given
    rw [extend, typeEntries_eq, OrderedMap.get?_insertAll, OrderedMap.written_map,
      List.getLast?_map] at typed
    rw [extend, jobEntries_eq, OrderedMap.get?_insertAll, OrderedMap.written_map,
      List.getLast?_map] at given
    cases last : ((c.writers n).filter fun p => c.keyOf p = key).getLast? with
    | none =>
      rw [last] at typed given
      exact consistent.classes key type job typed given
    | some p =>
      rw [last] at typed given
      cases typed
      cases given
      exact p.type_eq_directory_iff
  declared := by
    intro key listed
    rw [extend, OrderedMap.mem_keys_insertAll] at listed ⊢
    exact listed.imp (consistent.declared key)
      (c.mem_typeEntries_of_outputEntries links nodes n key)
  offered := by
    intro key output found
    rw [extend, OrderedMap.get?_insertAll] at found
    cases last : (OrderedMap.written key (c.outputEntries n)).getLast? with
    | none =>
      rw [last, Option.none_or] at found
      obtain ⟨id, step, port, tool, known, parts⟩ := consistent.offered key output found
      have apart : id ≠ c.stepName n := by
        rintro rfl
        apply fresh
        rw [OrderedMap.mem_keys_iff_contains, OrderedMap.contains, known]
        rfl
      refine ⟨id, step, port, tool, ?_, parts⟩
      rw [extend, OrderedMap.get?_insert_of_ne _ _ _ _ apart]
      exact known
    | some new =>
      rw [last, Option.some_or, Option.some.injEq] at found
      subst found
      obtain ⟨port, tool, parts⟩ :=
        c.offered_of_outputEntries w.header.stepCwlVersion links nodes n key new last
      refine ⟨c.stepName n, _, port, tool, ?_, parts⟩
      rw [extend, OrderedMap.get?_insert_self]

theorem consistent_empty (header : Header) : (Workflow.empty header).Consistent where
  order := rfl
  keys := rfl
  classes := by
    intro key type job typed
    cases typed
  declared := by
    intro key listed
    cases listed
  offered := by
    intro key output found
    cases found

theorem consistent_foldl_extend (links : List Link) (nodes emitted : List Node) (w : Workflow)
    (consistent : w.Consistent)
    (once : (w.steps.keys ++ emitted.map c.stepName).Nodup) :
    (emitted.foldl (c.extend links nodes) w).Consistent := by
  induction emitted generalizing w with
  | nil => exact consistent
  | cons n rest ih =>
    have fresh : c.stepName n ∉ w.steps.keys := by
      intro known
      rw [List.nodup_append] at once
      exact once.2.2 _ known _ List.mem_cons_self rfl
    have grown : (c.extend links nodes w n).steps.keys = w.steps.keys ++ [c.stepName n] := by
      rw [extend, OrderedMap.keys_insert_of_not_mem _ _ _ fresh]
    apply ih _ (c.consistent_extend links nodes w n consistent fresh)
    rw [grown, List.append_assoc, List.singleton_append]
    exact once

theorem consistent_workflowOf (header : Header) (links : List Link) (nodes emitted : List Node)
    (once : (emitted.map c.stepName).Nodup) :
    (c.workflowOf header links nodes emitted).Consistent := by
  have run := c.consistent_foldl_extend links nodes emitted (Workflow.empty header)
    (consistent_empty header) once
  rw [foldl_extend] at run
  exact run

end Catalog

/-- A compiled workflow is consistent, and each of its steps serves the plugin of its node. -/
theorem compiled_parts_consistent (c : Catalog) (header : Header) (strict : Bool) (g : Graph)
    (distinct : g.ids.Nodup) (w : Workflow) (made : toWorkflow c header strict g = .ok w) :
    w.Consistent ∧ ∃ order, sequence (adjacency g.nodes g.links) = .ok order ∧
      ∀ id step, w.steps.get? id = some step →
        ∃ n ∈ stepNodes order g.nodes, ∃ p, c.stepId n = .ok id ∧ c.pluginOf n = .ok p ∧
          step.id = id ∧ step.Serves p := by
  obtain ⟨order, found, valid, able, -, rfl⟩ :=
    c.compiled_of_toWorkflow header strict g distinct w made
  have once := valid.nodup
  constructor
  · apply c.consistent_workflowOf
    change (c.compiled header order g).order.Nodup
    rw [c.order_compiled]
    exact c.nodup_stepNames order g.nodes once
  · refine ⟨order, found, ?_⟩
    intro id step known
    have member := OrderedMap.mem_entries_of_get? _ id step known
    rw [c.entries_steps_compiled header order g once] at member
    obtain ⟨n, emitted, same⟩ := List.mem_map.1 member
    cases same
    obtain ⟨⟨p, listed⟩, ⟨id, named⟩, -⟩ := able.emits n emitted
    have bare := c.settled_bare order g n
    refine ⟨n, emitted, p, c.eq_stepName n id named ▸ named, listed, c.stepName_congr bare, ?_⟩
    rw [← c.plugin_of_ok n p listed, ← c.plugin_congr bare]
    exact c.serves_stepOf header.stepCwlVersion g.links _ (c.settled order g n)

theorem compiled_parts_consistent_sharedKey :
    ∃ w step, toWorkflow sharedKeyCatalog .default true sharedKeyGraph = .ok w ∧
      w.Consistent ∧ w.steps.get? "a_1" = some step ∧ step.Serves folderPlugin := by
  obtain ⟨w, made⟩ := sharedKey_compiles
  have distinct : sharedKeyGraph.ids.Nodup := by decide
  obtain ⟨consistent, order, found, steps⟩ :=
    compiled_parts_consistent sharedKeyCatalog .default true sharedKeyGraph distinct w made
  rw [sharedKey_sequence] at found
  cases found
  have ids : (toWorkflow sharedKeyCatalog .default true sharedKeyGraph).map
      (fun w => (w.steps.get? "a_1").isSome) = .ok true := by
    decide +kernel
  rw [made] at ids
  obtain ⟨step, known⟩ := Option.isSome_iff_exists.1 (Except.ok.inj ids)
  obtain ⟨n, emitted, p, named, listed, -, serves⟩ := steps "a_1" step known
  refine ⟨w, step, made, consistent, known, ?_⟩
  have nodes : stepNodes [1, 2] sharedKeyGraph.nodes = [folderNode, labelNode] := by rfl
  rw [nodes, List.mem_cons, List.mem_singleton] at emitted
  rcases emitted with rfl | rfl
  · have tool : sharedKeyCatalog.pluginOf folderNode = .ok folderPlugin := by rfl
    rw [tool] at listed
    cases listed
    exact serves
  · have other : sharedKeyCatalog.stepId labelNode ≠ .ok "a_1" := by decide +kernel
    exact absurd named other

end PipelineCompiler
