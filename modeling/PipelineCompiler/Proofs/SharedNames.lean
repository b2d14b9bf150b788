import PipelineCompiler.Proofs.Agreement
import PipelineCompiler.Proofs.Consistency

set_option autoImplicit false

namespace PipelineCompiler

namespace StepPort

/-- How a tool declares the port among what it takes. -/
def declaration (p : StepPort) : ToolInput :=
  match p.direction with
  | .inputs => ⟨"--" ++ p.binding.name, p.binding.inputType, !p.binding.required⟩
  | .outputs => ⟨"--" ++ p.binding.name, p.binding.outputType, false⟩

end StepPort

namespace Document

def declaration? (document : Value) (id port : String) : Option Value :=
  (step? document id).bind fun step => (field (field step "run") "inputs").field? port

def referred? (document : Value) (id port : String) : Option Value :=
  (binding? document id port).bind fun fed =>
    match fed.field? "source" with
    | some (.str key) => jobInput? document key
    | _ => none

theorem referred?_of_binding (document : Value) (id port key : String)
    (fed : binding? document id port = some (binding key)) :
    referred? document id port = jobInput? document key := by
  rw [referred?, fed]
  rfl

end Document

theorem getLast?_filter_of_getLast? {α : Type} (keep : α → Bool) (xs : List α) (x : α)
    (last : xs.getLast? = some x) (kept : keep x = true) : (xs.filter keep).getLast? = some x := by
  obtain ⟨before, rfl⟩ := List.getLast?_eq_some_iff.1 last
  rw [List.filter_append, List.filter_cons_of_pos kept, List.filter_nil, List.getLast?_concat]

/-- Among ports with names of their own each is the last of its name. -/
theorem getLast?_named (bindings : List Binding) (unique : (bindings.map Binding.name).Nodup)
    (b : Binding) (listed : b ∈ bindings) :
    (bindings.filter fun d => d.name = b.name).getLast? = some b := by
  obtain ⟨d, last⟩ := exists_last_of_mem_names bindings b.name (List.mem_map_of_mem listed)
  obtain ⟨member, same⟩ := List.mem_filter.1 (List.mem_of_getLast? last)
  have name : d.name = b.name := by simpa using same
  rw [last, List.inj_on_of_nodup_map unique member listed name]

namespace Catalog

variable (c : Catalog)

def lastPort? (n : Node) (name : String) : Option StepPort :=
  ((c.stepPorts n).filter fun p => p.binding.name = name).getLast?

theorem lastPort?_eq (n : Node) (name : String) :
    c.lastPort? n name =
      (((c.plugin n).outputs.filter fun b => b.name = name).getLast?.map
        (StepPort.mk n .outputs)).or
      (((c.plugin n).inputs.filter fun b => b.name = name).getLast?.map
        (StepPort.mk n .inputs)) := by
  rw [lastPort?, stepPorts, List.filter_append, List.getLast?_append, List.filter_map,
    List.filter_map, List.getLast?_map, List.getLast?_map]
  rfl

theorem lastPort?_output (n : Node) (unique : ((c.plugin n).outputs.map Binding.name).Nodup)
    (o : Binding) (listed : o ∈ (c.plugin n).outputs) :
    c.lastPort? n o.name = some ⟨n, .outputs, o⟩ := by
  rw [lastPort?_eq, getLast?_named _ unique o listed]
  rfl

theorem lastPort?_input (n : Node) (unique : ((c.plugin n).inputs.map Binding.name).Nodup)
    (b : Binding) (listed : b ∈ (c.plugin n).inputs)
    (alone : ∀ o ∈ (c.plugin n).outputs, o.name ≠ b.name) :
    c.lastPort? n b.name = some ⟨n, .inputs, b⟩ := by
  have none : ((c.plugin n).outputs.filter fun o => o.name = b.name) = [] := by
    simpa [List.filter_eq_nil_iff] using alone
  rw [lastPort?_eq, none, getLast?_named _ unique b listed]
  rfl

theorem mem_writers_of_lastPort? (n : Node) (name : String) (p : StepPort)
    (last : c.lastPort? n name = some p) (writes : p.writes = true) : p ∈ c.writers n :=
  List.mem_filter.2 ⟨(List.mem_filter.1 (List.mem_of_getLast? last)).1, writes⟩

/-- What the tool of a step takes, as written by its ports. -/
theorem run_inputs_stepOf (version : String) (links : List Link) (nodes : List Node) (n : Node) :
    (c.stepOf version links nodes n).run.inputs =
      OrderedMap.ofList ((c.stepPorts n).map fun p => (p.binding.name, p.declaration)) := by
  rw [stepOf, stepPorts, List.map_append, List.map_map, List.map_map]
  rfl

/-- No other step writes to a job input of this one. -/
def Apart (emitted : List Node) (n : Node) : Prop :=
  ∀ m ∈ emitted, m ≠ n → ∀ p ∈ c.writers n, ∀ q ∈ c.writers m, c.keyOf q ≠ c.keyOf p

/-- Left alone by the other steps, a step has under a key what its last port of the name wrote. -/
theorem get?_jobInputs_of_apart (header : Header) (links : List Link) (nodes emitted : List Node)
    (once : emitted.Nodup) (p : StepPort) (step : p.node ∈ emitted) (apart : c.Apart emitted p.node)
    (last : c.lastPort? p.node p.binding.name = some p) (writes : p.writes = true) :
    (c.workflowOf header links nodes emitted).jobInputs.get? (c.keyOf p) =
      some (p.job (inlinedFrom c links nodes p.node.id)) := by
  have writer := c.mem_writers_of_lastPort? _ _ p last writes
  have alone : ∀ m ∈ emitted, m ≠ p.node →
      c.keyOf p ∉ (c.jobEntries links nodes m).map Prod.fst := by
    intro m among other shared
    obtain ⟨q, writer', same⟩ := c.exists_port_of_jobEntries links nodes m _ shared
    exact apart m among other p writer q writer' same
  -- Within the step the ports of one key are those of one name.
  have named : (c.stepPorts p.node).filter (fun q => c.keyOf q = c.keyOf p) =
      (c.stepPorts p.node).filter fun q => q.binding.name = p.binding.name := by
    apply List.filter_congr
    intro q port'
    rw [decide_eq_decide, keyOf, keyOf, ((c.mem_stepPorts_iff p.node q).1 port').1]
    exact ⟨jobKey_left_injective _ _ _, congrArg _⟩
  rw [workflowOf, OrderedMap.get?_ofList_flatMap_of_alone _ _ once p.node step _ alone,
    jobEntries_eq, OrderedMap.get?_ofList_map, writers, List.filter_comm, named,
    getLast?_filter_of_getLast? _ _ _ last writes]
  rfl

/-- A port that writes to the job is an output, or an input with a value. -/
theorem bound_of_mem_writers (n : Node) (p : StepPort) (writer : p ∈ c.writers n) :
    p.binding.name ∈ (c.plugin n).outputs.map Binding.name ∨
      (p.binding.name ∈ (c.plugin n).inputs.map Binding.name ∧
        hasValue (n.input p.binding.name) = true) := by
  rw [← c.mem_boundPorts_iff [] [] n, boundPorts_eq, List.map_map]
  exact List.mem_map_of_mem writer

/-- The document declares a port of a step as its plugin has it, and the job input that feeds it has
its value: if it has one, no other step writes to the job inputs of the step, and no link from
another step takes the port. -/
structure Honoured (links : List Link) (nodes emitted : List Node) (document : Value)
    (p : StepPort) : Prop where
  declared : Document.declaration? document (c.stepName p.node) p.binding.name =
    some p.declaration.toValue
  valued : c.Apart emitted p.node → p.writes = true →
    c.lastArrival? nodes links false p.node p.binding.name = none →
      Document.referred? document (c.stepName p.node) p.binding.name = some p.jobValue

variable {c} {header : Header} {order : List Int} {g : Graph}

/-- A compiled document honours the port of a step that comes last under its name. -/
theorem honoured_of_lastPort (once : order.Nodup)
    (distinct : ((stepNodes order g.nodes).map (c.settled order g)).Nodup) (n : Node)
    (step : n ∈ stepNodes order g.nodes) (p : StepPort) (own : p.node = c.settled order g n)
    (last : c.lastPort? p.node p.binding.name = some p) :
    c.Honoured g.links (g.nodes.map (c.settled order g))
      ((stepNodes order g.nodes).map (c.settled order g))
      (c.compiled header order g).document p := by
  have bare := c.settled_bare order g
  have name : c.stepName p.node = c.stepName n := by rw [own, c.stepName_congr (bare n)]
  constructor
  · rw [Document.declaration?, name, c.step?_compiled header order g once n step, Option.bind_some,
      Document.field_run_inputs, Document.field?_toObject, stepAt, run_inputs_stepOf,
      OrderedMap.get?_ofList_map, ← own, ← lastPort?, last]
    rfl
  · intro apart writes unlinked
    have bound := c.bound_of_mem_writers p.node p (c.mem_writers_of_lastPort? _ _ p last writes)
    have fed : Document.binding? (c.compiled header order g).document (c.stepName p.node)
        p.binding.name = some (Document.binding (c.keyOf p)) := by
      rw [own, c.lastArrival?_map _ bare, Option.map_eq_none_iff] at unlinked
      rw [own, c.plugin_congr (bare n)] at bound
      rw [name, c.binding?_compiled header order g once n step, c.get?_sources_stepAt, unlinked,
        if_pos bound, ← name]
      rfl
    rw [Document.referred?_of_binding _ _ _ _ fed, Document.jobInput?_document, compiled,
      c.get?_jobInputs_of_apart header _ _ _ distinct p (own ▸ List.mem_map_of_mem step) apart last
        writes]
    rfl

end Catalog

/-- Where names are unique in each direction, a compiled document honours the inputs of a step that
share their names with no output. An output that has the name of an input is honoured in its place:
the tool then takes what the output declares, and the job has the value of the output. -/
theorem compiled_inputs_yield_to_outputs (c : Catalog) (header : Header) (strict : Bool) (g : Graph)
    (distinct : g.ids.Nodup)
    (unique : ∀ p ∈ c.plugins, (p.inputs.map Binding.name).Nodup ∧
      (p.outputs.map Binding.name).Nodup)
    (w : Workflow) (made : toWorkflow c header strict g = .ok w) :
    ∃ order nodes document, sequence (adjacency g.nodes g.links) = .ok order ∧
      fillSettings c order g.links g.nodes = .ok nodes ∧ w.document? = .ok document ∧
      ∀ n ∈ stepNodes order nodes, c.pluginOf n = .ok (c.plugin n) ∧
        c.stepId n = .ok (c.stepName n) ∧
        ∀ b ∈ (c.plugin n).inputs,
          ((∀ o ∈ (c.plugin n).outputs, o.name ≠ b.name) →
            c.Honoured g.links nodes (stepNodes order nodes) document ⟨n, .inputs, b⟩) ∧
          ∀ o ∈ (c.plugin n).outputs, o.name = b.name →
            c.Honoured g.links nodes (stepNodes order nodes) document ⟨n, .outputs, o⟩ := by
  obtain ⟨order, found, valid, able, filled, rfl⟩ :=
    c.compiled_of_toWorkflow header strict g distinct w made
  have once := valid.nodup
  have bare := c.settled_bare order g
  refine ⟨order, _, _, found, filled, c.document?_compiled header order g once, ?_⟩
  have apart := nodup_stepNodes order (g.nodes.map (c.settled order g)) once
  rw [stepNodes_map _ bare] at apart ⊢
  intro m emitted
  obtain ⟨n, step, rfl⟩ := List.mem_map.1 emitted
  obtain ⟨⟨p, listed⟩, ⟨id, named⟩, -⟩ :=
    (c.emits_map _ bare g.links g.nodes n).2 (able.emits n step)
  obtain rfl := c.plugin_of_ok _ p listed
  obtain rfl := c.eq_stepName _ id named
  obtain ⟨inputs, outputs⟩ := unique _ (c.mem_of_pluginOf _ _ listed)
  refine ⟨listed, named, fun b declared => ⟨?_, ?_⟩⟩
  · intro alone
    exact Catalog.honoured_of_lastPort once apart n step _ rfl
      (c.lastPort?_input _ inputs b declared alone)
  · intro o offered _
    exact Catalog.honoured_of_lastPort once apart n step _ rfl
      (c.lastPort?_output _ outputs o offered)

/-- An optional number and a text that the tool makes, both called `level`. -/
def levelPlugin : Plugin :=
  ⟨"level", "Level", none, ["level"], "level:latest",
    [⟨"level", "number", false⟩, ⟨"count", "number", false⟩], [⟨"level", "string", true⟩], []⟩

def levelCatalog : Catalog := .ofPlugins [levelPlugin]

def levelNode : Node :=
  ⟨1, "level", "Level", false, some ⟨some ⟨[("level", .int 5), ("count", .int 3)]⟩, none⟩⟩

def levelGraph : Graph := ⟨[levelNode], []⟩

theorem level_sequence : sequence (adjacency levelGraph.nodes levelGraph.links) = .ok [1] := by
  rfl

theorem level_compiles : ∃ w, toWorkflow levelCatalog .default true levelGraph = .ok w := by
  apply exists_eq_ok_of_isOk
  decide +kernel

/-- The node with the placeholder of its output. -/
def levelFilled : Node :=
  levelNode.withSettings levelNode.inputs ⟨[("level", .str "Level_1-level")]⟩

theorem level_fills :
    fillSettings levelCatalog [1] levelGraph.links levelGraph.nodes = .ok [levelFilled] := by
  decide +kernel

theorem compiled_inputs_yield_to_outputs_level :
    ∃ w document, toWorkflow levelCatalog .default true levelGraph = .ok w ∧
      w.document? = .ok document ∧
      Document.declaration? document "Level_1" "count" =
        some (ToolInput.toValue ⟨"--count", .int, true⟩) ∧
      Document.referred? document "Level_1" "count" = some (.int 3) ∧
      Document.declaration? document "Level_1" "level" =
        some (ToolInput.toValue ⟨"--level", .string, false⟩) ∧
      Document.referred? document "Level_1" "level" = some (.str "Level_1-level") := by
  obtain ⟨w, made⟩ := level_compiles
  have distinct : levelGraph.ids.Nodup := by decide
  have unique : ∀ p ∈ levelCatalog.plugins, (p.inputs.map Binding.name).Nodup ∧
      (p.outputs.map Binding.name).Nodup := by decide
  obtain ⟨order, nodes, document, found, filled, written, steps⟩ :=
    compiled_inputs_yield_to_outputs levelCatalog .default true levelGraph distinct unique w made
  rw [level_sequence] at found
  cases found
  rw [level_fills] at filled
  cases filled
  have emitted : stepNodes [1] [levelFilled] = [levelFilled] := rfl
  have name : levelCatalog.stepName levelFilled = "Level_1" := by decide +kernel
  have tool : levelCatalog.plugin levelFilled = levelPlugin := rfl
  rw [emitted] at steps
  obtain ⟨-, -, ports⟩ := steps levelFilled (List.mem_singleton_self _)
  have apart : levelCatalog.Apart [levelFilled] levelFilled := fun m among other =>
    absurd (List.mem_singleton.1 among) other
  obtain ⟨count, -⟩ := ports ⟨"count", "number", false⟩ (by decide)
  obtain ⟨-, level⟩ := ports ⟨"level", "number", false⟩ (by decide)
  obtain ⟨declared, valued⟩ := count (by decide)
  obtain ⟨declared', valued'⟩ := level ⟨"level", "string", true⟩ (by decide) rfl
  rw [name] at declared valued declared' valued'
  exact ⟨w, document, made, written, declared, valued apart (by decide) rfl, declared',
    valued' apart rfl rfl⟩

/-- The input is an optional number with the value 5, which no link replaces. The tool does not
declare it so, and the job does not have the value. -/
theorem input_lost_to_output :
    levelGraph.ids.Nodup ∧
      (∀ p ∈ levelCatalog.plugins, (p.inputs.map Binding.name).Nodup ∧
        (p.outputs.map Binding.name).Nodup) ∧
      fillSettings levelCatalog [1] levelGraph.links levelGraph.nodes = .ok [levelFilled] ∧
      stepNodes [1] [levelFilled] = [levelFilled] ∧
      levelCatalog.Apart [levelFilled] levelFilled ∧
      ⟨"level", "number", false⟩ ∈ (levelCatalog.plugin levelFilled).inputs ∧
      levelFilled.input "level" = .int 5 ∧
      levelCatalog.lastArrival? [levelFilled] levelGraph.links false levelFilled "level" = none ∧
      ∃ w document, toWorkflow levelCatalog .default true levelGraph = .ok w ∧
        w.document? = .ok document ∧
        Document.declaration? document "Level_1" "level" ≠
          some (ToolInput.toValue ⟨"--level", .int, true⟩) ∧
        Document.binding? document "Level_1" "level" = some (Document.binding "Level_1_level") ∧
        Document.jobInput? document "Level_1_level" ≠ some (.int 5) := by
  have shape : (toWorkflow levelCatalog .default true levelGraph).map (fun w =>
      (w.unknownStep?, Document.declaration? w.document "Level_1" "level",
        Document.binding? w.document "Level_1" "level",
        Document.jobInput? w.document "Level_1_level")) =
      .ok (none, some (ToolInput.toValue ⟨"--level", .string, false⟩),
        some (Document.binding "Level_1_level"), some (.str "Level_1-level")) := by
    decide +kernel
  obtain ⟨w, made⟩ := level_compiles
  rw [made] at shape
  simp only [Except.map, Except.ok.injEq, Prod.mk.injEq] at shape
  obtain ⟨listed, declared, fed, value⟩ := shape
  have written : w.document? = .ok w.document := by
    rw [Workflow.document?, listed]
  refine ⟨by decide, by decide, level_fills, rfl, ?_, by decide, rfl, rfl, w, _, made, written, ?_,
    fed, ?_⟩
  · exact fun m among other => absurd (List.mem_singleton.1 among) other
  · rw [declared]
    decide
  · rw [value]
    decide

end PipelineCompiler
