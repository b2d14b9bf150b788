import PipelineCompiler.Proofs.JobInputs

set_option autoImplicit false

/- Keys of job inputs. A key joins the id of a step and the name of a port with a low line, and
either of them can have low lines itself; so it does not always tell two steps apart. It does when
no port name has a low line behind a digit. -/
namespace PipelineCompiler

theorem toList_jobKey (stepId port : String) :
    (jobKey stepId port).toList = stepId.toList ++ '_' :: port.toList := by
  simp [jobKey, String.toList_append]

theorem jobKey_assoc (first second third : String) :
    jobKey (jobKey first second) third = jobKey first (jobKey second third) := by
  apply String.toList_injective
  simp only [toList_jobKey, List.append_assoc, List.cons_append]

theorem jobKey_left_injective (stepId port other : String)
    (same : jobKey stepId port = jobKey stepId other) : port = other := by
  have lists := congrArg String.toList same
  rw [toList_jobKey, toList_jobKey, List.append_cancel_left_eq, List.cons.injEq] at lists
  exact String.toList_injective lists.2

/-- Two keys are the same when their parts are, or when one step id goes on where the other ends and
the port of the other makes up for it. -/
theorem jobKey_eq_iff (stepId other port otherPort : String) :
    jobKey stepId port = jobKey other otherPort ↔
      (stepId = other ∧ port = otherPort) ∨ ∃ rest,
        (other = jobKey stepId rest ∧ port = jobKey rest otherPort) ∨
          (stepId = jobKey other rest ∧ otherPort = jobKey rest port) := by
  constructor
  · intro same
    have lists := congrArg String.toList same
    rw [toList_jobKey, toList_jobKey, append_separator_eq_iff] at lists
    rcases lists with ⟨step, name⟩ | ⟨r, ⟨step, name⟩ | ⟨step, name⟩⟩
    · exact .inl ⟨String.toList_injective step, String.toList_injective name⟩
    · refine .inr ⟨String.ofList r, .inl ⟨?_, ?_⟩⟩
      · apply String.toList_injective
        rw [toList_jobKey, String.toList_ofList, step]
      · apply String.toList_injective
        rw [toList_jobKey, String.toList_ofList, name]
    · refine .inr ⟨String.ofList r, .inr ⟨?_, ?_⟩⟩
      · apply String.toList_injective
        rw [toList_jobKey, String.toList_ofList, step]
      · apply String.toList_injective
        rw [toList_jobKey, String.toList_ofList, name]
  · rintro (⟨rfl, rfl⟩ | ⟨rest, ⟨rfl, rfl⟩ | ⟨rfl, rfl⟩⟩)
    · rfl
    · exact (jobKey_assoc stepId rest otherPort).symm
    · exact jobKey_assoc other rest port

/-- A low line stands behind a digit. -/
def Numbered (name : String) : Prop :=
  ∃ before digit after, name.toList = before ++ digit :: '_' :: after ∧ digit.isDigit = true

namespace Catalog

variable (c : Catalog)

/-- No plugin has a port whose name could be taken for the end of a step id. -/
def PlainPorts : Prop :=
  ∀ plugin ∈ c.plugins, ∀ b ∈ plugin.inputs ++ plugin.outputs, ¬ Numbered b.name

/-- What a step id adds to another ends with a digit, like every step id. -/
theorem numbered_of_stepName_eq (n : Node) (other rest port : String)
    (longer : c.stepName n = jobKey other rest) : Numbered (jobKey rest port) := by
  obtain ⟨d, ends, digit⟩ := c.exists_getLast?_stepName n
  rw [longer, toList_jobKey, List.getLast?_append, List.getLast?_cons, Option.some_or,
    Option.some.injEq] at ends
  cases final : rest.toList.getLast? with
  | none =>
    rw [final, Option.getD_none] at ends
    subst ends
    cases digit
  | some x =>
    rw [final, Option.getD_some] at ends
    subst ends
    obtain ⟨before, cut⟩ := List.getLast?_eq_some_iff.1 final
    refine ⟨before, x, port.toList, ?_, digit⟩
    rw [toList_jobKey, cut, List.append_assoc, List.singleton_append]

/-- The keys of ports of different steps are the same when one step id goes on where the other ends
and the port of the other makes up for it. -/
theorem keyOf_eq_iff (p q : StepPort) (apart : p.node.id ≠ q.node.id) :
    c.keyOf p = c.keyOf q ↔ ∃ rest,
      (c.stepName q.node = jobKey (c.stepName p.node) rest ∧
        p.binding.name = jobKey rest q.binding.name) ∨
      (c.stepName p.node = jobKey (c.stepName q.node) rest ∧
        q.binding.name = jobKey rest p.binding.name) := by
  rw [keyOf, keyOf, jobKey_eq_iff]
  constructor
  · rintro (⟨same, -⟩ | meet)
    · exact absurd (c.id_eq_of_stepName_eq _ _ same) apart
    · exact meet
  · exact .inr

theorem keyOf_ne_of_not_numbered (p q : StepPort) (apart : p.node.id ≠ q.node.id)
    (left : ¬ Numbered p.binding.name) (right : ¬ Numbered q.binding.name) :
    c.keyOf p ≠ c.keyOf q := by
  intro same
  obtain ⟨rest, ⟨longer, name⟩ | ⟨longer, name⟩⟩ := (c.keyOf_eq_iff p q apart).1 same
  · exact left (name ▸ c.numbered_of_stepName_eq q.node _ rest _ longer)
  · exact right (name ▸ c.numbered_of_stepName_eq p.node _ rest _ longer)

variable {c}

theorem not_numbered_of_mem_stepPorts (plain : c.PlainPorts) (n : Node) (plugin : Plugin)
    (tool : c.pluginOf n = .ok plugin) (p : StepPort) (port : p ∈ c.stepPorts n) :
    ¬ Numbered p.binding.name := by
  have declared := ((c.mem_stepPorts_iff n p).1 port).2
  rw [c.plugin_of_ok n plugin tool] at declared
  apply plain plugin (c.mem_of_pluginOf n plugin tool)
  rw [List.mem_append]
  cases kind : p.direction with
  | inputs =>
    rw [kind] at declared
    exact .inl declared
  | outputs =>
    rw [kind] at declared
    exact .inr declared

theorem keyOf_ne_of_plain (plain : c.PlainPorts) (m n : Node) (left right : Plugin)
    (tool : c.pluginOf m = .ok left) (tool' : c.pluginOf n = .ok right) (apart : m.id ≠ n.id)
    (p q : StepPort) (port : p ∈ c.stepPorts m) (port' : q ∈ c.stepPorts n) :
    c.keyOf p ≠ c.keyOf q := by
  apply c.keyOf_ne_of_not_numbered p q
  · rw [((c.mem_stepPorts_iff m p).1 port).1, ((c.mem_stepPorts_iff n q).1 port').1]
    exact apart
  · exact not_numbered_of_mem_stepPorts plain m left tool p port
  · exact not_numbered_of_mem_stepPorts plain n right tool' q port'

/-- Where no port could be taken for the end of a step id, what a step writes stays, in any map
whose entries have the keys of ports. -/
theorem get?_flatMap_of_plain {α : Type} (plain : c.PlainPorts)
    (entriesOf : Node → List (String × α))
    (keyed : ∀ n, ∀ key ∈ (entriesOf n).map Prod.fst, ∃ p ∈ c.writers n, c.keyOf p = key)
    (order : List Int) (nodes : List Node) (once : order.Nodup)
    (tools : ∀ n ∈ stepNodes order nodes, ∃ plugin, c.pluginOf n = .ok plugin)
    (n : Node) (step : n ∈ stepNodes order nodes) (key : String) (a : α)
    (own : (OrderedMap.ofList (entriesOf n)).get? key = some a) :
    (OrderedMap.ofList ((stepNodes order nodes).flatMap entriesOf)).get? key = some a := by
  rw [← own]
  apply OrderedMap.get?_ofList_flatMap_of_alone entriesOf _ (nodup_stepNodes order nodes once)
    n step
  intro m among other writes
  have found := OrderedMap.mem_entries_of_get? _ key a own
  have entry := OrderedMap.mem_of_mem_entries_ofList _ _ found
  obtain ⟨p, writer, written⟩ := keyed n key (List.mem_map_of_mem entry)
  obtain ⟨q, writer', meets⟩ := keyed m key writes
  obtain ⟨right, tool⟩ := tools n step
  obtain ⟨left, tool'⟩ := tools m among
  have apart : m.id ≠ n.id := fun same =>
    other (eq_of_id_stepNodes order nodes once m n among step same)
  exact keyOf_ne_of_plain plain m n left right tool' tool apart q p (List.mem_filter.1 writer').1
    (List.mem_filter.1 writer).1 (meets.trans written.symm)

end Catalog

/-- The keys of two steps meet exactly when one step id goes on where the other ends and a port of
the other makes up for it. Where no port could be taken for the end of a step id no keys meet, and
the job inputs, their declarations and the outputs of the workflow have every entry of every
step. -/
theorem compiled_job_keys_meet_iff (c : Catalog) (header : Header) (strict : Bool) (g : Graph)
    (distinct : g.ids.Nodup) (w : Workflow) (made : toWorkflow c header strict g = .ok w) :
    ∃ order nodes, sequence (adjacency g.nodes g.links) = .ok order ∧
      fillSettings c order g.links g.nodes = .ok nodes ∧
      (∀ m ∈ stepNodes order g.nodes, ∀ n ∈ stepNodes order g.nodes, m ≠ n →
        ∀ p ∈ c.stepPorts m, ∀ q ∈ c.stepPorts n,
          (c.keyOf p = c.keyOf q ↔ ∃ rest,
            (c.stepName n = jobKey (c.stepName m) rest ∧
              p.binding.name = jobKey rest q.binding.name) ∨
            (c.stepName m = jobKey (c.stepName n) rest ∧
              q.binding.name = jobKey rest p.binding.name)) ∧
          (c.PlainPorts → c.keyOf p ≠ c.keyOf q)) ∧
      (c.PlainPorts → ∀ n ∈ stepNodes order nodes, ∀ key,
        (∀ job, (OrderedMap.ofList (c.jobEntries g.links nodes n)).get? key = some job →
          w.jobInputs.get? key = some job) ∧
        (∀ type, (OrderedMap.ofList (c.typeEntries g.links nodes n)).get? key = some type →
          w.inputs.get? key = some type) ∧
        ∀ output, (OrderedMap.ofList (c.outputEntries n)).get? key = some output →
          w.outputs.get? key = some output) := by
  obtain ⟨order, found, valid, able, filled, rfl⟩ :=
    c.compiled_of_toWorkflow header strict g distinct w made
  have once := valid.nodup
  have same := c.settled_bare order g
  have steps := stepNodes_map (c.settled order g) same order g.nodes
  have tools : ∀ n ∈ stepNodes order g.nodes, ∃ plugin, c.pluginOf n = .ok plugin :=
    fun n step => (able.emits n step).1
  have settledTools : ∀ n ∈ stepNodes order (g.nodes.map (c.settled order g)),
      ∃ plugin, c.pluginOf n = .ok plugin := by
    simpa only [steps, List.forall_mem_map, c.pluginOf_congr (same _)] using tools
  refine ⟨order, _, found, filled, ?_, ?_⟩
  · intro m left n right other p port q port'
    have apart : m.id ≠ n.id := fun same =>
      other (eq_of_id_stepNodes order g.nodes once m n left right same)
    constructor
    · obtain rfl := ((c.mem_stepPorts_iff m p).1 port).1
      obtain rfl := ((c.mem_stepPorts_iff n q).1 port').1
      exact c.keyOf_eq_iff p q apart
    · intro plain
      obtain ⟨a, tool⟩ := tools m left
      obtain ⟨b, tool'⟩ := tools n right
      exact Catalog.keyOf_ne_of_plain plain m n a b tool tool' apart p q port port'
  · intro plain n step key
    rw [Catalog.compiled, ← steps]
    refine ⟨?_, ?_, ?_⟩
    · intro job own
      exact Catalog.get?_flatMap_of_plain plain _ (c.exists_port_of_jobEntries g.links _) order _
        once settledTools n step key job own
    · intro type own
      exact Catalog.get?_flatMap_of_plain plain _ (c.exists_port_of_typeEntries g.links _) order _
        once settledTools n step key type own
    · intro output own
      exact Catalog.get?_flatMap_of_plain plain _ c.exists_port_of_outputEntries order _ once
        settledTools n step key output own

theorem compiled_job_keys_meet_iff_sharedKey :
    jobKey "a_1" "2_x" = jobKey "a_1_2" "x" ∧
      sharedKeyCatalog.keyOf ⟨folderNode, .outputs, ⟨"2_x", "directory", false⟩⟩ =
        sharedKeyCatalog.keyOf ⟨labelNode, .outputs, ⟨"x", "string", false⟩⟩ := by
  obtain ⟨w, made⟩ := sharedKey_compiles
  have distinct : sharedKeyGraph.ids.Nodup := by decide
  obtain ⟨order, nodes, found, -, meet, -⟩ :=
    compiled_job_keys_meet_iff sharedKeyCatalog .default true sharedKeyGraph distinct w made
  rw [sharedKey_sequence] at found
  cases found
  have left : folderNode ∈ stepNodes [1, 2] sharedKeyGraph.nodes := by decide +kernel
  have right : labelNode ∈ stepNodes [1, 2] sharedKeyGraph.nodes := by decide +kernel
  have longer : sharedKeyCatalog.stepName labelNode =
      jobKey (sharedKeyCatalog.stepName folderNode) "2" := by decide +kernel
  refine ⟨by decide, ?_⟩
  obtain ⟨keys, -⟩ := meet folderNode left labelNode right (by decide) _
    (List.mem_singleton_self _) _ (List.mem_singleton_self _)
  exact keys.2 ⟨"2", .inl ⟨longer, by decide⟩⟩

/-- Two steps, `a_1` with the output `2_x` and `a_1_2` with the output `x`, share their job input:
it has the value of the second, and the first is told to write there. -/
theorem job_key_of_two_steps :
    sharedKeyGraph.ids.Nodup ∧
      ∃ w document, toWorkflow sharedKeyCatalog .default true sharedKeyGraph = .ok w ∧
        w.document? = .ok document ∧
        folderNode ∈ stepNodes [1, 2] sharedKeyGraph.nodes ∧
        labelNode ∈ stepNodes [1, 2] sharedKeyGraph.nodes ∧ folderNode ≠ labelNode ∧
        (∃ p ∈ sharedKeyCatalog.stepPorts folderNode, ∃ q ∈ sharedKeyCatalog.stepPorts labelNode,
          sharedKeyCatalog.keyOf p = sharedKeyCatalog.keyOf q) ∧
        Document.stepIds document = ["a_1", "a_1_2"] ∧
        Document.jobKeys document = ["a_1_2_x"] ∧
        Document.jobInput? document "a_1_2_x" = some (.str "a_1_2-x") ∧
        Document.binding? document "a_1" "2_x" = some (Document.binding "a_1_2_x") ∧
        Document.binding? document "a_1_2" "x" = some (Document.binding "a_1_2_x") := by
  have shape : (toWorkflow sharedKeyCatalog .default true sharedKeyGraph).map (fun w =>
      (w.unknownStep?, Document.stepIds w.document, Document.jobKeys w.document)) =
      .ok (none, ["a_1", "a_1_2"], ["a_1_2_x"]) := by
    decide +kernel
  have values : (toWorkflow sharedKeyCatalog .default true sharedKeyGraph).map (fun w =>
      (Document.jobInput? w.document "a_1_2_x", Document.binding? w.document "a_1" "2_x",
        Document.binding? w.document "a_1_2" "x")) =
      .ok (some (.str "a_1_2-x"), some (Document.binding "a_1_2_x"),
        some (Document.binding "a_1_2_x")) := by
    decide +kernel
  obtain ⟨w, made⟩ := sharedKey_compiles
  rw [made] at shape values
  simp only [Except.map, Except.ok.injEq, Prod.mk.injEq] at shape values
  obtain ⟨listed, ids, keys⟩ := shape
  obtain ⟨value, first, second⟩ := values
  have written : w.document? = .ok w.document := by
    rw [Workflow.document?, listed]
  have same : sharedKeyCatalog.keyOf ⟨folderNode, .outputs, ⟨"2_x", "directory", false⟩⟩ =
      sharedKeyCatalog.keyOf ⟨labelNode, .outputs, ⟨"x", "string", false⟩⟩ := by
    decide +kernel
  refine ⟨by decide, w, _, made, written, by decide +kernel, by decide +kernel, by decide,
    ⟨_, ?_, _, ?_, same⟩, ids, keys, value, first, second⟩
  · exact List.mem_singleton_self _
  · exact List.mem_singleton_self _

end PipelineCompiler
