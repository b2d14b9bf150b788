import PipelineCompiler.Proofs.References
import PipelineCompiler.Proofs.Wiring

set_option autoImplicit false

namespace PipelineCompiler

namespace Document

/-- A document is valid when it conforms and each of its references resolves. -/
theorem validate_eq_ok (w : Workflow) (conforms : Schema.workflow.Accepts w.document)
    (steps : ∀ e ∈ w.orderedSteps.entries, ∀ source ∈ e.2.sources.entries,
      source.1 ∈ e.2.run.inputs.keys ∧ Resolves w.document source.2)
    (outputs : ∀ e ∈ w.outputs.entries, ∃ step port, e.2.source = outputRef step port ∧
      '/' ∉ step.toList ∧ Offers w.document step port) :
    validate w.document = .ok () := by
  rw [validate_eq_ok_iff, ← Schema.accepts_iff_conforms]
  refine ⟨conforms, ?_, ?_⟩
  · intro step member port bound
    rw [field_steps, fields_toObject] at member
    obtain ⟨entry, inside, rfl⟩ := List.mem_map.1 member
    dsimp only at bound ⊢
    rw [field_in, fields_toObject] at bound
    obtain ⟨source, written, rfl⟩ := List.mem_map.1 bound
    obtain ⟨declared, resolves⟩ := steps entry inside source written
    rw [field_run_inputs, hasField_toObject_iff]
    exact ⟨declared, source.2, rfl, resolves⟩
  · intro output member
    have field_outputs : field w.document "outputs" = w.outputs.toObject WorkflowOutput.toValue :=
      rfl
    rw [field_outputs, fields_toObject] at member
    obtain ⟨entry, inside, rfl⟩ := List.mem_map.1 member
    obtain ⟨step, port, source, plain, offered⟩ := outputs entry inside
    refine ⟨step, port, ?_, plain, offered⟩
    rw [← source]
    rfl

end Document

/-- Port names that references can carry: no slashes, and outputs that can be told apart. -/
structure Plugin.Referable (p : Plugin) : Prop where
  distinct : (p.outputs.map Binding.name).Nodup
  named : ∀ b ∈ p.outputs, b.name ≠ ""
  inputs : ∀ b ∈ p.inputs, '/' ∉ b.name.toList
  outputs : ∀ b ∈ p.outputs, '/' ∉ b.name.toList

/-- What the settings passes leave at the ports that become job inputs fits the ports. -/
def Catalog.SettingsSuit (c : Catalog) (g : Graph) : Prop :=
  ∀ order filled, sequence (adjacency g.nodes g.links) = .ok order →
    fillSettings c order g.links g.nodes = .ok filled →
      ∀ n ∈ stepNodes order filled, ∀ p, c.pluginOf n = .ok p →
        (∀ b ∈ p.inputs, hasValue (n.input b.name) = true →
          (n.input b.name).suits b.isDirectory = true) ∧
        ∀ b ∈ p.outputs, (n.output b.name).suits b.isDirectory = true

namespace Catalog

variable {c : Catalog} {header : Header} {order : List Int} {g : Graph}

theorem slash_not_mem_stepName (slugged : c.sanitize = slug) (n : Node) :
    '/' ∉ (c.stepName n).toList := by
  intro member
  rw [toList_stepName, slugged, List.mem_append, List.mem_cons] at member
  rcases member with word | low | digit
  · rcases mem_slug n.name '/' word with low | letter
    · cases low
    · cases letter
  · cases low
  · exact not_mem_toList_toString n.id '/' rfl (by decide) digit

theorem stepName_ne_empty (n : Node) : c.stepName n ≠ "" := by
  intro empty
  have low : '_' ∈ (c.stepName n).toList := by simp [toList_stepName]
  rw [empty] at low
  cases low

theorem slash_not_mem_jobKey (slugged : c.sanitize = slug) (n : Node) (port : String)
    (plain : '/' ∉ port.toList) : '/' ∉ (jobKey (c.stepName n) port).toList := by
  intro member
  rw [jobKey, String.toList_append, String.toList_append, List.mem_append,
    List.mem_append] at member
  rcases member with (step | low) | inPort
  · exact slash_not_mem_stepName slugged n step
  · revert low
    decide
  · exact plain inPort

/-- The entries that all steps together write, found at the node that wrote them. -/
theorem mem_of_mem_flatMap_settled {α : Type} (entries : Node → List (String × α))
    (e : String × α)
    (member : e ∈ (OrderedMap.ofList
      (((stepNodes order g.nodes).map (c.settled order g)).flatMap entries)).entries) :
    ∃ n ∈ stepNodes order g.nodes, e ∈ entries (c.settled order g n) := by
  have written := OrderedMap.mem_of_mem_entries_ofList _ e member
  obtain ⟨m, emitted, inside⟩ := List.mem_flatMap.1 written
  obtain ⟨n, step, rfl⟩ := List.mem_map.1 emitted
  exact ⟨n, step, inside⟩

theorem jobs_suit (suit : c.SettingsSuit g) (distinct : g.ids.Nodup)
    (found : sequence (adjacency g.nodes g.links) = .ok order) (able : c.Synthesizes order g)
    (e : String × JobInput) (member : e ∈ (c.compiled header order g).jobInputs.entries) :
    e.2.value.suits e.2.isDirectory = true := by
  obtain ⟨n, step, written⟩ := mem_of_mem_flatMap_settled (c.jobEntries g.links _) e member
  obtain ⟨b, bound, rfl⟩ := List.mem_map.1 written
  obtain ⟨⟨p, listed⟩, -⟩ := able.emits n step
  have filled := (fillSettings_eq_ok_iff c order g distinct _).2 ⟨⟨able.fills, able.inlines⟩, rfl⟩
  have emitted : c.settled order g n ∈ stepNodes order (g.nodes.map (c.settled order g)) := by
    rw [stepNodes_map _ (c.settled_bare order g)]
    exact List.mem_map_of_mem step
  have tool : c.pluginOf (c.settled order g n) = .ok p :=
    (c.pluginOf_congr (c.settled_bare order g n)).trans listed
  obtain ⟨inputs, outputs⟩ := suit order _ found filled _ emitted p tool
  rw [boundPorts, c.plugin_of_ok _ p tool, List.mem_append] at bound
  rcases bound with input | output
  · obtain ⟨d, kept, rfl⟩ := List.mem_map.1 input
    obtain ⟨declared, valued⟩ := List.mem_filter.1 kept
    exact inputs d declared valued
  · obtain ⟨d, declared, rfl⟩ := List.mem_map.1 output
    exact outputs d declared

theorem binding_of_boundPort (links : List Link) (nodes : List Node) (n : Node) (b : BoundPort)
    (bound : b ∈ c.boundPorts links nodes n) :
    ∃ d ∈ (c.plugin n).inputs ++ (c.plugin n).outputs, b.port = d.name := by
  rw [boundPorts, List.mem_append] at bound
  rcases bound with input | output
  · obtain ⟨d, kept, rfl⟩ := List.mem_map.1 input
    exact ⟨d, List.mem_append_left _ (List.mem_filter.1 kept).1, rfl⟩
  · obtain ⟨d, declared, rfl⟩ := List.mem_map.1 output
    exact ⟨d, List.mem_append_right _ declared, rfl⟩

/-- The key of a bound job input is among the workflow's inputs. -/
theorem hasField_inputs_jobKey (n : Node) (step : n ∈ stepNodes order g.nodes) (b : BoundPort)
    (bound : b ∈ c.boundPorts g.links (g.nodes.map (c.settled order g)) (c.settled order g n)) :
    Document.hasField (Document.field (c.compiled header order g).document "inputs")
      (jobKey (c.stepName n) b.port) = true := by
  have inputs : Document.field (c.compiled header order g).document "inputs" =
      (c.compiled header order g).inputs.toObject fun t => .object [("type", .str t.text)] := rfl
  have named := c.stepName_congr (c.settled_bare order g n)
  have known : jobKey (c.stepName n) b.port ∈ (c.compiled header order g).inputs.keys := by
    unfold compiled workflowOf
    dsimp only
    rw [OrderedMap.mem_keys_ofList]
    apply List.mem_map_of_mem (a := b.typeEntry (c.stepName n))
    apply List.mem_flatMap.2
    refine ⟨c.settled order g n, List.mem_map_of_mem step, ?_⟩
    rw [typeEntries, named]
    exact List.mem_map_of_mem bound
  rw [inputs, Document.hasField_toObject_iff]
  exact known

/-- Every source of a step belongs to an input of its tool and leads somewhere. -/
theorem resolves_of_source (editor : c.order = Plugin.editorOrder) (slugged : c.sanitize = slug)
    (valid : g.IsOrder order) (distinct : g.ids.Nodup) (n : Node)
    (step : n ∈ stepNodes order g.nodes) (referable : (c.plugin n).Referable)
    (source : String × String) (written : source ∈ (c.stepAt header order g n).sources.entries) :
    source.1 ∈ (c.stepAt header order g n).run.inputs.keys ∧
      Document.Resolves (c.compiled header order g).document source.2 := by
  rw [mem_keys_run_inputs_iff]
  rw [c.sources_stepAt] at written
  rcases List.mem_append.1 (OrderedMap.mem_of_mem_entries_ofList _ source written) with
    job | wired
  · obtain ⟨b, bound, rfl⟩ := List.mem_map.1 job
    obtain ⟨d, listed, same⟩ := binding_of_boundPort _ _ _ b bound
    rw [c.plugin_congr (c.settled_bare order g n), List.mem_append] at listed
    have plain : '/' ∉ b.port.toList := by
      rw [same]
      exact listed.elim (referable.inputs d) (referable.outputs d)
    constructor
    · change b.port ∈ _ ∨ b.port ∈ _
      rw [same]
      exact listed.imp List.mem_map_of_mem List.mem_map_of_mem
    · exact .inr ⟨slash_not_mem_jobKey slugged n b.port plain,
        hasField_inputs_jobKey n step b bound⟩
  · obtain ⟨a, arrived, rfl⟩ := List.mem_map.1 wired
    have offered := @offers_of_arrival c header order g valid distinct editor n step a arrived
    have declared := inlet_of_arrival editor n a arrived
    exact ⟨.inl declared, .inl ⟨c.stepName a.source, a.outlet, rfl,
      slash_not_mem_stepName slugged a.source, offered⟩⟩

theorem accepts_stepAt (version : isCwlVersion header.stepCwlVersion = true) (n : Node)
    (referable : (c.plugin n).Referable) :
    Schema.step.Accepts (c.stepAt header order g n).toValue := by
  apply Schema.accepts_step
  · apply Schema.accepts_tool
    · exact version
    · intro e declared
      rw [c.run_inputs_stepAt] at declared
      rcases List.mem_append.1 (OrderedMap.mem_of_mem_entries_ofList _ e declared) with
        input | output
      · obtain ⟨b, -, rfl⟩ := List.mem_map.1 input
        exact Schema.accepts_flag b.name
      · obtain ⟨b, -, rfl⟩ := List.mem_map.1 output
        exact Schema.accepts_flag b.name
  · rw [c.out_stepAt]
    exact referable.distinct

/-- Each output of the workflow refers to an output of a step. -/
theorem refers_of_output (slugged : c.sanitize = slug) (once : order.Nodup)
    (referable : ∀ n ∈ stepNodes order g.nodes, (c.plugin n).Referable)
    (e : String × WorkflowOutput) (member : e ∈ (c.compiled header order g).outputs.entries) :
    Pattern.stepOutput.matches e.2.source = true ∧
      ∃ step port, e.2.source = outputRef step port ∧ '/' ∉ step.toList ∧
        Document.Offers (c.compiled header order g).document step port := by
  obtain ⟨n, step, written⟩ := mem_of_mem_flatMap_settled c.outputEntries e member
  rw [outputEntries, c.stepName_congr (c.settled_bare order g n),
    c.plugin_congr (c.settled_bare order g n)] at written
  obtain ⟨b, declared, rfl⟩ := List.mem_map.1 written
  have plain := slash_not_mem_stepName slugged n
  constructor
  · exact matches_outputRef (c.stepName n) b.name plain (stepName_ne_empty n)
      ((referable n step).outputs b declared) ((referable n step).named b declared)
  · refine ⟨c.stepName n, b.name, rfl, plain, ?_⟩
    rw [offers_iff once n step]
    exact List.mem_map_of_mem declared

theorem validate_compiled (editor : c.order = Plugin.editorOrder) (slugged : c.sanitize = slug)
    (distinct : g.ids.Nodup) (found : sequence (adjacency g.nodes g.links) = .ok order)
    (able : c.Synthesizes order g) (versions : header.Valid)
    (referable : ∀ n ∈ stepNodes order g.nodes, (c.plugin n).Referable)
    (suit : c.SettingsSuit g) :
    Document.validate (c.compiled header order g).document = .ok () := by
  have valid := isOrder_of_sequence g distinct order found
  have steps : ∀ e ∈ (c.compiled header order g).orderedSteps.entries,
      ∃ n ∈ stepNodes order g.nodes, e = (c.stepName n, c.stepAt header order g n) := by
    intro e member
    rw [c.orderedSteps_compiled header order g valid.nodup,
      c.entries_steps_compiled header order g valid.nodup] at member
    obtain ⟨n, step, rfl⟩ := List.mem_map.1 member
    exact ⟨n, step, rfl⟩
  have outputs := @refers_of_output c header order g slugged valid.nodup referable
  apply Document.validate_eq_ok
  · apply Schema.accepts_document _ versions (jobs_suit suit distinct found able)
    · intro e member
      exact (outputs e member).1
    · intro e member
      obtain ⟨n, step, rfl⟩ := steps e member
      exact accepts_stepAt versions.stepVersion n (referable n step)
  · intro e member source written
    obtain ⟨n, step, rfl⟩ := steps e member
    exact resolves_of_source editor slugged valid distinct n step (referable n step) source written
  · intro e member
    exact (outputs e member).2

end Catalog

/-- The compiler and the validator agree: with the usual choices, a compiled document is valid when
port names can be referred to and the settings suit their ports. -/
theorem compiled_document_validates (plugins : List Plugin) (header : Header) (strict : Bool)
    (g : Graph) (distinct : g.ids.Nodup) (referable : ∀ p ∈ plugins, p.Referable)
    (versions : header.Valid) (suit : (Catalog.ofPlugins plugins).SettingsSuit g) (w : Workflow)
    (made : toWorkflow (Catalog.ofPlugins plugins) header strict g = .ok w) :
    ∃ document, w.document? = .ok document ∧ Document.validate document = .ok () := by
  generalize usual : Catalog.ofPlugins plugins = c at suit made
  obtain ⟨-, order, found, -, able, rfl⟩ :=
    (c.toWorkflow_eq_ok_iff header strict g distinct w).1 made
  have once := (isOrder_of_sequence g distinct order found).nodup
  have referableAt : ∀ n ∈ stepNodes order g.nodes, (c.plugin n).Referable := by
    intro n step
    obtain ⟨⟨p, listed⟩, -⟩ := able.emits n step
    have among := c.mem_of_pluginOf n p listed
    rw [c.plugin_of_ok n p listed]
    rw [← usual] at among
    exact referable p among
  refine ⟨_, c.document?_compiled header order g once, ?_⟩
  exact Catalog.validate_compiled (usual ▸ rfl) (usual ▸ rfl) distinct found able versions
    referableAt suit

theorem relay_settingsSuit : relayCatalog.SettingsSuit relayGraph := by
  have distinct : relayGraph.ids.Nodup := by decide
  have suited : ∀ n ∈ stepNodes [3, 1, 2]
      (relayGraph.nodes.map (relayCatalog.settled [3, 1, 2] relayGraph)),
      relayCatalog.pluginOf n = .ok relayPlugin ∧
        (∀ b ∈ relayPlugin.inputs, hasValue (n.input b.name) = true →
          (n.input b.name).suits b.isDirectory = true) ∧
        ∀ b ∈ relayPlugin.outputs, (n.output b.name).suits b.isDirectory = true := by
    decide +kernel
  intro order filled found settled n step p tool
  rw [relay_sequence] at found
  cases found
  rw [fillSettings_eq_ok_iff relayCatalog _ relayGraph distinct] at settled
  rw [settled.2] at step
  obtain ⟨same, fits⟩ := suited n step
  rw [same] at tool
  cases tool
  exact fits

theorem compiled_document_validates_relay :
    ∃ w document, toWorkflow (.ofPlugins [relayPlugin]) .default true relayGraph = .ok w ∧
      w.document? = .ok document ∧ Document.validate document = .ok () := by
  obtain ⟨w, made⟩ := relay_compiles
  have distinct : relayGraph.ids.Nodup := by decide
  have referable : ∀ p ∈ [relayPlugin], p.Referable := by
    intro p listed
    rw [List.mem_singleton.1 listed]
    constructor <;> decide +kernel
  have versions : Header.default.Valid := ⟨by decide, by decide⟩
  obtain ⟨document, written, valid⟩ := compiled_document_validates [relayPlugin] .default true
    relayGraph distinct referable versions relay_settingsSuit w made
  exact ⟨w, document, made, written, valid⟩

end PipelineCompiler
