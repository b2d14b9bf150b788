import PipelineCompiler.Proofs.Expression
import PipelineCompiler.Proofs.Replacement

set_option autoImplicit false

namespace PipelineCompiler

/-- Where a document declares the type of a parameter. -/
inductive TypePlace where
  | input (key : String)
  | output (key : String)
  | toolInput (step port : String)
  | toolOutput (step port : String)
  deriving Repr, DecidableEq

def TypePlace.path : TypePlace → List String
  | .input key => ["inputs", key, "type"]
  | .output key => ["outputs", key, "type"]
  | .toolInput step port => ["steps", step, "run", "inputs", port, "type"]
  | .toolOutput step port => ["steps", step, "run", "outputs", port, "type"]

namespace Schema

/-- All four kinds of places have one form. -/
theorem workflow_leads (place : TypePlace) :
    workflow.Leads place.path (textOf .parameterType) := by
  have steps : workflow.Governs "steps" (mapOf step) := governs_record (by decide) (by simp)
  have run : step.Governs "run" tool := governs_closedRecord (by decide) (by simp)
  cases place with
  | input key =>
    have inputs : workflow.Governs "inputs" (mapOf parameter) :=
      governs_record (by decide) (by simp)
    have type : parameter.Governs "type" (textOf .parameterType) :=
      governs_record (by decide) (by simp)
    exact .through inputs (.through governs_mapOf (.through type .here))
  | output key =>
    have outputs : workflow.Governs "outputs" (mapOf workflowOutput) :=
      governs_record (by decide) (by simp)
    have type : workflowOutput.Governs "type" (textOf .parameterType) :=
      governs_record (by decide) (by simp)
    exact .through outputs (.through governs_mapOf (.through type .here))
  | toolInput id port =>
    have inputs : tool.Governs "inputs" (mapOf toolInput) := governs_record (by decide) (by simp)
    have type : toolInput.Governs "type" (textOf .parameterType) :=
      governs_closedRecord (by decide) (by simp)
    exact .through steps (.through governs_mapOf (.through run
      (.through inputs (.through governs_mapOf (.through type .here)))))
  | toolOutput id port =>
    have outputs : tool.Governs "outputs" (mapOf toolOutput) :=
      governs_record (by decide) (by simp)
    have type : toolOutput.Governs "type" (textOf .parameterType) :=
      governs_closedRecord (by decide) (by simp)
    exact .through steps (.through governs_mapOf (.through run
      (.through outputs (.through governs_mapOf (.through type .here)))))

end Schema

namespace Document

theorem field_setField_self {v u w : Value} {name : String} (found : v.field? name = some u) :
    field (v.setField name w) name = w :=
  field_of_field? (Value.field?_setField_self found)

theorem field_setField_of_ne {v w : Value} {name other : String} (apart : other ≠ name) :
    field (v.setField name w) other = field v other := by
  rw [field, field, Value.field?_setField_of_ne apart]

theorem map_fields_setField {α : Type} {v u : Value} {name : String} (w : Value)
    (f : String × Value → α) (found : v.field? name = some u) (same : f (name, w) = f (name, u)) :
    (fields (v.setField name w)).map f = (fields v).map f := by
  obtain ⟨entries, rfl, found⟩ := Value.exists_object_of_field? found
  exact OrderedMap.map_entries_insert ⟨entries⟩ name w u f found same

theorem field?_eq_lookup (v : Value) (name : String) :
    v.field? name = OrderedMap.lookup name (fields v) := by
  cases v <;> rfl

def names (v : Value) : List String := (fields v).map Prod.fst

theorem names_setField {v u : Value} {name : String} (w : Value)
    (found : v.field? name = some u) : names (v.setField name w) = names v :=
  map_fields_setField w Prod.fst found rfl

theorem hasField_iff_mem_names (v : Value) (name : String) :
    hasField v name = true ↔ name ∈ names v := by
  rw [hasField, field?_eq_lookup]
  exact (OrderedMap.mem_keys_iff_contains ⟨fields v⟩ name).symm

/-- What the references of a step are read from. -/
structure StepConnections where
  bindings : Value
  declared : List String
  out : Value
  deriving DecidableEq

def stepConnections (step : Value) : StepConnections :=
  { bindings := field step "in"
    declared := names (field (field step "run") "inputs")
    out := field step "out" }

/-- What the references of a document are read from. -/
structure Connections where
  inputs : List String
  steps : List (String × StepConnections)
  sources : List (Option Value)
  deriving DecidableEq

def connections (document : Value) : Connections :=
  { inputs := names (field document "inputs")
    steps := (fields (field document "steps")).map fun s => (s.1, stepConnections s.2)
    sources := (fields (field document "outputs")).map fun o => o.2.field? "outputSource" }

section Connections

variable {document changed : Value}

theorem Offers.congr (same : connections changed = connections document) {id port : String}
    (offers : Offers document id port) : Offers changed id port := by
  obtain ⟨step, found, produced⟩ := offers
  rw [step?, field?_eq_lookup] at found
  have read (d : Value) : OrderedMap.lookup id (connections d).steps =
      (OrderedMap.lookup id (fields (field d "steps"))).map stepConnections :=
    OrderedMap.get?_map stepConnections ⟨fields (field d "steps")⟩ id
  have there := read changed
  rw [same, read document, found] at there
  obtain ⟨step', found', alike⟩ := Option.map_eq_some_iff.1 there.symm
  have out : field step' "out" = field step "out" := congrArg StepConnections.out alike
  refine ⟨step', ?_, ?_⟩
  · rw [step?, field?_eq_lookup, found']
  · rwa [produces, out]

theorem Resolves.congr (same : connections changed = connections document) {source : String}
    (resolves : Resolves document source) : Resolves changed source := by
  have inputs : names (field changed "inputs") = names (field document "inputs") :=
    congrArg Connections.inputs same
  rcases resolves with ⟨step, port, rfl, plain, offered⟩ | ⟨plain, fed⟩
  · exact .inl ⟨step, port, rfl, plain, offered.congr same⟩
  · refine .inr ⟨plain, ?_⟩
    rwa [hasField_iff_mem_names, inputs, ← hasField_iff_mem_names]

/-- Whether references lead anywhere depends on what they are read from alone. -/
theorem Closed.congr (same : connections changed = connections document)
    (closed : Closed document) : Closed changed := by
  constructor
  · intro step member port among
    have listed : (step.1, stepConnections step.2) ∈ (connections document).steps :=
      same ▸ List.mem_map_of_mem member
    obtain ⟨old, oldMember, alike⟩ := List.mem_map.1 listed
    have alike : stepConnections old.2 = stepConnections step.2 := congrArg Prod.snd alike
    have bindings : field old.2 "in" = field step.2 "in" := congrArg StepConnections.bindings alike
    have declared : names (field (field old.2 "run") "inputs") =
        names (field (field step.2 "run") "inputs") := congrArg StepConnections.declared alike
    obtain ⟨known, source, found, resolves⟩ :=
      closed.sources old oldMember port (bindings ▸ among)
    refine ⟨?_, source, found, resolves.congr same⟩
    rw [hasField_iff_mem_names] at known ⊢
    exact declared ▸ known
  · intro output member
    have listed : output.2.field? "outputSource" ∈ (connections document).sources :=
      same ▸ List.mem_map_of_mem member
    obtain ⟨old, oldMember, alike⟩ := List.mem_map.1 listed
    obtain ⟨step, port, found, plain, offers⟩ := closed.outputs old oldMember
    exact ⟨step, port, alike ▸ found, plain, offers.congr same⟩

theorem stepConnections_setField_run {step run w : Value} (found : step.field? "run" = some run)
    (same : names (field w "inputs") = names (field run "inputs")) :
    stepConnections (step.setField "run" w) = stepConnections step := by
  simp only [stepConnections, field_setField_self found, field_of_field? found, same,
    field_setField_of_ne (show "in" ≠ "run" by decide),
    field_setField_of_ne (show "out" ≠ "run" by decide)]

/-- A step whose references are read as before can replace another. -/
theorem connections_replaceAt_run {id : String} {path : List String} {steps step run w : Value}
    (foundSteps : document.field? "steps" = some steps) (foundStep : steps.field? id = some step)
    (foundRun : step.field? "run" = some run)
    (same : names (field (run.replaceAt path w) "inputs") = names (field run "inputs")) :
    connections (document.replaceAt ("steps" :: id :: "run" :: path) w) =
      connections document := by
  rw [Value.replaceAt_cons foundSteps, Value.replaceAt_cons foundStep,
    Value.replaceAt_cons foundRun]
  have kept := stepConnections_setField_run foundRun same
  simp only [connections, field_setField_self foundSteps, field_of_field? foundSteps,
    field_setField_of_ne (show "inputs" ≠ "steps" by decide),
    field_setField_of_ne (show "outputs" ≠ "steps" by decide)]
  rw [map_fields_setField _ _ foundStep (by rw [kept])]

/-- No reference is read from a type. -/
theorem connections_replaceAt (place : TypePlace) {v : Value}
    (there : document.at? place.path = some v) (w : Value) :
    connections (document.replaceAt place.path w) = connections document := by
  cases place with
  | input key =>
    obtain ⟨inputs, foundInputs, there⟩ := Value.at?_cons_eq_some_iff.1 there
    obtain ⟨parameter, foundParameter, -⟩ := Value.at?_cons_eq_some_iff.1 there
    rw [TypePlace.path, Value.replaceAt_cons foundInputs, Value.replaceAt_cons foundParameter]
    simp only [connections, field_setField_self foundInputs, field_of_field? foundInputs,
      names_setField _ foundParameter,
      field_setField_of_ne (show "steps" ≠ "inputs" by decide),
      field_setField_of_ne (show "outputs" ≠ "inputs" by decide)]
  | output key =>
    obtain ⟨outputs, foundOutputs, there⟩ := Value.at?_cons_eq_some_iff.1 there
    obtain ⟨output, foundOutput, there⟩ := Value.at?_cons_eq_some_iff.1 there
    obtain ⟨type, foundType, -⟩ := Value.at?_cons_eq_some_iff.1 there
    rw [TypePlace.path, Value.replaceAt_cons foundOutputs, Value.replaceAt_cons foundOutput,
      Value.replaceAt_cons foundType]
    simp only [connections, field_setField_self foundOutputs, field_of_field? foundOutputs,
      field_setField_of_ne (show "steps" ≠ "outputs" by decide),
      field_setField_of_ne (show "inputs" ≠ "outputs" by decide)]
    rw [map_fields_setField _ _ foundOutput
      (Value.field?_setField_of_ne (show "outputSource" ≠ "type" by decide))]
  | toolInput id port =>
    obtain ⟨steps, foundSteps, there⟩ := Value.at?_cons_eq_some_iff.1 there
    obtain ⟨step, foundStep, there⟩ := Value.at?_cons_eq_some_iff.1 there
    obtain ⟨run, foundRun, there⟩ := Value.at?_cons_eq_some_iff.1 there
    obtain ⟨declared, foundDeclared, there⟩ := Value.at?_cons_eq_some_iff.1 there
    obtain ⟨input, foundInput, -⟩ := Value.at?_cons_eq_some_iff.1 there
    apply connections_replaceAt_run foundSteps foundStep foundRun
    rw [Value.replaceAt_cons foundDeclared, Value.replaceAt_cons foundInput,
      field_setField_self foundDeclared, field_of_field? foundDeclared, names_setField _ foundInput]
  | toolOutput id port =>
    obtain ⟨steps, foundSteps, there⟩ := Value.at?_cons_eq_some_iff.1 there
    obtain ⟨step, foundStep, there⟩ := Value.at?_cons_eq_some_iff.1 there
    obtain ⟨run, foundRun, there⟩ := Value.at?_cons_eq_some_iff.1 there
    obtain ⟨declared, foundDeclared, -⟩ := Value.at?_cons_eq_some_iff.1 there
    apply connections_replaceAt_run foundSteps foundStep foundRun
    rw [Value.replaceAt_cons foundDeclared,
      field_setField_of_ne (show "inputs" ≠ "outputs" by decide)]

end Connections

end Document

/-- A valid document declares its parameters with texts in which the expression for types is found,
and stays valid exactly as long as it does. The expression admits the names of types, with and
without a question mark, and each of them once more with a line feed behind it. -/
theorem parameter_types_admitted_up_to_line_feed (document : Value)
    (valid : Document.validate document = .ok ()) (place : TypePlace) (v : Value)
    (there : document.at? place.path = some v) :
    (∃ s, v = .str s ∧ Pattern.parameterType.expression.FoundIn s) ∧
      (∀ w, Document.validate (document.replaceAt place.path w) = .ok () ↔
        ∃ s, w = .str s ∧ Pattern.parameterType.expression.FoundIn s) ∧
      ∀ s, Pattern.parameterType.expression.FoundIn s ↔
        IsTypeName s ∨ ∃ name, IsTypeName name ∧ s = name ++ "\n" := by
  obtain ⟨conforms, closed⟩ := (Document.validate_eq_ok_iff document).1 valid
  have replaced (w : Value) : Document.validate (document.replaceAt place.path w) = .ok () ↔
      ∃ s, w = .str s ∧ Pattern.parameterType.expression.FoundIn s := by
    have closed := closed.congr (Document.connections_replaceAt place there w)
    rw [Document.validate_eq_ok_iff, and_iff_left closed,
      (Schema.workflow_leads place).conforms_replaceAt_iff conforms there,
      Schema.Conforms.textOf_iff]
    simp only [Pattern.matches_iff_foundIn]
  refine ⟨?_, replaced, Pattern.foundIn_parameterType_iff⟩
  rw [← replaced v, Value.replaceAt_of_at? there]
  exact valid

def readerDocument : Value :=
  .object
    [("cwlVersion", .str "v1.0"), ("class", .str "Workflow"),
      ("cwlJobInputs", .object
        [("reader_1_path", .object [("class", .str "Directory"), ("location", .str "/data")])]),
      ("inputs", .object [("reader_1_path", .object [("type", .str "Directory")])]),
      ("outputs", .object
        [("reader_1_path", .object
          [("type", .str "Directory"), ("outputSource", .str "reader_1/path")])]),
      ("steps", .object
        [("reader_1", .object
          [("in", .object [("path", .object [("source", .str "reader_1_path")])]),
            ("run", .object
              [("baseCommand", .strings ["reader"]), ("class", .str "CommandLineTool"),
                ("cwlVersion", .str "v1.2"),
                ("inputs", .object
                  [("path", .object
                    [("inputBinding", .object [("prefix", .str "--path")]),
                      ("type", .str "Directory?")])]),
                ("outputs", .object
                  [("path", .object
                    [("outputBinding", .object [("glob", .str "$(inputs.path.basename)")]),
                      ("type", .str "Directory")])]),
                ("requirements", .object
                  [("DockerRequirement", .object [("dockerPull", .str "reader:latest")]),
                    ("InitialWorkDirRequirement", .object [("listing", .list [])])])]),
            ("out", .strings ["path"])])])]

theorem parameter_types_admitted_up_to_line_feed_reader :
    Document.validate readerDocument = .ok () ∧
      readerDocument.at? (TypePlace.toolInput "reader_1" "path").path = some (.str "Directory?") ∧
      ∀ w, Document.validate
          (readerDocument.replaceAt (TypePlace.toolInput "reader_1" "path").path w) = .ok () ↔
        ∃ s, w = .str s ∧ Pattern.parameterType.expression.FoundIn s := by
  have valid : Document.validate readerDocument = .ok () := by decide +kernel
  have there : readerDocument.at? (TypePlace.toolInput "reader_1" "path").path =
      some (.str "Directory?") := by decide +kernel
  exact ⟨valid, there,
    (parameter_types_admitted_up_to_line_feed readerDocument valid _ _ there).2.1⟩

/-- A valid document can declare a parameter with what is no name of a type. -/
theorem type_with_line_feed_admitted :
    ∃ document, Document.validate document = .ok () ∧
      document.at? (TypePlace.input "reader_1_path").path = some (.str "string\n") ∧
      ¬ IsTypeName "string\n" := by
  have there : readerDocument.at? (TypePlace.input "reader_1_path").path =
      some (.str "Directory") := by decide +kernel
  refine ⟨readerDocument.replaceAt (TypePlace.input "reader_1_path").path (.str "string\n"),
    ?_, Value.at?_replaceAt there, ?_⟩
  · decide +kernel
  · rintro ⟨t, same⟩
    cases t <;> revert same <;> decide +kernel

end PipelineCompiler
