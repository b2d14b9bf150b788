import Mathlib.Data.List.TakeWhile
import PipelineCompiler.Proofs.Document
import PipelineCompiler.Proofs.SchemaMeaning

set_option autoImplicit false

namespace PipelineCompiler

theorem toList_outputRef (step port : String) :
    (outputRef step port).toList = step.toList ++ '/' :: port.toList := by
  simp [outputRef, String.toList_append]

theorem ne_slash_of_mem (s : List Char) (plain : '/' ∉ s) : ∀ c ∈ s, decide (c ≠ '/') = true := by
  intro c member
  exact decide_eq_true fun slash => plain (slash ▸ member)

theorem takeWhile_outputRef (step port : String) (plain : '/' ∉ step.toList) :
    (outputRef step port).toList.takeWhile (· ≠ '/') = step.toList := by
  rw [toList_outputRef, List.takeWhile_append_of_pos (ne_slash_of_mem _ plain)]
  simp

theorem dropWhile_outputRef (step port : String) (plain : '/' ∉ step.toList) :
    (outputRef step port).toList.dropWhile (· ≠ '/') = '/' :: port.toList := by
  rw [toList_outputRef, List.dropWhile_append_of_pos (ne_slash_of_mem _ plain)]
  simp

/-- A reference can be taken apart where the name of the step has no slash. -/
theorem Document.splitReference_outputRef (step port : String) (plain : '/' ∉ step.toList) :
    Document.splitReference (outputRef step port) = (step, port) := by
  unfold splitReference
  rw [takeWhile_outputRef step port plain, dropWhile_outputRef step port plain]
  simp

/-- Whatever has a slash refers to an output: the step is named before the first one. -/
theorem exists_outputRef (reference : String) (slash : '/' ∈ reference.toList) :
    ∃ step port, reference = outputRef step port ∧ '/' ∉ step.toList := by
  obtain ⟨before, after, cut, plain⟩ := List.eq_append_cons_of_mem slash
  refine ⟨String.ofList before, String.ofList after, ?_, by rwa [String.toList_ofList]⟩
  apply String.toList_injective
  rw [toList_outputRef, String.toList_ofList, String.toList_ofList, cut]

theorem slash_mem_outputRef (step port : String) : '/' ∈ (outputRef step port).toList := by
  simp [toList_outputRef]

theorem matches_outputRef (step port : String) (plain : '/' ∉ step.toList) (named : step ≠ "")
    (portPlain : '/' ∉ port.toList) (portNamed : port ≠ "") :
    Pattern.stepOutput.matches (outputRef step port) = true := by
  have stepFull : step.toList.isEmpty = false := by
    rw [List.isEmpty_eq_false_iff]
    exact fun empty => named (String.toList_injective empty)
  have portFull : port.toList.isEmpty = false := by
    rw [List.isEmpty_eq_false_iff]
    exact fun empty => portNamed (String.toList_injective empty)
  have slashFree : port.toList.contains '/' = false := by simpa using portPlain
  unfold Pattern.matches
  simp only [dropWhile_outputRef step port plain, takeWhile_outputRef step port plain, stepFull,
    portFull, slashFree, Bool.not_false, Bool.and_self]

theorem slash_mem_of_matches (s : String) (fits : Pattern.stepOutput.matches s = true) :
    '/' ∈ s.toList := by
  by_contra plain
  have none : s.toList.dropWhile (· ≠ '/') = [] :=
    List.dropWhile_eq_nil_iff.2 (ne_slash_of_mem _ plain)
  unfold Pattern.matches at fits
  simp only [none] at fits
  cases fits

namespace Document

/-- A source that validation can follow. -/
def Resolves (document : Value) (source : String) : Prop :=
  (∃ step port, source = outputRef step port ∧ '/' ∉ step.toList ∧ Offers document step port) ∨
    ('/' ∉ source.toList ∧ hasField (field document "inputs") source = true)

theorem referenceFault?_eq_none_iff (document : Value) (step port : String)
    (plain : '/' ∉ step.toList) :
    referenceFault? (field document "steps") (outputRef step port) = none ↔
      Offers document step port := by
  unfold referenceFault? Offers step?
  rw [splitReference_outputRef step port plain]
  dsimp only
  cases (field document "steps").field? step with
  | none => simp
  | some value => simp

/-- With a slash a source resolves as an output, and without one as a workflow input. -/
theorem resolves_outputRef_iff (document : Value) (step port : String)
    (plain : '/' ∉ step.toList) :
    Resolves document (outputRef step port) ↔ Offers document step port := by
  constructor
  · rintro (⟨step', port', same, plain', offered⟩ | ⟨slashFree, -⟩)
    · have parts := congrArg splitReference same
      rw [splitReference_outputRef step port plain,
        splitReference_outputRef step' port' plain', Prod.mk.injEq] at parts
      rwa [parts.1, parts.2]
    · exact absurd (slash_mem_outputRef step port) slashFree
  · intro offered
    exact .inl ⟨step, port, rfl, plain, offered⟩

theorem resolves_plain_iff (document : Value) (source : String) (plain : '/' ∉ source.toList) :
    Resolves document source ↔ hasField (field document "inputs") source = true := by
  constructor
  · rintro (⟨step, port, rfl, -⟩ | ⟨-, fed⟩)
    · exact absurd (slash_mem_outputRef step port) plain
    · exact fed
  · intro fed
    exact .inr ⟨plain, fed⟩

theorem checkPort_eq_none_iff (document : Value) (id : String) (declared : Value)
    (port source : String) (fed : Value) (read : text (field fed "source") = source) :
    checkPort document id declared port fed = none ↔
      hasField declared port = true ∧ Resolves document source := by
  unfold checkPort
  rw [read]
  cases hasField declared port with
  | false => simp
  | true =>
    by_cases slash : '/' ∈ source.toList
    · obtain ⟨step, outlet, rfl, plain⟩ := exists_outputRef source slash
      rw [resolves_outputRef_iff document step outlet plain,
        ← referenceFault?_eq_none_iff document step outlet plain]
      simp [slash]
    · rw [resolves_plain_iff document source slash]
      simp [slash]

structure ReadableStep (step : Value) : Prop where
  declares : ∃ run declared, step.field? "run" = some run ∧
    run.field? "inputs" = some (.object declared)
  binds : ∃ bindings, step.field? "in" = some (.object bindings) ∧
    ∀ b ∈ bindings, ∃ source, b.2.field? "source" = some (.str source)
  offers : ∃ out, step.field? "out" = some (.list out)

structure Readable (document : Value) : Prop where
  inputs : ∃ inputs, document.field? "inputs" = some (.object inputs)
  steps : ∃ steps, document.field? "steps" = some (.object steps) ∧
    ∀ s ∈ steps, ReadableStep s.2
  outputs : ∃ outputs, document.field? "outputs" = some (.object outputs) ∧
    ∀ o ∈ outputs, ∃ source, o.2.field? "outputSource" = some (.str source) ∧
      '/' ∈ source.toList

theorem readableStep_of_conforms {step : Value} (conforms : Schema.step.Conforms step) :
    ReadableStep step := by
  constructor
  · obtain ⟨run, found, tool⟩ : ∃ w, step.field? "run" = some w ∧ Schema.tool.Conforms w :=
      conforms.closedRecord_field (by simp) (by simp)
    obtain ⟨inputs, foundInputs, map⟩ : ∃ w, run.field? "inputs" = some w ∧
        (Schema.mapOf Schema.toolInput).Conforms w := tool.record_field (by simp) (by simp)
    obtain ⟨declared, rfl, -⟩ := map.exists_entries
    exact ⟨run, declared, found, foundInputs⟩
  · obtain ⟨bindings, found, map⟩ : ∃ w, step.field? "in" = some w ∧
        (Schema.mapOf (Schema.closedRecord [("source", Schema.text)] ["source"])).Conforms w :=
      conforms.closedRecord_field (by simp) (by simp)
    obtain ⟨bindings, rfl, bound⟩ := map.exists_entries
    refine ⟨bindings, found, fun b member => ?_⟩
    obtain ⟨source, foundSource, isText⟩ : ∃ w, b.2.field? "source" = some w ∧
        Schema.text.Conforms w := (bound b member).closedRecord_field (by simp) (by simp)
    obtain ⟨source, rfl⟩ := isText.exists_str
    exact ⟨source, foundSource⟩
  · obtain ⟨out, found, list⟩ : ∃ w, step.field? "out" = some w ∧
        (Schema.all [.kinds [.array], .items Schema.text, .unique]).Conforms w :=
      conforms.closedRecord_field (by simp) (by simp)
    obtain ⟨out, rfl⟩ := (Schema.Conforms.all_iff.1 list _ List.mem_cons_self).exists_list
    exact ⟨out, found⟩

theorem readable_of_conforms {document : Value} (conforms : Schema.workflow.Conforms document) :
    Readable document := by
  constructor
  · obtain ⟨inputs, found, map⟩ : ∃ w, document.field? "inputs" = some w ∧
        (Schema.mapOf Schema.parameter).Conforms w := conforms.record_field (by simp) (by simp)
    obtain ⟨inputs, rfl, -⟩ := map.exists_entries
    exact ⟨inputs, found⟩
  · obtain ⟨steps, found, map⟩ : ∃ w, document.field? "steps" = some w ∧
        (Schema.mapOf Schema.step).Conforms w := conforms.record_field (by simp) (by simp)
    obtain ⟨steps, rfl, each⟩ := map.exists_entries
    exact ⟨steps, found, fun s member => readableStep_of_conforms (each s member)⟩
  · obtain ⟨outputs, found, map⟩ : ∃ w, document.field? "outputs" = some w ∧
        (Schema.mapOf Schema.workflowOutput).Conforms w :=
      conforms.record_field (by simp) (by simp)
    obtain ⟨outputs, rfl, each⟩ := map.exists_entries
    refine ⟨outputs, found, fun o member => ?_⟩
    obtain ⟨source, foundSource, text⟩ : ∃ w, o.2.field? "outputSource" = some w ∧
        (Schema.textOf .stepOutput).Conforms w :=
      (each o member).record_field (by simp) (by simp)
    obtain ⟨source, rfl, fits⟩ := text.exists_matching
    exact ⟨source, foundSource, slash_mem_of_matches source fits⟩

/-- Every reference of the document leads somewhere: sources of steps, at ports that their tools
declare, to workflow inputs and outputs of steps, and workflow outputs to outputs of steps. -/
structure Closed (document : Value) : Prop where
  sources : ∀ step ∈ fields (field document "steps"), ∀ port ∈ fields (field step.2 "in"),
    hasField (field (field step.2 "run") "inputs") port.1 = true ∧
      ∃ source, port.2.field? "source" = some (.str source) ∧ Resolves document source
  outputs : ∀ output ∈ fields (field document "outputs"), ∃ step port,
    output.2.field? "outputSource" = some (.str (outputRef step port)) ∧ '/' ∉ step.toList ∧
      Offers document step port

theorem field_of_field? {v w : Value} {name : String} (found : v.field? name = some w) :
    field v name = w := by
  rw [field, found]
  rfl

theorem checkStepSources_eq_none_iff {document : Value} (readable : Readable document) :
    checkStepSources document = none ↔
      ∀ step ∈ fields (field document "steps"), ∀ port ∈ fields (field step.2 "in"),
        hasField (field (field step.2 "run") "inputs") port.1 = true ∧
          ∃ source, port.2.field? "source" = some (.str source) ∧ Resolves document source := by
  obtain ⟨steps, foundSteps, each⟩ := readable.steps
  unfold checkStepSources checkStep
  simp only [List.findSome?_eq_none_iff, field_of_field? foundSteps, fields]
  refine forall₂_congr fun step member => ?_
  obtain ⟨bindings, foundBindings, bound⟩ := (each step member).binds
  rw [field_of_field? foundBindings]
  refine forall₂_congr fun port among => ?_
  obtain ⟨source, foundSource⟩ := bound port among
  have read : text (field port.2 "source") = source := by rw [field_of_field? foundSource, text]
  rw [checkPort_eq_none_iff _ _ _ _ source _ read, foundSource]
  simp

theorem checkOutputSources_eq_none_iff {document : Value} (readable : Readable document) :
    checkOutputSources document = none ↔
      ∀ output ∈ fields (field document "outputs"), ∃ step port,
        output.2.field? "outputSource" = some (.str (outputRef step port)) ∧
          '/' ∉ step.toList ∧ Offers document step port := by
  obtain ⟨outputs, foundOutputs, each⟩ := readable.outputs
  unfold checkOutputSources
  simp only [List.findSome?_eq_none_iff, field_of_field? foundOutputs, fields,
    Option.map_eq_none_iff]
  refine forall₂_congr fun output member => ?_
  obtain ⟨source, foundSource, slash⟩ := each output member
  obtain ⟨step, port, rfl, plain⟩ := exists_outputRef source slash
  rw [field_of_field? foundSource, text, referenceFault?_eq_none_iff document step port plain,
    foundSource]
  constructor
  · intro offered
    exact ⟨step, port, rfl, plain, offered⟩
  · rintro ⟨step', port', same, plain', offered⟩
    have same : outputRef step port = outputRef step' port' := by simpa using same
    exact (resolves_outputRef_iff document step port plain).1
      (.inl ⟨step', port', same, plain', offered⟩)

/-- A document is valid when it conforms and no reference in it leads nowhere. -/
theorem validate_eq_ok_iff (document : Value) :
    validate document = .ok () ↔ Schema.workflow.Conforms document ∧ Closed document := by
  rw [← Schema.accepts_iff_conforms, validate, violation?, Schema.Accepts]
  cases checked : Schema.workflow.check document with
  | some d => simp
  | none =>
    have readable := readable_of_conforms ((Schema.accepts_iff_conforms _ _).1 checked)
    have closed : Closed document ↔
        checkStepSources document = none ∧ checkOutputSources document = none := by
      rw [checkStepSources_eq_none_iff readable, checkOutputSources_eq_none_iff readable]
      exact ⟨fun closed => ⟨closed.sources, closed.outputs⟩, fun parts => ⟨parts.1, parts.2⟩⟩
    rw [closed]
    cases checkStepSources document with
    | some v => simp
    | none => cases checkOutputSources document <;> simp

end Document

/-- Where reading a value fails. -/
inductive Misuse where
  | absent (name : String)
  | unlike (kind : Kind) (v : Value)
  deriving Repr, DecidableEq

/-- What ends a validation before it is through. -/
inductive Stop where
  | misuse (m : Misuse)
  | violation (v : Violation)
  deriving Repr, DecidableEq

namespace Document

def readEntries : Value → Except Stop (List (String × Value))
  | .object entries => .ok entries
  | v => .error (.misuse (.unlike .object v))

def readItems : Value → Except Stop (List Value)
  | .list items => .ok items
  | v => .error (.misuse (.unlike .array v))

def readText : Value → Except Stop String
  | .str s => .ok s
  | v => .error (.misuse (.unlike .string v))

def readField (v : Value) (name : String) : Except Stop Value := do
  match OrderedMap.lookup name (← readEntries v) with
  | some w => .ok w
  | none => .error (.misuse (.absent name))

def refuse : Option Violation → Except Stop Unit
  | some v => .error (.violation v)
  | none => .ok ()

def readOutputs (step : Value) : Except Stop (List Value) := do
  (OrderedMap.lookup "out" (← readEntries step)).elim (.ok []) readItems

def followReference (steps : Value) (reference : String) :
    Except Stop (Option ReferenceFault) := do
  let (step, port) := splitReference reference
  match OrderedMap.lookup step (← readEntries steps) with
  | none => .ok (some (.unknownStep reference step))
  | some s =>
    let out ← readOutputs s
    .ok (if out.contains (.str port) then none else some (.unknownOutput reference step port))

def followPort (steps inputs : Value) (id : String) (declared : Value) (port : String)
    (binding : Value) : Except Stop Unit := do
  let declared ← readEntries declared
  if (OrderedMap.lookup port declared).isNone then
    refuse (some (.undeclaredPort id port (declared.map Prod.fst)))
  else
    let source ← readText (← readField binding "source")
    if source.toList.contains '/' then
      refuse ((← followReference steps source).map (.stepSource id port))
    else if (OrderedMap.lookup source (← readEntries inputs)).isSome then .ok ()
    else refuse (some (.undeclaredInput id port source))

def followStep (steps inputs : Value) (id : String) (step : Value) : Except Stop Unit := do
  let declared ← readField (← readField step "run") "inputs"
  forM (← readEntries (← readField step "in")) fun b =>
    followPort steps inputs id declared b.1 b.2

def followStepSources (document : Value) : Except Stop Unit := do
  let steps ← readField document "steps"
  let inputs ← readField document "inputs"
  forM (← readEntries steps) fun s => followStep steps inputs s.1 s.2

def followOutputSource (document : Value) (key : String) (output : Value) : Except Stop Unit := do
  let reference ← readText (← readField output "outputSource")
  refuse ((← followReference (← readField document "steps") reference).map (.outputSource key))

def followOutputSources (document : Value) : Except Stop Unit := do
  forM (← readEntries (← readField document "outputs")) fun o =>
    followOutputSource document o.1 o.2

/-- Validation with every access guarded: none has a value to fall back on. -/
def follow (document : Value) : Except Stop Unit := do
  refuse ((Schema.workflow.check document).map .schema)
  followStepSources document
  followOutputSources document

/-- Before the schema is checked, reading can fail. -/
example : followStepSources (.object []) = .error (.misuse (.absent "steps")) := by
  rfl

section Follow

theorem readField_eq_ok {v w : Value} {name : String} (found : v.field? name = some w) :
    readField v name = .ok w := by
  cases v with
  | object entries =>
    change OrderedMap.lookup name entries = some w at found
    rw [readField, readEntries, ok_bind, found]
  | _ => cases found

theorem readOutputs_eq_ok {step : Value} {out : List Value}
    (offered : step.field? "out" = some (.list out)) : readOutputs step = .ok out := by
  cases step with
  | object entries =>
    change OrderedMap.lookup "out" entries = some (.list out) at offered
    rw [readOutputs, readEntries, ok_bind, offered]
    rfl
  | _ => cases offered

/-- A loop that stops at the first violation. -/
theorem forM_eq_refuse {α : Type} (turn : α → Except Stop Unit) (test : α → Option Violation)
    (xs : List α) (same : ∀ x ∈ xs, turn x = refuse (test x)) :
    forM xs turn = refuse (xs.findSome? test) := by
  induction xs with
  | nil => rfl
  | cons x rest ih =>
    rw [List.forall_mem_cons] at same
    rw [List.forM_cons, same.1, List.findSome?_cons]
    cases test x with
    | none => exact ih same.2
    | some v => rfl

variable {steps inputs : List (String × Value)}

/-- Where every step lists its outputs, a reference can be followed. -/
theorem followReference_eq_ok (each : ∀ s ∈ steps, ReadableStep s.2) (reference : String) :
    followReference (.object steps) reference =
      .ok (referenceFault? (.object steps) reference) := by
  unfold followReference referenceFault?
  simp only [readEntries, Value.field?, ok_bind]
  cases found : OrderedMap.lookup (splitReference reference).1 steps with
  | none => rfl
  | some s =>
    have member := OrderedMap.mem_entries_of_get? ⟨steps⟩ _ s found
    obtain ⟨out, offered⟩ := (each _ member).offers
    simp only [readOutputs_eq_ok offered, ok_bind, produces, field_of_field? offered]

theorem followPort_eq {document : Value} (each : ∀ s ∈ steps, ReadableStep s.2)
    (foundSteps : document.field? "steps" = some (.object steps))
    (foundInputs : document.field? "inputs" = some (.object inputs)) (id : String)
    (declared : List (String × Value)) (port : String) (binding : Value)
    (bound : ∃ source, binding.field? "source" = some (.str source)) :
    followPort (.object steps) (.object inputs) id (.object declared) port binding =
      refuse (checkPort document id (.object declared) port binding) := by
  obtain ⟨source, foundSource⟩ := bound
  unfold followPort checkPort
  simp only [readEntries, ok_bind, readField_eq_ok foundSource, readText, hasField, Value.field?,
    field_of_field? foundSource, field_of_field? foundSteps, field_of_field? foundInputs, text,
    followReference_eq_ok each, fields]
  cases OrderedMap.lookup port declared with
  | none => rfl
  | some input =>
    cases source.toList.contains '/' with
    | true => rfl
    | false => cases OrderedMap.lookup source inputs <;> rfl

theorem followStep_eq {document : Value} (each : ∀ s ∈ steps, ReadableStep s.2)
    (foundSteps : document.field? "steps" = some (.object steps))
    (foundInputs : document.field? "inputs" = some (.object inputs)) (id : String) (step : Value)
    (readable : ReadableStep step) :
    followStep (.object steps) (.object inputs) id step = refuse (checkStep document id step) := by
  obtain ⟨run, declared, foundRun, foundDeclared⟩ := readable.declares
  obtain ⟨bindings, foundBindings, bound⟩ := readable.binds
  unfold followStep checkStep
  simp only [readField_eq_ok foundRun, readField_eq_ok foundDeclared, readField_eq_ok foundBindings,
    readEntries, ok_bind, field_of_field? foundRun, field_of_field? foundDeclared,
    field_of_field? foundBindings, fields]
  apply forM_eq_refuse
  intro b member
  exact followPort_eq each foundSteps foundInputs id declared b.1 b.2 (bound b member)

theorem followStepSources_eq {document : Value} (readable : Readable document) :
    followStepSources document = refuse (checkStepSources document) := by
  obtain ⟨inputs, foundInputs⟩ := readable.inputs
  obtain ⟨steps, foundSteps, each⟩ := readable.steps
  unfold followStepSources checkStepSources
  simp only [readField_eq_ok foundSteps, readField_eq_ok foundInputs, readEntries, ok_bind,
    field_of_field? foundSteps, fields]
  apply forM_eq_refuse
  intro s member
  exact followStep_eq each foundSteps foundInputs s.1 s.2 (each s member)

theorem followOutputSources_eq {document : Value} (readable : Readable document) :
    followOutputSources document = refuse (checkOutputSources document) := by
  obtain ⟨steps, foundSteps, each⟩ := readable.steps
  obtain ⟨outputs, foundOutputs, refers⟩ := readable.outputs
  unfold followOutputSources checkOutputSources
  simp only [readField_eq_ok foundOutputs, readEntries, ok_bind, field_of_field? foundOutputs,
    field_of_field? foundSteps, fields]
  apply forM_eq_refuse
  intro o member
  obtain ⟨source, foundSource, -⟩ := refers o member
  rw [followOutputSource, readField_eq_ok foundSource, ok_bind, readText, ok_bind,
    readField_eq_ok foundSteps, ok_bind, followReference_eq_ok each, ok_bind,
    field_of_field? foundSource, text]

/-- No access fails: what the schema lets through can be read. -/
theorem follow_eq (document : Value) :
    follow document = (validate document).mapError .violation := by
  rw [follow, validate, violation?]
  cases checked : Schema.workflow.check document with
  | some d => rfl
  | none =>
    have readable := readable_of_conforms ((Schema.accepts_iff_conforms _ _).1 checked)
    rw [followStepSources_eq readable, followOutputSources_eq readable]
    cases checkStepSources document with
    | some v => rfl
    | none => cases checkOutputSources document <;> rfl

end Follow

end Document

/-- Validation answers for every document, without an access that fails: it goes through when the
document conforms to the schema and no reference in it leads nowhere, and otherwise stops at a
violation. -/
theorem validate_decides_closed_documents (document : Value) :
    Document.follow document = (Document.validate document).mapError .violation ∧
      (∀ m, Document.follow document ≠ .error (.misuse m)) ∧
      (Document.validate document = .ok () ↔
        Schema.workflow.Conforms document ∧ Document.Closed document) := by
  refine ⟨Document.follow_eq document, ?_, Document.validate_eq_ok_iff document⟩
  intro m
  rw [Document.follow_eq]
  cases Document.validate document <;> simp

end PipelineCompiler
