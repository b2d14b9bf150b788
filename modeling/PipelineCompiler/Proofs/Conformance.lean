import Mathlib.Data.List.Nodup
import PipelineCompiler.Proofs.Settings
import PipelineCompiler.Schema.Workflow
import PipelineCompiler.Workflow.Document

set_option autoImplicit false

namespace PipelineCompiler

namespace Schema

section Check

variable (schema : Schema) (schemas : List Schema) (v : Value)

theorem check_all : (Schema.all schemas).check v = checkAll schemas v := rfl

theorem check_anyOf : (Schema.anyOf schemas).check v =
    if checkAny schemas v then none else some ([], .noAlternative v) := rfl

theorem check_pattern (form : Pattern) (s : String) : (Schema.pattern form).check (.str s) =
    if form.matches s then none else some ([], .noMatch (.str s) form) := rfl

theorem check_items (members : List Value) :
    (Schema.items schema).check (.list members) = firstItem schema.check 0 members := rfl

theorem check_unique (members : List Value) : Schema.unique.check (.list members) =
    if hasRepeats members then some ([], .repeated (.list members)) else none := rfl

theorem check_additional (entries : List (String × Value)) :
    (Schema.additional schema).check (.object entries) = firstField schema.check entries := rfl

theorem check_properties (fields : List (String × Schema)) (entries : List (String × Value)) :
    (Schema.properties fields).check (.object entries) = checkProperties fields entries := rfl

end Check

/-- A value departs nowhere from the schema. -/
def Accepts (schema : Schema) (v : Value) : Prop := schema.check v = none

theorem accepts_all_iff (schemas : List Schema) (v : Value) :
    (Schema.all schemas).Accepts v ↔ ∀ schema ∈ schemas, schema.Accepts v := by
  unfold Accepts
  rw [check_all]
  induction schemas with
  | nil => simp [checkAll]
  | cons schema rest ih =>
    rw [checkAll, List.forall_mem_cons]
    cases schema.check v with
    | none => simpa using ih
    | some d => simp

theorem accepts_text (s : String) : text.Accepts (.str s) := rfl

theorem accepts_textOf_iff (form : Pattern) (s : String) :
    (textOf form).Accepts (.str s) ↔ form.matches s = true := by
  have isText : (Schema.kinds [.string]).Accepts (.str s) := rfl
  have fits : (Schema.pattern form).Accepts (.str s) ↔ form.matches s = true := by
    simp [Accepts, check_pattern]
  rw [textOf, accepts_all_iff, List.forall_mem_cons, List.forall_mem_singleton, fits]
  exact ⟨fun h => h.2, fun h => ⟨isText, h⟩⟩

theorem firstItem_eq_none_iff (test : Value → Option Departed) (members : List Value)
    (index : Nat) : firstItem test index members = none ↔ ∀ v ∈ members, test v = none := by
  induction members generalizing index with
  | nil => simp [firstItem]
  | cons v rest ih =>
    rw [firstItem, List.forall_mem_cons, ← ih (index + 1)]
    cases test v <;> simp

theorem accepts_items_iff (schema : Schema) (members : List Value) :
    (Schema.items schema).Accepts (.list members) ↔ ∀ v ∈ members, schema.Accepts v := by
  unfold Accepts
  rw [check_items]
  exact firstItem_eq_none_iff schema.check members 0

theorem accepts_items_text (entries : List String) :
    (Schema.items text).Accepts (.strings entries) := by
  rw [Value.strings, accepts_items_iff]
  intro v member
  obtain ⟨s, -, rfl⟩ := List.mem_map.1 member
  exact accepts_text s

theorem accepts_texts (entries : List String) : texts.Accepts (.strings entries) := by
  rw [texts, accepts_all_iff, List.forall_mem_cons, List.forall_mem_singleton]
  exact ⟨rfl, accepts_items_text entries⟩

theorem firstField_eq_none_iff (test : Value → Option Departed) (entries : List (String × Value)) :
    firstField test entries = none ↔ ∀ e ∈ entries, test e.2 = none := by
  induction entries with
  | nil => simp [firstField]
  | cons e rest ih =>
    rw [firstField, List.forall_mem_cons, ← ih]
    cases test e.2 <;> simp

theorem accepts_additional_iff (schema : Schema) (entries : List (String × Value)) :
    (Schema.additional schema).Accepts (.object entries) ↔ ∀ e ∈ entries, schema.Accepts e.2 := by
  unfold Accepts
  rw [check_additional]
  exact firstField_eq_none_iff schema.check entries

/-- An object written from a map conforms when each of its values does. -/
theorem accepts_mapOf {α : Type} (schema : Schema) (f : α → Value) (d : OrderedMap String α)
    (good : ∀ e ∈ d.entries, schema.Accepts (f e.2)) : (mapOf schema).Accepts (d.toObject f) := by
  rw [mapOf, accepts_all_iff, List.forall_mem_cons, List.forall_mem_singleton, OrderedMap.toObject,
    accepts_additional_iff]
  refine ⟨rfl, ?_⟩
  intro e member
  obtain ⟨entry, inside, rfl⟩ := List.mem_map.1 member
  exact good entry inside

theorem accepts_properties_iff (fields : List (String × Schema)) (entries : List (String × Value)) :
    (Schema.properties fields).Accepts (.object entries) ↔
      ∀ f ∈ fields, ∀ v, OrderedMap.lookup f.1 entries = some v → f.2.Accepts v := by
  rw [Accepts, check_properties]
  induction fields with
  | nil => simp [checkProperties]
  | cons f rest ih =>
    rw [checkProperties, List.forall_mem_cons, ← ih]
    cases OrderedMap.lookup f.1 entries with
    | none => simp
    | some v => cases tested : f.2.check v <;> simp [Accepts, tested]

/-- The known fields of an object conform. -/
def Fits (fields : List (String × Schema)) (entries : List (String × Value)) : Prop :=
  (Schema.properties fields).Accepts (.object entries)

theorem fits_nil (entries : List (String × Value)) : Fits [] entries := by
  rw [Fits, accepts_properties_iff]
  simp

theorem fits_cons {name : String} {schema : Schema} {rest : List (String × Schema)}
    {entries : List (String × Value)} {v : Value} (here : schema.Accepts v)
    (found : OrderedMap.lookup name entries = some v) (later : Fits rest entries) :
    Fits ((name, schema) :: rest) entries := by
  rw [Fits, accepts_properties_iff] at later ⊢
  rw [List.forall_mem_cons]
  refine ⟨?_, later⟩
  intro w same
  rw [found, Option.some.injEq] at same
  exact same ▸ here

/-- A record conforms when its known fields do and no required one is missing. -/
theorem accepts_record (fields : List (String × Schema)) (names : List String)
    (entries : List (String × Value))
    (fits : Fits fields entries)
    (present : (Schema.required names).Accepts (.object entries)) :
    (record fields names).Accepts (.object entries) := by
  rw [record, accepts_all_iff]
  simp only [List.forall_mem_cons, List.not_mem_nil, false_implies, implies_true, and_true]
  exact ⟨rfl, fits, present⟩

theorem accepts_closedRecord (fields : List (String × Schema)) (names : List String)
    (entries : List (String × Value))
    (fits : Fits fields entries)
    (present : (Schema.required names).Accepts (.object entries))
    (known : (Schema.closed (fields.map Prod.fst)).Accepts (.object entries)) :
    (closedRecord fields names).Accepts (.object entries) := by
  rw [closedRecord, accepts_all_iff]
  simp only [List.forall_mem_cons, List.not_mem_nil, false_implies, implies_true, and_true]
  exact ⟨rfl, fits, present, known⟩

theorem accepts_type (t : CwlType) : (textOf .parameterType).Accepts (.str t.text) := by
  rw [accepts_textOf_iff]
  cases t <;> decide

theorem accepts_optionalType (t : CwlType) :
    (textOf .parameterType).Accepts (.str t.optionalText) := by
  rw [accepts_textOf_iff]
  cases t <;> decide +kernel

theorem accepts_parameter (t : CwlType) : parameter.Accepts (.object [("type", .str t.text)]) := by
  apply accepts_record
  · exact fits_cons (accepts_type t) rfl (fits_nil _)
  · rfl

theorem accepts_flag (name : String) : (textOf .flag).Accepts (.str ("--" ++ name)) := by
  rw [accepts_textOf_iff, Pattern.matches, String.toList_append, List.isPrefixOf_iff_prefix]
  exact List.prefix_append _ _

theorem accepts_toolInput (i : ToolInput) (flagged : (textOf .flag).Accepts (.str i.flag)) :
    toolInput.Accepts i.toValue := by
  have bound : (record [("prefix", textOf .flag)] ["prefix"]).Accepts
      (.object [("prefix", .str i.flag)]) := by
    apply accepts_record
    · exact fits_cons flagged rfl (fits_nil _)
    · rfl
  have typed : (textOf .parameterType).Accepts
      (.str (if i.optional then i.type.optionalText else i.type.text)) := by
    cases i.optional with
    | true => exact accepts_optionalType i.type
    | false => exact accepts_type i.type
  apply accepts_closedRecord
  · exact fits_cons bound rfl (fits_cons typed rfl (fits_nil _))
  · rfl
  · rfl

theorem accepts_toolOutput (o : ToolOutput) : toolOutput.Accepts o.toValue := by
  have bound : (record [("glob", text)] ["glob"]).Accepts (.object [("glob", .str o.glob)]) := by
    apply accepts_record
    · exact fits_cons (accepts_text o.glob) rfl (fits_nil _)
    · rfl
  apply accepts_closedRecord
  · exact fits_cons bound rfl (fits_cons (accepts_type o.type) rfl (fits_nil _))
  · rfl
  · rfl

theorem accepts_requirements (container : String) (writable : List String) :
    requirements.Accepts (.object
      [("DockerRequirement", .object [("dockerPull", .str container)]),
        ("InitialWorkDirRequirement", .object
          [("listing", .list (writable.map fun entry =>
            .object [("entry", .str entry), ("writable", .bool true)]))]),
        ("InlineJavascriptRequirement", .object [])]) := by
  have pulled : (record [("dockerPull", text)] ["dockerPull"]).Accepts
      (.object [("dockerPull", .str container)]) := by
    apply accepts_record
    · exact fits_cons (accepts_text container) rfl (fits_nil _)
    · rfl
  have staged : ∀ entry, (record [("entry", text), ("writable", .kinds [.boolean])]
      ["entry", "writable"]).Accepts
        (.object [("entry", .str entry), ("writable", .bool true)]) := by
    intro entry
    have truth : (Schema.kinds [.boolean]).Accepts (.bool true) := rfl
    apply accepts_record
    · exact fits_cons (accepts_text entry) rfl (fits_cons truth rfl (fits_nil _))
    · rfl
  have listing : (Schema.all [.kinds [.array],
      .items (record [("entry", text), ("writable", .kinds [.boolean])]
        ["entry", "writable"])]).Accepts (.list (writable.map fun entry =>
          .object [("entry", .str entry), ("writable", .bool true)])) := by
    rw [accepts_all_iff, List.forall_mem_cons, List.forall_mem_singleton]
    refine ⟨rfl, (accepts_items_iff _ _).2 ?_⟩
    intro v member
    obtain ⟨entry, -, rfl⟩ := List.mem_map.1 member
    exact staged entry
  have scripted : (Schema.kinds [.object]).Accepts (.object []) := rfl
  have workDir : (record [("listing", .all [.kinds [.array],
      .items (record [("entry", text), ("writable", .kinds [.boolean])] ["entry", "writable"])])]
        ["listing"]).Accepts (.object [("listing", .list (writable.map fun entry =>
          .object [("entry", .str entry), ("writable", .bool true)]))]) := by
    apply accepts_record
    · exact fits_cons listing rfl (fits_nil _)
    · rfl
  apply accepts_record
  · exact fits_cons pulled rfl (fits_cons workDir rfl (fits_cons scripted rfl (fits_nil _)))
  · rfl

/-- Tools conform whatever they run, if their version is one and their inputs have flags. -/
theorem accepts_tool (t : Tool) (version : isCwlVersion t.version = true)
    (flagged : ∀ e ∈ t.inputs.entries, (textOf .flag).Accepts (.str e.2.flag)) :
    tool.Accepts t.toValue := by
  have command := accepts_texts t.baseCommand
  have classed : (Schema.const "CommandLineTool").Accepts (.str "CommandLineTool") := rfl
  have versioned := (accepts_textOf_iff .version t.version).2 version
  have inputs := accepts_mapOf toolInput ToolInput.toValue t.inputs fun e member =>
    accepts_toolInput e.2 (flagged e member)
  have outputs := accepts_mapOf toolOutput ToolOutput.toValue t.outputs fun e _ =>
    accepts_toolOutput e.2
  have required := accepts_requirements t.container t.writable
  apply accepts_record
  · apply fits_cons command rfl
    apply fits_cons classed rfl
    apply fits_cons versioned rfl
    apply fits_cons inputs rfl
    apply fits_cons outputs rfl
    exact fits_cons required rfl (fits_nil _)
  · rfl

theorem hasRepeats_eq_false_iff (members : List Value) :
    hasRepeats members = false ↔ members.Nodup := by
  induction members with
  | nil => simp [hasRepeats]
  | cons v rest ih =>
    rw [hasRepeats, Bool.or_eq_false_iff, ih, List.nodup_cons, List.contains_eq_mem,
      decide_eq_false_iff_not]

theorem accepts_unique_iff (members : List Value) :
    Schema.unique.Accepts (.list members) ↔ members.Nodup := by
  unfold Accepts
  rw [check_unique, ← hasRepeats_eq_false_iff]
  cases hasRepeats members <;> simp

theorem accepts_out (out : List String) (distinct : out.Nodup) :
    (Schema.all [.kinds [.array], .items text, .unique]).Accepts (.strings out) := by
  have isList : (Schema.kinds [.array]).Accepts (.strings out) := rfl
  have unique : Schema.unique.Accepts (.strings out) := by
    rw [Value.strings, accepts_unique_iff]
    exact distinct.map fun _ _ same => Value.str.inj same
  rw [accepts_all_iff, List.forall_mem_cons, List.forall_mem_cons, List.forall_mem_singleton]
  exact ⟨isList, accepts_items_text out, unique⟩

theorem accepts_step (s : Step) (run : tool.Accepts s.run.toValue) (distinct : s.out.Nodup) :
    step.Accepts s.toValue := by
  have sources : (mapOf (closedRecord [("source", text)] ["source"])).Accepts
      (s.sources.toObject fun source => .object [("source", .str source)]) := by
    apply accepts_mapOf
    intro e _
    apply accepts_closedRecord
    · exact fits_cons (accepts_text e.2) rfl (fits_nil _)
    · rfl
    · rfl
  apply accepts_closedRecord
  · exact fits_cons sources rfl (fits_cons run rfl (fits_cons (accepts_out s.out distinct) rfl
      (fits_nil _)))
  · rfl
  · rfl

theorem accepts_anyOf_iff (schemas : List Schema) (v : Value) :
    (Schema.anyOf schemas).Accepts v ↔ ∃ schema ∈ schemas, schema.Accepts v := by
  have found : checkAny schemas v = true ↔ ∃ schema ∈ schemas, schema.Accepts v := by
    induction schemas with
    | nil => simp [checkAny]
    | cons schema rest ih =>
      rw [checkAny, Bool.or_eq_true, ih, Option.isNone_iff_eq_none]
      simp [Accepts]
  rw [Accepts, check_anyOf, ← found]
  cases checkAny schemas v <;> simp

end Schema

/-- Whether a value may stand at a port. Texts and nothing suit every port and objects none; all
other values suit what is no directory. -/
def Value.suits : Value → Bool → Bool
  | .null, _ => true
  | .str _, _ => true
  | .object _, _ => false
  | _, isDirectory => !isDirectory

namespace Schema

theorem accepts_location (v : Value) (suits : v.suits true = true) :
    (Schema.kinds [.string, .null]).Accepts v := by
  cases v with
  | null => rfl
  | str s => rfl
  | _ => cases suits

theorem accepts_plain (v : Value) (suits : v.suits false = true) :
    (Schema.kinds [.string, .number, .boolean, .array, .null]).Accepts v := by
  cases v with
  | object fields => cases suits
  | _ => rfl

theorem accepts_jobInput (j : JobInput) (suits : j.value.suits j.isDirectory = true) :
    jobInput.Accepts j.toValue := by
  unfold jobInput JobInput.toValue
  split
  · rename_i directory
    rw [directory] at suits
    have classed : (Schema.const "Directory").Accepts (.str "Directory") := rfl
    refine (accepts_anyOf_iff _ _).2 ⟨_, List.mem_cons_self, ?_⟩
    apply accepts_closedRecord
    · exact fits_cons classed rfl (fits_cons (accepts_location j.value suits) rfl (fits_nil _))
    · rfl
    · rfl
  · rename_i plain
    rw [Bool.eq_false_iff.2 plain] at suits
    refine (accepts_anyOf_iff _ _).2 ⟨_, List.mem_cons_of_mem _ List.mem_cons_self, ?_⟩
    exact accepts_plain j.value suits

theorem accepts_workflowOutput (o : WorkflowOutput)
    (source : Pattern.stepOutput.matches o.source = true) : workflowOutput.Accepts o.toValue := by
  have referred := (accepts_textOf_iff .stepOutput o.source).2 source
  apply accepts_record
  · exact fits_cons (accepts_type o.type) rfl (fits_cons referred rfl (fits_nil _))
  · rfl

end Schema

/-- A document conforms when its steps, job inputs and outputs do. -/
theorem Schema.accepts_document (w : Workflow) (header : w.header.Valid)
    (jobs : ∀ e ∈ w.jobInputs.entries, e.2.value.suits e.2.isDirectory = true)
    (outputs : ∀ e ∈ w.outputs.entries, Pattern.stepOutput.matches e.2.source = true)
    (steps : ∀ e ∈ w.orderedSteps.entries, step.Accepts e.2.toValue) :
    workflow.Accepts w.document := by
  have version := (accepts_textOf_iff .version w.header.cwlVersion).2 header.version
  have classed : (Schema.const "Workflow").Accepts (.str "Workflow") := rfl
  have namespaces := accepts_mapOf text Value.str w.header.namespaces fun e _ => accepts_text e.2
  have jobValues := accepts_mapOf jobInput JobInput.toValue w.jobInputs fun e member =>
    accepts_jobInput e.2 (jobs e member)
  have inputs := accepts_mapOf parameter (fun t : CwlType => .object [("type", .str t.text)])
    w.inputs fun e _ => accepts_parameter e.2
  have outputValues := accepts_mapOf workflowOutput WorkflowOutput.toValue w.outputs
    fun e member => accepts_workflowOutput e.2 (outputs e member)
  have stepValues := accepts_mapOf step Step.toValue w.orderedSteps steps
  apply accepts_record
  · apply fits_cons (accepts_text w.header.name) rfl
    apply fits_cons version rfl
    apply fits_cons (accepts_text w.header.driver) rfl
    apply fits_cons classed rfl
    apply fits_cons namespaces rfl
    apply fits_cons (accepts_texts w.header.schemas) rfl
    apply fits_cons jobValues rfl
    apply fits_cons inputs rfl
    apply fits_cons outputValues rfl
    exact fits_cons stepValues rfl (fits_nil _)
  · rfl

end PipelineCompiler
