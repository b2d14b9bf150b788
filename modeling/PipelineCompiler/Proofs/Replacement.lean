import PipelineCompiler.Proofs.OrderedMap
import PipelineCompiler.Proofs.SchemaMeaning

set_option autoImplicit false

namespace PipelineCompiler

namespace Value

/-- A field is written in its place, or behind the others. Values that are no objects stay. -/
def setField (v : Value) (name : String) (w : Value) : Value :=
  match v with
  | .object entries => .object (OrderedMap.insertEntry name w entries)
  | v => v

/-- The value at the end of a path of field names. -/
def at? : List String → Value → Option Value
  | [], v => some v
  | name :: rest, v => (v.field? name).bind (at? rest)

/-- The value at the end of a path is replaced, if the path leads anywhere. -/
def replaceAt : List String → Value → Value → Value
  | [], _, w => w
  | name :: rest, v, w =>
    match v.field? name with
    | some u => v.setField name (replaceAt rest u w)
    | none => v

variable {v u w : Value} {name other : String} {path : List String}

theorem at?_cons_eq_some_iff :
    at? (name :: path) v = some w ↔ ∃ u, v.field? name = some u ∧ at? path u = some w :=
  Option.bind_eq_some_iff

theorem replaceAt_cons (found : v.field? name = some u) :
    replaceAt (name :: path) v w = v.setField name (replaceAt path u w) := by
  rw [replaceAt, found]

theorem exists_object_of_field? (found : v.field? name = some u) :
    ∃ entries, v = .object entries ∧ OrderedMap.lookup name entries = some u := by
  cases v with
  | object entries => exact ⟨entries, rfl, found⟩
  | _ => cases found

theorem field?_setField_self (found : v.field? name = some u) :
    (v.setField name w).field? name = some w := by
  obtain ⟨entries, rfl, -⟩ := exists_object_of_field? found
  exact OrderedMap.lookup_insertEntry_self name w entries

theorem field?_setField_of_ne (apart : other ≠ name) :
    (v.setField name w).field? other = v.field? other := by
  cases v with
  | object entries => exact OrderedMap.lookup_insertEntry_of_ne name other w entries apart
  | _ => rfl

theorem setField_of_field? (found : v.field? name = some u) : v.setField name u = v := by
  obtain ⟨entries, rfl, found⟩ := exists_object_of_field? found
  exact congrArg (fun d => Value.object d.entries)
    (OrderedMap.insert_of_get? ⟨entries⟩ name u found)

theorem at?_replaceAt (there : at? path v = some u) : at? path (replaceAt path v w) = some w := by
  induction path generalizing v with
  | nil => rfl
  | cons name path ih =>
    obtain ⟨x, found, later⟩ := at?_cons_eq_some_iff.1 there
    rw [replaceAt_cons found, at?_cons_eq_some_iff]
    exact ⟨_, field?_setField_self found, ih later⟩

theorem replaceAt_of_at? (there : at? path v = some w) : replaceAt path v w = v := by
  induction path generalizing v with
  | nil => exact (Option.some.inj there).symm
  | cons name path ih =>
    obtain ⟨u, found, later⟩ := at?_cons_eq_some_iff.1 there
    rw [replaceAt_cons found, ih later, setField_of_field? found]

end Value

namespace Schema

/-- What a schema asks of an object with the field: of the field that it has the other form, and of
the rest nothing that depends on the field. -/
def Governs (schema : Schema) (name : String) (inner : Schema) : Prop :=
  ∀ v u w, schema.Conforms v → v.field? name = some u →
    (schema.Conforms (v.setField name w) ↔ inner.Conforms w)

def Ignores (schema : Schema) (name : String) : Prop :=
  ∀ v u w, schema.Conforms v → v.field? name = some u → schema.Conforms (v.setField name w)

variable {schema inner : Schema} {schemas : List Schema} {name : String}

theorem ignores_kinds : (kinds [.object]).Ignores name := by
  intro v u w _ found
  obtain ⟨entries, rfl, -⟩ := Value.exists_object_of_field? found
  exact .kinds .object (List.mem_singleton_self _) rfl

theorem ignores_required (names : List String) : (required names).Ignores name := by
  intro v u w conforms found
  cases conforms with
  | required present =>
    obtain ⟨entries, rfl, -⟩ := Value.exists_object_of_field? found
    refine .required fun _ _ other needed => ?_
    by_cases same : other = name
    · rw [same]
      exact ⟨w, Value.field?_setField_self found⟩
    · rw [Value.field?_setField_of_ne same]
      exact present entries rfl other needed

theorem ignores_closed (known : List String) : (closed known).Ignores name := by
  intro v u w conforms found
  cases conforms with
  | closed each =>
    obtain ⟨entries, rfl, found⟩ := Value.exists_object_of_field? found
    refine .closed ?_
    rintro _ ⟨⟩ e member
    rcases OrderedMap.mem_entries_insert ⟨entries⟩ name w e member with rfl | old
    · exact each entries rfl (name, u) (OrderedMap.mem_entries_of_get? ⟨entries⟩ name u found)
    · exact each entries rfl e old

theorem governs_properties {fields : List (String × Schema)}
    (distinct : (fields.map Prod.fst).Nodup) (field : (name, inner) ∈ fields) :
    (properties fields).Governs name inner := by
  intro v u w conforms found
  have written : (v.setField name w).field? name = some w := Value.field?_setField_self found
  constructor
  · intro conforms
    cases conforms with
    | properties each => exact each _ field w written
  · intro fits
    cases conforms with
    | properties each =>
      refine .properties fun f among x there => ?_
      by_cases same : f.1 = name
      · obtain rfl : f = (name, inner) := List.inj_on_of_nodup_map distinct among field same
        rw [written, Option.some.injEq] at there
        exact there ▸ fits
      · rw [Value.field?_setField_of_ne same] at there
        exact each f among x there

theorem governs_additional : (additional schema).Governs name schema := by
  intro v u w conforms found
  obtain ⟨entries, rfl, -⟩ := Value.exists_object_of_field? found
  constructor
  · intro conforms
    cases conforms with
    | additional each =>
      exact each _ rfl (name, w) (OrderedMap.mem_entries_of_get?
        (OrderedMap.insert ⟨entries⟩ name w) name w (OrderedMap.get?_insert_self _ name w))
  · intro fits
    cases conforms with
    | additional each =>
      refine .additional ?_
      rintro _ ⟨⟩ e member
      rcases OrderedMap.mem_entries_insert ⟨entries⟩ name w e member with rfl | old
      · exact fits
      · exact each entries rfl e old

/-- One of several requirements governs the field where the others ignore it. -/
theorem governs_all (schema : Schema) (among : schema ∈ schemas)
    (governs : schema.Governs name inner)
    (others : ∀ s ∈ schemas, s = schema ∨ s.Ignores name) : (all schemas).Governs name inner := by
  intro v u w conforms found
  rw [Conforms.all_iff] at conforms ⊢
  rw [← governs v u w (conforms schema among) found]
  refine ⟨fun each => each schema among, fun fits s member => ?_⟩
  rcases others s member with rfl | ignores
  · exact fits
  · exact ignores v u w (conforms s member) found

theorem governs_mapOf : (mapOf schema).Governs name schema := by
  refine governs_all (additional schema) (by simp) governs_additional ?_
  simp [ignores_kinds]

variable {fields : List (String × Schema)} {names : List String}

theorem governs_record (distinct : (fields.map Prod.fst).Nodup) (field : (name, inner) ∈ fields) :
    (record fields names).Governs name inner := by
  refine governs_all (properties fields) (by simp) (governs_properties distinct field) ?_
  simp [ignores_kinds, ignores_required]

theorem governs_closedRecord (distinct : (fields.map Prod.fst).Nodup)
    (field : (name, inner) ∈ fields) : (closedRecord fields names).Governs name inner := by
  refine governs_all (properties fields) (by simp) (governs_properties distinct field) ?_
  simp [ignores_kinds, ignores_required, ignores_closed]

/-- From field to field a schema leads to the one that governs the end of the path. -/
inductive Leads : Schema → List String → Schema → Prop
  | here {schema : Schema} : Leads schema [] schema
  | through {schema next inner : Schema} {name : String} {path : List String}
      (governs : schema.Governs name next) (leads : Leads next path inner) :
      Leads schema (name :: path) inner

theorem Governs.conforms {v u : Value} (governs : schema.Governs name inner)
    (conforms : schema.Conforms v) (found : v.field? name = some u) : inner.Conforms u := by
  rw [← governs v u u conforms found, Value.setField_of_field? found]
  exact conforms

theorem Leads.conforms_replaceAt_iff {path : List String} {v u : Value}
    (leads : schema.Leads path inner) (conforms : schema.Conforms v) (there : v.at? path = some u)
    (w : Value) : schema.Conforms (v.replaceAt path w) ↔ inner.Conforms w := by
  induction leads generalizing v with
  | here => exact Iff.rfl
  | @through schema next inner name path governs _ ih =>
    obtain ⟨x, found, later⟩ := Value.at?_cons_eq_some_iff.1 there
    rw [Value.replaceAt_cons found, governs v x _ conforms found]
    exact ih (governs.conforms conforms found) later

end Schema

end PipelineCompiler
