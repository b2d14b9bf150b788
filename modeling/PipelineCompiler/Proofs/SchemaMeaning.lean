import PipelineCompiler.Proofs.Conformance

set_option autoImplicit false

namespace PipelineCompiler

namespace Schema

/-- A value has the form that a schema asks for. Keywords about fields say nothing of values that
are no objects, keywords about items nothing of what is no list, and patterns nothing of what is no
text. Items are told apart structurally; where `unique` is used they are texts. -/
inductive Conforms : Schema → Value → Prop
  | kinds {allowed : List Kind} {v : Value} (kind : Kind) (listed : kind ∈ allowed)
      (admitted : kind.admits v = true) : Conforms (.kinds allowed) v
  | properties {fields : List (String × Schema)} {v : Value}
      (each : ∀ f ∈ fields, ∀ w, v.field? f.1 = some w → Conforms f.2 w) :
      Conforms (.properties fields) v
  | required {names : List String} {v : Value}
      (present : ∀ entries, v = .object entries → ∀ name ∈ names, ∃ w, v.field? name = some w) :
      Conforms (.required names) v
  | additional {schema : Schema} {v : Value}
      (each : ∀ entries, v = .object entries → ∀ e ∈ entries, Conforms schema e.2) :
      Conforms (.additional schema) v
  | closed {known : List String} {v : Value}
      (each : ∀ entries, v = .object entries → ∀ e ∈ entries, e.1 ∈ known) :
      Conforms (.closed known) v
  | items {schema : Schema} {v : Value}
      (each : ∀ members, v = .list members → ∀ w ∈ members, Conforms schema w) :
      Conforms (.items schema) v
  | const {text : String} {v : Value} (same : v = .str text) : Conforms (.const text) v
  | pattern {form : Pattern} {v : Value}
      (fits : ∀ s, v = .str s → form.matches s = true) : Conforms (.pattern form) v
  | anyOf {schemas : List Schema} {v : Value} (schema : Schema) (among : schema ∈ schemas)
      (conforms : Conforms schema v) : Conforms (.anyOf schemas) v
  | unique {v : Value} (distinct : ∀ members, v = .list members → members.Nodup) :
      Conforms .unique v
  | all {schemas : List Schema} {v : Value} (each : ∀ schema ∈ schemas, Conforms schema v) :
      Conforms (.all schemas) v

theorem accepts_kinds_iff (allowed : List Kind) (v : Value) :
    (Schema.kinds allowed).Accepts v ↔ ∃ kind ∈ allowed, kind.admits v = true := by
  rw [Accepts, check]
  simp

theorem accepts_required_iff (names : List String) (entries : List (String × Value)) :
    (Schema.required names).Accepts (.object entries) ↔
      ∀ name ∈ names, ∃ w, OrderedMap.lookup name entries = some w := by
  rw [Accepts, check]
  simp [Option.ne_none_iff_exists', ← ne_eq]

theorem accepts_closed_iff (known : List String) (entries : List (String × Value)) :
    (Schema.closed known).Accepts (.object entries) ↔ ∀ e ∈ entries, e.1 ∈ known := by
  rw [Accepts, check]
  simp

theorem accepts_const_iff (text : String) (v : Value) :
    (Schema.const text).Accepts v ↔ v = .str text := by
  rw [Accepts, check]
  simp

theorem accepts_pattern_iff (form : Pattern) (s : String) :
    (Schema.pattern form).Accepts (.str s) ↔ form.matches s = true := by
  rw [Accepts, check_pattern]
  simp

theorem accepts_of_conforms {schema : Schema} {v : Value} (conforms : schema.Conforms v) :
    schema.Accepts v := by
  induction conforms with
  | kinds kind listed admitted => exact (accepts_kinds_iff _ _).2 ⟨kind, listed, admitted⟩
  | @properties fields v each ih =>
    cases v with
    | object entries => exact (accepts_properties_iff fields entries).2 ih
    | _ => rfl
  | @required names v present =>
    cases v with
    | object entries => exact (accepts_required_iff names entries).2 (present entries rfl)
    | _ => rfl
  | @additional schema v each ih =>
    cases v with
    | object entries => exact (accepts_additional_iff schema entries).2 (ih entries rfl)
    | _ => rfl
  | @closed known v each =>
    cases v with
    | object entries => exact (accepts_closed_iff known entries).2 (each entries rfl)
    | _ => rfl
  | @items schema v each ih =>
    cases v with
    | list members => exact (accepts_items_iff schema members).2 (ih members rfl)
    | _ => rfl
  | const same => exact (accepts_const_iff _ _).2 same
  | @pattern form v fits =>
    cases v with
    | str s => exact (accepts_pattern_iff form s).2 (fits s rfl)
    | _ => rfl
  | anyOf schema among _ ih => exact (accepts_anyOf_iff _ _).2 ⟨schema, among, ih⟩
  | @unique v distinct =>
    cases v with
    | list members => exact (accepts_unique_iff members).2 (distinct members rfl)
    | _ => rfl
  | all _ ih => exact (accepts_all_iff _ _).2 ih

theorem conforms_of_accepts : ∀ (schema : Schema) (v : Value), schema.Accepts v → schema.Conforms v
  | .kinds allowed, v, accepted =>
    have ⟨kind, listed, admitted⟩ := (accepts_kinds_iff allowed v).1 accepted
    .kinds kind listed admitted
  | .properties fields, v, accepted => by
    refine .properties fun f among w found => ?_
    cases v with
    | object entries =>
      have smaller : sizeOf f.2 < sizeOf fields := by
        have inside := List.sizeOf_lt_of_mem among
        rw [Prod.mk.sizeOf_spec] at inside
        omega
      exact conforms_of_accepts f.2 w
        ((accepts_properties_iff fields entries).1 accepted f among w found)
    | _ => cases found
  | .required names, v, accepted => by
    refine .required ?_
    rintro entries rfl
    exact (accepts_required_iff names entries).1 accepted
  | .additional schema, v, accepted => by
    refine .additional ?_
    rintro entries rfl e member
    exact conforms_of_accepts schema e.2
      ((accepts_additional_iff schema entries).1 accepted e member)
  | .closed known, v, accepted => by
    refine .closed ?_
    rintro entries rfl
    exact (accepts_closed_iff known entries).1 accepted
  | .items schema, v, accepted => by
    refine .items ?_
    rintro members rfl w member
    exact conforms_of_accepts schema w ((accepts_items_iff schema members).1 accepted w member)
  | .const text, v, accepted => .const ((accepts_const_iff text v).1 accepted)
  | .pattern form, v, accepted => by
    refine .pattern ?_
    rintro s rfl
    exact (accepts_pattern_iff form s).1 accepted
  | .anyOf schemas, v, accepted => by
    obtain ⟨schema, among, accepted⟩ := (accepts_anyOf_iff schemas v).1 accepted
    exact .anyOf schema among (conforms_of_accepts schema v accepted)
  | .unique, v, accepted => by
    refine .unique ?_
    rintro members rfl
    exact (accepts_unique_iff members).1 accepted
  | .all schemas, v, accepted => by
    refine .all fun schema among => ?_
    exact conforms_of_accepts schema v ((accepts_all_iff schemas v).1 accepted schema among)
termination_by schema => sizeOf schema

/-- The check decides the relation. -/
theorem accepts_iff_conforms (schema : Schema) (v : Value) :
    schema.Accepts v ↔ schema.Conforms v :=
  ⟨conforms_of_accepts schema v, accepts_of_conforms⟩

namespace Conforms

variable {schemas : List Schema} {v : Value}

theorem all_iff : (Schema.all schemas).Conforms v ↔ ∀ schema ∈ schemas, schema.Conforms v :=
  ⟨fun conforms => by cases conforms with | all each => exact each, .all⟩

theorem admits {kind : Kind} (conforms : (Schema.kinds [kind]).Conforms v) :
    kind.admits v = true := by
  cases conforms with
  | kinds other listed admitted => rwa [List.mem_singleton.1 listed] at admitted

theorem exists_object (conforms : (Schema.kinds [.object]).Conforms v) :
    ∃ entries, v = .object entries := by
  have admitted := conforms.admits
  cases v with
  | object entries => exact ⟨entries, rfl⟩
  | _ => cases admitted

theorem exists_list (conforms : (Schema.kinds [.array]).Conforms v) :
    ∃ members, v = .list members := by
  have admitted := conforms.admits
  cases v with
  | list members => exact ⟨members, rfl⟩
  | _ => cases admitted

theorem exists_str (conforms : (Schema.kinds [.string]).Conforms v) : ∃ s, v = .str s := by
  have admitted := conforms.admits
  cases v with
  | str s => exact ⟨s, rfl⟩
  | _ => cases admitted

/-- A field that a record has to have is there and conforms. -/
theorem exists_field (conforms : (Schema.all schemas).Conforms v)
    {fields : List (String × Schema)} {names : List String}
    (object : .kinds [.object] ∈ schemas) (known : .properties fields ∈ schemas)
    (needed : .required names ∈ schemas) {name : String} {schema : Schema}
    (field : (name, schema) ∈ fields) (required : name ∈ names) :
    ∃ w, v.field? name = some w ∧ schema.Conforms w := by
  rw [all_iff] at conforms
  obtain ⟨entries, rfl⟩ := (conforms _ object).exists_object
  cases conforms _ needed with
  | required present =>
    obtain ⟨w, found⟩ := present entries rfl name required
    cases conforms _ known with
    | properties each => exact ⟨w, found, each _ field w found⟩

theorem record_field {fields : List (String × Schema)} {names : List String}
    (conforms : (record fields names).Conforms v) {name : String} {schema : Schema}
    (field : (name, schema) ∈ fields) (required : name ∈ names) :
    ∃ w, v.field? name = some w ∧ schema.Conforms w :=
  conforms.exists_field (by simp) (by simp) (by simp) field required

theorem closedRecord_field {fields : List (String × Schema)} {names : List String}
    (conforms : (closedRecord fields names).Conforms v) {name : String} {schema : Schema}
    (field : (name, schema) ∈ fields) (required : name ∈ names) :
    ∃ w, v.field? name = some w ∧ schema.Conforms w :=
  conforms.exists_field (by simp) (by simp) (by simp) field required

theorem exists_entries {schema : Schema} (conforms : (mapOf schema).Conforms v) :
    ∃ entries, v = .object entries ∧ ∀ e ∈ entries, schema.Conforms e.2 := by
  rw [mapOf, all_iff, List.forall_mem_cons, List.forall_mem_singleton] at conforms
  obtain ⟨object, values⟩ := conforms
  obtain ⟨entries, rfl⟩ := object.exists_object
  cases values with
  | additional each => exact ⟨entries, rfl, each entries rfl⟩

theorem exists_matching {form : Pattern} (conforms : (textOf form).Conforms v) :
    ∃ s, v = .str s ∧ form.matches s = true := by
  rw [textOf, all_iff, List.forall_mem_cons, List.forall_mem_singleton] at conforms
  obtain ⟨isText, fits⟩ := conforms
  obtain ⟨s, rfl⟩ := isText.exists_str
  cases fits with
  | pattern fits => exact ⟨s, rfl, fits s rfl⟩

theorem textOf_iff {form : Pattern} :
    (textOf form).Conforms v ↔ ∃ s, v = .str s ∧ form.matches s = true := by
  constructor
  · exact exists_matching
  · rintro ⟨s, rfl, fits⟩
    rw [← accepts_iff_conforms, accepts_textOf_iff]
    exact fits

end Conforms

end Schema

end PipelineCompiler
