import Mathlib.Data.List.Forall2
import PipelineCompiler.Model.Reading
import PipelineCompiler.Proofs.Except
import PipelineCompiler.Proofs.OrderedMap

set_option autoImplicit false

namespace PipelineCompiler.Model

variable {α β : Type}

theorem report_eq_ok_iff (record : String) (r : Reading α) (a : α) :
    report record r = .ok a ↔ r = .ok a :=
  mapError_eq_ok r _ a

theorem within_eq_ok_iff (step : String) (r : Reading α) (a : α) :
    within step r = .ok a ↔ r = .ok a :=
  mapError_eq_ok r _ a

theorem mem_of_findField (fields : List (String × Value)) (names : Names)
    (e : String × Value) (found : findField fields names = some e) : e ∈ fields := by
  induction names with
  | nil => cases found
  | cons name rest ih =>
    rw [findField] at found
    split at found
    · rename_i v listed
      cases found
      exact OrderedMap.mem_entries_of_get? ⟨fields⟩ name v listed
    · exact ih found

/-- The value that counts for a field, of those under its names. -/
def valueOf (fields : List (String × Value)) (names : Names) : Option Value :=
  names.findSome? fun name => OrderedMap.lookup name fields

theorem map_findField (fields : List (String × Value)) (names : Names) :
    (findField fields names).map Prod.snd = valueOf fields names := by
  induction names with
  | nil => rfl
  | cons name rest ih =>
    rw [findField, valueOf, List.findSome?_cons]
    cases OrderedMap.lookup name fields with
    | some v => rfl
    | none => exact ih

theorem required_eq_ok_iff (names : Names) (read : Value → Reading α)
    (fields : List (String × Value)) (a : α) :
    required names read fields = .ok a ↔ ∃ v, valueOf fields names = some v ∧ read v = .ok a := by
  rw [required, ← map_findField]
  cases findField fields names with
  | none => simp [within_eq_ok_iff, fail]
  | some e => simp [within_eq_ok_iff]

theorem optional_eq_ok_iff (names : Names) (read : Value → Reading α) (default : α)
    (fields : List (String × Value)) (a : α) :
    optional names read default fields = .ok a ↔
      (∃ v, valueOf fields names = some v ∧ read v = .ok a) ∨
        valueOf fields names = none ∧ default = a := by
  rw [optional, ← map_findField]
  cases findField fields names with
  | none => simp
  | some e => simp [within_eq_ok_iff]

theorem optional_eq_ok (names : Names) (read : Value → Reading α) (default : α)
    (fields : List (String × Value)) (a : α) (found : optional names read default fields = .ok a) :
    (∃ e ∈ fields, read e.2 = .ok a) ∨ a = default := by
  unfold optional at found
  split at found
  · rename_i name v listed
    exact .inl ⟨_, mem_of_findField fields names _ listed, (mapError_eq_ok _ _ a).1 found⟩
  · cases found
    exact .inr rfl

/-- What stands in related elements alike, stands in the lists alike. -/
theorem map_eq_of_forall₂ {γ : Type} {R : α → β → Prop} (f : α → γ) (g : β → γ)
    (same : ∀ a b, R a b → g b = f a) {as : List α} {bs : List β} (related : List.Forall₂ R as bs) :
    bs.map g = as.map f := by
  induction related with
  | nil => rfl
  | cons here _ ih => rw [List.map_cons, List.map_cons, same _ _ here, ih]

/-- Readings one after the other succeed when each does. -/
theorem sequence_eq_ok_iff (rs : List (Reading α)) (xs : List α) :
    sequence rs = .ok xs ↔ List.Forall₂ (fun r x => r = .ok x) rs xs := by
  induction rs generalizing xs with
  | nil => simp [sequence, eq_comm]
  | cons r rest ih =>
    rw [sequence, map_eq_ok, List.forall₂_cons_left_iff]
    constructor
    · rintro ⟨⟨x, others⟩, both, rfl⟩
      obtain ⟨here, later⟩ := (pair_eq_ok_iff _ _ x others).1 both
      exact ⟨x, others, here, (ih others).1 later, rfl⟩
    · rintro ⟨x, others, here, later, rfl⟩
      exact ⟨(x, others), (pair_eq_ok_iff _ _ x others).2 ⟨here, (ih others).2 later⟩, rfl⟩

theorem sequence_map_ok (xs : List α) : sequence (xs.map fun x => .ok x) = .ok xs := by
  rw [sequence_eq_ok_iff, List.forall₂_map_left_iff, List.forall₂_same]
  exact fun _ _ => rfl

theorem readList_eq_ok_iff (read : Value → Reading α) (v : Value) (xs : List α) :
    readList read v = .ok xs ↔
      ∃ items, v = .list items ∧ List.Forall₂ (fun w x => read w = .ok x) items xs := by
  have each : ∀ items : List Value,
      sequence (items.mapIdx fun i w => within (toString i) (read w)) = .ok xs ↔
        List.Forall₂ (fun w x => read w = .ok x) items xs := by
    intro items
    rw [sequence_eq_ok_iff, List.forall₂_iff_get, List.forall₂_iff_get]
    simp [within_eq_ok_iff]
  cases v with
  | list items =>
    rw [readList, readItems, each]
    simp
  | _ => simp [readList, fail]

/-- What is written of the elements of a list is read back, if it is of each. -/
theorem readList_map (read : Value → Reading α) (write : α → Value) (xs : List α)
    (each : ∀ x ∈ xs, read (write x) = .ok x) : readList read (.list (xs.map write)) = .ok xs := by
  refine (readList_eq_ok_iff read _ xs).2 ⟨_, rfl, ?_⟩
  rw [List.forall₂_map_left_iff, List.forall₂_same]
  exact each

theorem readRecord_eq_ok_iff (record : String) (read : List (String × Value) → Reading α)
    (v : Value) (a : α) :
    readRecord record read v = .ok a ↔ ∃ fields, v = .object fields ∧ read fields = .ok a := by
  cases v <;> simp [readRecord, fail]

/-- A record that is made of its parts, and can be taken apart, is read when its parts are. -/
theorem readRecord_map_eq_ok_iff (record : String) (parts : List (String × Value) → Reading β)
    (build : β → α) (split : α → β) (apart : ∀ b, split (build b) = b)
    (together : ∀ a, build (split a) = a) (v : Value) (a : α) :
    readRecord record (fun o => (parts o).map build) v = .ok a ↔
      ∃ fields, v = .object fields ∧ parts fields = .ok (split a) := by
  rw [readRecord_eq_ok_iff]
  refine exists_congr fun fields => and_congr_right fun _ => ?_
  rw [map_eq_ok]
  constructor
  · rintro ⟨b, read, rfl⟩
    rw [apart, read]
  · intro read
    exact ⟨split a, read, together a⟩

end PipelineCompiler.Model
