import PipelineCompiler.Json.Decode
import PipelineCompiler.Proofs.Except
import PipelineCompiler.Proofs.OrderedMap

set_option autoImplicit false

namespace PipelineCompiler

/-- Every object inside the value names each field once. -/
inductive Value.WellKeyed : Value → Prop where
  | null : WellKeyed .null
  | bool (b : Bool) : WellKeyed (.bool b)
  | int (n : Int) : WellKeyed (.int n)
  | float (x : Binary64) : WellKeyed (.float x)
  | str (s : String) : WellKeyed (.str s)
  | list (items : List Value) (each : ∀ v ∈ items, WellKeyed v) : WellKeyed (.list items)
  | object (fields : List (String × Value)) (distinct : (fields.map Prod.fst).Nodup)
    (each : ∀ e ∈ fields, WellKeyed e.2) : WellKeyed (.object fields)

namespace Json

theorem wellKeyed_of_readWord (s : List Char) (r : Value × List Char)
    (found : readWord s = some r) : r.1.WellKeyed := by
  unfold readWord at found
  split at found
  · cases found
    exact .null
  · cases found
    exact .bool true
  · cases found
    exact .bool false
  · cases found
    exact .float _
  · cases found
    exact .float _
  · cases found
    exact .float _
  · cases found

theorem wellKeyed_of_readNumber (s : List Char) (r : Value × List Char)
    (found : readNumber s = .ok r) : r.1.WellKeyed := by
  unfold readNumber at found
  dsimp only at found
  -- The same with a sign and without one.
  split at found
  all_goals
    split at found
    · cases found
    · split at found
      · cases found
        exact .float _
      · split at found
        · split at found
          · cases found
            exact .int _
          · cases found
        · cases found
          exact .float _

section Turn

variable [Dialect] {room : Option Nat} {fuel : Nat} {s : List Char}

/-- A reader's value is well keyed, if the readers with less fuel keep fields and items so. -/
theorem wellKeyed_of_readValue_succ (r : Value × List Char)
    (fields : ∀ room s r, readFields room fuel s = .ok r → ∀ e ∈ r.1, e.2.WellKeyed)
    (items : ∀ room s r, readItems room fuel s = .ok r → ∀ v ∈ r.1, v.WellKeyed)
    (read : readValue room (fuel + 1) s = .ok r) : r.1.WellKeyed := by
  unfold readValue at read
  split at read
  · obtain ⟨text, -, rfl⟩ := (map_eq_ok _ _ r).1 read
    exact .str _
  · split at read
    · cases read
    split at read
    · cases read
      exact .object [] List.nodup_nil (by simp)
    · obtain ⟨inside, found, rfl⟩ := (map_eq_ok _ _ r).1 read
      refine .object _ (OrderedMap.nodup_keys_ofList inside.1) ?_
      intro e member
      exact fields _ _ inside found e (OrderedMap.mem_of_mem_entries_ofList inside.1 e member)
  · split at read
    · cases read
    split at read
    · cases read
      exact .list [] (by simp)
    · obtain ⟨inside, found, rfl⟩ := (map_eq_ok _ _ r).1 read
      exact .list _ (items _ _ inside found)
  · split at read
    · rename_i word
      cases read
      exact wellKeyed_of_readWord s r word
    · exact wellKeyed_of_readNumber s r read

theorem wellKeyed_of_readItems_succ (r : List Value × List Char)
    (value : ∀ s r, readValue room fuel s = .ok r → r.1.WellKeyed)
    (items : ∀ s r, readItems room fuel s = .ok r → ∀ v ∈ r.1, v.WellKeyed)
    (read : readItems room (fuel + 1) s = .ok r) : ∀ v ∈ r.1, v.WellKeyed := by
  rw [readItems] at read
  obtain ⟨first, found, read⟩ := (bind_eq_ok _ _ r).1 read
  have here := value _ first found
  dsimp only at read
  split at read
  · cases read
    simpa using here
  · obtain ⟨others, later, made⟩ := (bind_eq_ok _ _ r).1 read
    cases made
    exact List.forall_mem_cons.2 ⟨here, items _ others later⟩
  · cases read

theorem wellKeyed_of_readFields_succ (r : List (String × Value) × List Char)
    (value : ∀ s r, readValue room fuel s = .ok r → r.1.WellKeyed)
    (fields : ∀ s r, readFields room fuel s = .ok r → ∀ e ∈ r.1, e.2.WellKeyed)
    (read : readFields room (fuel + 1) s = .ok r) : ∀ e ∈ r.1, e.2.WellKeyed := by
  unfold readFields at read
  split at read
  · obtain ⟨name, -, read⟩ := (bind_eq_ok _ _ r).1 read
    dsimp only at read
    split at read
    · obtain ⟨first, found, read⟩ := (bind_eq_ok _ _ r).1 read
      have here := value _ first found
      split at read
      · cases read
        simpa using here
      · obtain ⟨others, later, made⟩ := (bind_eq_ok _ _ r).1 read
        cases made
        exact List.forall_mem_cons.2 ⟨here, fields _ others later⟩
      · cases read
    · cases read
  · cases read

end Turn

theorem wellKeyed_of_read [Dialect] (fuel : Nat) :
    (∀ room s r, readValue room fuel s = .ok r → r.1.WellKeyed) ∧
      (∀ room s r, readFields room fuel s = .ok r → ∀ e ∈ r.1, e.2.WellKeyed) ∧
      ∀ room s r, readItems room fuel s = .ok r → ∀ v ∈ r.1, v.WellKeyed := by
  induction fuel with
  | zero =>
    refine ⟨?_, ?_, ?_⟩ <;>
    · intro room s r read
      cases read
  | succ fuel ih =>
    obtain ⟨value, fields, items⟩ := ih
    exact ⟨fun _ _ r => wellKeyed_of_readValue_succ r fields items,
      fun room _ r => wellKeyed_of_readFields_succ r (value room) (fields room),
      fun room _ r => wellKeyed_of_readItems_succ r (value room) (items room)⟩

/-- At every depth the objects name each field once, whatever the text repeats. -/
theorem wellKeyed_of_decode [Dialect] (text : String) (v : Value) (read : decode text = .ok v) :
    v.WellKeyed := by
  have document := (mapError_eq_ok _ _ v).1 read
  unfold readDocument at document
  split at document
  · cases document
  · obtain ⟨r, found, made⟩ := (bind_eq_ok _ _ v).1 document
    dsimp only at made
    split at made
    · cases made
      exact (wellKeyed_of_read _).1 _ _ r found
    · cases made

end Json

end PipelineCompiler
