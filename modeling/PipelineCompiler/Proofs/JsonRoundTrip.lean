import PipelineCompiler.Proofs.Except
import PipelineCompiler.Proofs.JsonText
import PipelineCompiler.Proofs.OrderedMap

set_option autoImplicit false

namespace PipelineCompiler

/-- Values without numbers, whose objects name each field once. -/
inductive Value.Textual : Value → Prop where
  | null : Textual .null
  | bool (b : Bool) : Textual (.bool b)
  | str (s : String) : Textual (.str s)
  | list (items : List Value) (each : ∀ v ∈ items, Textual v) : Textual (.list items)
  | object (fields : List (String × Value)) (distinct : (fields.map Prod.fst).Nodup)
    (each : ∀ e ∈ fields, Textual e.2) : Textual (.object fields)

namespace Json

theorem skipBlank_newline (depth : Nat) (s : List Char) :
    skipBlank (newline depth ++ s) = skipBlank s := by
  apply List.dropWhile_append_of_pos
  intro c member
  rcases List.mem_cons.1 member with rfl | blank
  · rfl
  · rw [List.eq_of_mem_replicate blank]
    rfl

theorem skipBlank_cons (c : Char) (s : List Char) (solid : isBlank c = false) :
    skipBlank (c :: s) = c :: s :=
  List.dropWhile_cons_of_neg (by simp [solid])

theorem readValue_encodeText (fuel : Nat) (s : String) (rest : List Char) :
    readValue none (fuel + 1) (encodeText s ++ rest) = .ok (.str s, rest) := by
  have text := readText_flatMap_encodeChar (encodeText s ++ rest) s.toList rest
  have shape : encodeText s ++ rest = '"' :: (s.toList.flatMap encodeChar ++ '"' :: rest) := by
    simp [encodeText_eq]
  rw [shape] at text ⊢
  rw [readValue, text]
  simp [Except.map, hold_map_char]

theorem encodeText_append (k : String) (s : List Char) :
    encodeText k ++ s = '"' :: (k.toList.flatMap encodeChar ++ '"' :: s) := by
  simp [encodeText_eq]

theorem skipBlank_encodeText (k : String) (s : List Char) :
    skipBlank (encodeText k ++ s) = encodeText k ++ s := by
  rw [encodeText_append]
  exact skipBlank_cons _ _ rfl

/-- A value is read back where it is written, whatever follows. -/
def Reads (v : Value) : Prop :=
  ∀ depth fuel rest, 2 * (indented depth v).length < fuel →
    readValue none fuel (indented depth v ++ rest) = .ok (v, rest)

/-- The value starts with no blank, and with nothing that ends a list or marks the byte order. -/
def Starts (v : Value) : Prop :=
  ∀ depth, ∃ c s, indented depth v = c :: s ∧ isBlank c = false ∧ c ≠ ']' ∧ c ≠ '\uFEFF'

theorem skipBlank_indented {v : Value} (starts : Starts v) (depth : Nat) (rest : List Char) :
    skipBlank (indented depth v ++ rest) = indented depth v ++ rest := by
  obtain ⟨c, s, shape, solid, -, -⟩ := starts depth
  rw [shape]
  exact skipBlank_cons c _ solid

theorem starts_of_textual {v : Value} (textual : v.Textual) : Starts v := by
  intro depth
  cases textual with
  | null => exact ⟨'n', _, rfl, rfl, by decide, by decide⟩
  | bool b => cases b <;> exact ⟨_, _, rfl, rfl, by decide, by decide⟩
  | str s => exact ⟨'"', _, rfl, rfl, by decide, by decide⟩
  | list items => cases items <;> exact ⟨'[', _, rfl, rfl, by decide, by decide⟩
  | object fields => cases fields <;> exact ⟨'\x7b', _, rfl, rfl, by decide, by decide⟩

section Turn

variable {v : Value} (reads : Reads v) (depth fuel : Nat)
  (enough : 2 * (indented depth v).length < fuel) (behind : List Char)

include reads enough

/-- Behind an item the list ends, or goes on behind a comma. -/
theorem readItems_item :
    readItems none (fuel + 1) (indented depth v ++ behind) =
      match skipBlank behind with
      | ']' :: rest => .ok ([v], rest)
      | ',' :: rest => (readItems none fuel (skipBlank rest)).map fun r => (v :: r.1, r.2)
      | rest => .error (.expectingComma, rest) := by
  rw [readItems, reads depth fuel behind enough]
  rfl

theorem readFields_field (starts : Starts v) (k : String) :
    readFields none (fuel + 1) (encodeText k ++ ':' :: ' ' :: (indented depth v ++ behind)) =
      match skipBlank behind with
      | '\x7d' :: rest => .ok ([(k, v)], rest)
      | ',' :: rest => (readFields none fuel (skipBlank rest)).map fun r => ((k, v) :: r.1, r.2)
      | rest => .error (.expectingComma, rest) := by
  rw [encodeText_append, readFields, readText_flatMap_encodeChar]
  have value : readValue none fuel (skipBlank (' ' :: (indented depth v ++ behind))) =
      .ok (v, behind) := by
    refine Eq.trans ?_ (reads depth fuel behind enough)
    exact congrArg (readValue none fuel) (skipBlank_indented starts depth behind)
  simp only [bind, Except.bind, skipBlank_cons ':' _ rfl, value, hold_map_char,
    String.ofList_toList]
  rfl

end Turn

theorem readItems_indented (depth outer : Nat) (rest : List Char) (v : Value) (items : List Value)
    (reads : ∀ w ∈ v :: items, Reads w) (starts : ∀ w ∈ v :: items, Starts w) (fuel : Nat)
    (enough : 2 * (indented depth v ++ indentedItems depth items).length + 1 < fuel) :
    readItems none fuel
        (indented depth v ++ (indentedItems depth items ++ (newline outer ++ ']' :: rest)))
      = .ok (v :: items, rest) := by
  induction items generalizing v fuel with
  | nil =>
    obtain ⟨fuel, rfl⟩ := Nat.exists_eq_add_of_le' (Nat.one_le_of_lt enough)
    rw [List.length_append] at enough
    rw [readItems_item (reads v List.mem_cons_self) depth fuel (by omega), indentedItems,
      List.nil_append, skipBlank_newline, skipBlank_cons _ _ rfl]
    rfl
  | cons w items ih =>
    obtain ⟨fuel, rfl⟩ := Nat.exists_eq_add_of_le' (Nat.one_le_of_lt enough)
    obtain ⟨here, reads⟩ := List.forall_mem_cons.1 reads
    obtain ⟨-, starts⟩ := List.forall_mem_cons.1 starts
    simp only [indentedItems, List.cons_append, List.append_assoc, List.length_append,
      List.length_cons] at enough ⊢
    have others := ih w reads starts fuel (by
      rw [List.length_append]
      omega)
    rw [readItems_item here depth fuel (by omega), skipBlank_cons _ _ rfl]
    simp only [skipBlank_newline, skipBlank_indented (starts w List.mem_cons_self), others]
    rfl

theorem readFields_indented (depth outer : Nat) (rest : List Char) (e : String × Value)
    (fields : List (String × Value)) (reads : ∀ f ∈ e :: fields, Reads f.2)
    (starts : ∀ f ∈ e :: fields, Starts f.2) (fuel : Nat)
    (enough : 2 * (indented depth e.2 ++ indentedFields depth fields).length + 1 < fuel) :
    readFields none fuel (encodeText e.1 ++ ':' :: ' ' :: (indented depth e.2 ++
      (indentedFields depth fields ++ (newline outer ++ '\x7d' :: rest)))) =
        .ok (e :: fields, rest) := by
  induction fields generalizing e fuel with
  | nil =>
    obtain ⟨fuel, rfl⟩ := Nat.exists_eq_add_of_le' (Nat.one_le_of_lt enough)
    rw [List.length_append] at enough
    rw [readFields_field (reads e List.mem_cons_self) depth fuel (by omega) _
      (starts e List.mem_cons_self), indentedFields, List.nil_append, skipBlank_newline,
      skipBlank_cons _ _ rfl]
    rfl
  | cons f fields ih =>
    obtain ⟨fuel, rfl⟩ := Nat.exists_eq_add_of_le' (Nat.one_le_of_lt enough)
    obtain ⟨here, reads⟩ := List.forall_mem_cons.1 reads
    obtain ⟨first, starts⟩ := List.forall_mem_cons.1 starts
    simp only [indentedFields, List.cons_append, List.append_assoc, List.length_append,
      List.length_cons, List.nil_append] at enough ⊢
    have others := ih f reads starts fuel (by
      rw [List.length_append]
      omega)
    rw [readFields_field here depth fuel (by omega) _ first, skipBlank_cons _ _ rfl]
    simp only [skipBlank_newline, skipBlank_encodeText, others]
    rfl

/-- What is behind a bracket and its blanks is the first item, unless it closes the list. -/
theorem readValue_list (fuel : Nat) (inside rest : List Char) (items : List Value)
    (more : ∀ s, skipBlank inside ≠ ']' :: s)
    (read : readItems none fuel (skipBlank inside) = .ok (items, rest)) :
    readValue none (fuel + 1) ('[' :: inside) = .ok (.list items, rest) := by
  rw [readValue]
  simp only [roomInside]
  rw [read]
  rfl

theorem readValue_object (fuel : Nat) (inside rest : List Char) (fields : List (String × Value))
    (more : ∀ s, skipBlank inside ≠ '\x7d' :: s)
    (read : readFields none fuel (skipBlank inside) = .ok (fields, rest)) :
    readValue none (fuel + 1) ('\x7b' :: inside) =
      .ok (.object (OrderedMap.ofList fields).entries, rest) := by
  rw [readValue]
  simp only [roomInside]
  rw [read]
  rfl

theorem reads_of_textual {v : Value} (textual : v.Textual) : Reads v := by
  -- Each layer gives its readers one turn less, and their text is shorter by two brackets.
  induction textual with
  | null =>
    intro depth fuel rest enough
    obtain ⟨fuel, rfl⟩ := Nat.exists_eq_add_of_le' (Nat.one_le_of_lt enough)
    rfl
  | bool b =>
    intro depth fuel rest enough
    obtain ⟨fuel, rfl⟩ := Nat.exists_eq_add_of_le' (Nat.one_le_of_lt enough)
    cases b <;> rfl
  | str s =>
    intro depth fuel rest enough
    obtain ⟨fuel, rfl⟩ := Nat.exists_eq_add_of_le' (Nat.one_le_of_lt enough)
    exact readValue_encodeText fuel s rest
  | list items each reads =>
    intro depth fuel rest enough
    obtain ⟨fuel, rfl⟩ := Nat.exists_eq_add_of_le' (Nat.one_le_of_lt enough)
    cases items with
    | nil => rfl
    | cons v items =>
      have starts : ∀ w ∈ v :: items, Starts w := fun w member => starts_of_textual (each w member)
      simp only [indented, List.cons_append, List.append_assoc, List.length_append,
        List.length_cons] at enough ⊢
      apply readValue_list
      · intro s closed
        obtain ⟨c, front, shape, -, apart, -⟩ := starts v List.mem_cons_self (depth + 1)
        rw [skipBlank_newline, skipBlank_indented (starts v List.mem_cons_self), shape] at closed
        exact apart (List.cons.inj closed).1
      · rw [skipBlank_newline, skipBlank_indented (starts v List.mem_cons_self)]
        refine readItems_indented (depth + 1) depth rest v items reads starts fuel ?_
        rw [List.length_append]
        omega
  | object fields distinct each reads =>
    intro depth fuel rest enough
    obtain ⟨fuel, rfl⟩ := Nat.exists_eq_add_of_le' (Nat.one_le_of_lt enough)
    cases fields with
    | nil => rfl
    | cons e fields =>
      have starts : ∀ f ∈ e :: fields, Starts f.2 :=
        fun f member => starts_of_textual (each f member)
      have kept := OrderedMap.entries_ofList_of_nodup (e :: fields) distinct
      simp only [indented, List.cons_append, List.append_assoc, List.length_append,
        List.length_cons, List.nil_append] at enough ⊢
      refine (readValue_object fuel _ rest (e :: fields) ?_ ?_).trans ?_
      · intro s closed
        rw [skipBlank_newline, skipBlank_encodeText, encodeText_append] at closed
        exact absurd (List.cons.inj closed).1 (by decide)
      · rw [skipBlank_newline, skipBlank_encodeText]
        refine readFields_indented (depth + 1) depth rest e fields reads starts fuel ?_
        rw [List.length_append]
        omega
      · rw [kept]

/-- A value without numbers is read back from the text that is written of it. -/
theorem decode_encodeIndented {v : Value} (textual : v.Textual) :
    decode (encodeIndented v) = .ok v := by
  have starts := starts_of_textual textual
  have read := reads_of_textual textual 0 (2 * (indented 0 v).length + 1) [] (by omega)
  have blank := skipBlank_indented starts 0 []
  rw [List.append_nil] at read blank
  have document : readDocument (indented 0 v) = .ok v := by
    unfold readDocument
    split
    · rename_i marked
      obtain ⟨c, s, shape, -, -, apart⟩ := starts 0
      rw [shape] at marked
      exact absurd (List.cons.inj marked).1 apart
    · rw [blank]
      refine (bind_eq_ok _ _ _).2 ⟨_, read, rfl⟩
  rw [decode, encodeIndented, String.toList_ofList, document]
  rfl

theorem return_not_mem_newline (depth : Nat) : '\r' ∉ newline depth := by
  simp [newline, List.mem_replicate]

theorem return_not_mem_indentedItems (depth : Nat) (items : List Value)
    (each : ∀ v ∈ items, '\r' ∉ indented depth v) : '\r' ∉ indentedItems depth items := by
  induction items with
  | nil => simp [indentedItems]
  | cons v items ih =>
    obtain ⟨here, others⟩ := List.forall_mem_cons.1 each
    simp [indentedItems, return_not_mem_newline, here, ih others]

theorem return_not_mem_indentedFields (depth : Nat) (fields : List (String × Value))
    (each : ∀ e ∈ fields, '\r' ∉ indented depth e.2) : '\r' ∉ indentedFields depth fields := by
  induction fields with
  | nil => simp [indentedFields]
  | cons e fields ih =>
    obtain ⟨here, others⟩ := List.forall_mem_cons.1 each
    simp [indentedFields, return_not_mem_newline, return_not_mem_encodeText, here, ih others]

theorem return_not_mem_indented {v : Value} (textual : v.Textual) (depth : Nat) :
    '\r' ∉ indented depth v := by
  induction textual generalizing depth with
  | null => simp [indented, encodeLeaf]
  | bool b => cases b <;> simp [indented, encodeLeaf]
  | str s => exact return_not_mem_encodeText s
  | list items each ih =>
    cases items with
    | nil => simp [indented, encodeLeaf]
    | cons v items =>
      obtain ⟨here, others⟩ := List.forall_mem_cons.1 ih
      have rest := return_not_mem_indentedItems (depth + 1) items fun w member =>
        others w member (depth + 1)
      simp [indented, return_not_mem_newline, here, rest]
  | object fields distinct each ih =>
    cases fields with
    | nil => simp [indented, encodeLeaf]
    | cons e fields =>
      obtain ⟨here, others⟩ := List.forall_mem_cons.1 ih
      have rest := return_not_mem_indentedFields (depth + 1) fields fun f member =>
        others f member (depth + 1)
      simp [indented, return_not_mem_newline, return_not_mem_encodeText, here, rest]

end Json

end PipelineCompiler
