import PipelineCompiler.Catalog
import PipelineCompiler.Proofs.Except
import Std.Data.String.ToInt

set_option autoImplicit false

namespace PipelineCompiler

/-- Two texts with separators in them are equal when they are the same on both sides, or when one
reaches over the separator of the other. -/
theorem append_separator_eq_iff {α : Type} (c : α) (a b s t : List α) :
    a ++ c :: s = b ++ c :: t ↔
      (a = b ∧ s = t) ∨ ∃ r, (b = a ++ c :: r ∧ s = r ++ c :: t) ∨
        (a = b ++ c :: r ∧ t = r ++ c :: s) := by
  rw [List.append_eq_append_iff]
  constructor
  · rintro (⟨d, whole, rest⟩ | ⟨d, whole, rest⟩)
    · cases d with
      | nil => exact .inl ⟨by simpa using whole.symm, by simpa using rest⟩
      | cons x r =>
        rw [List.cons_append, List.cons.injEq] at rest
        obtain ⟨rfl, rest⟩ := rest
        exact .inr ⟨r, .inl ⟨whole, rest⟩⟩
    · cases d with
      | nil => exact .inl ⟨by simpa using whole, by simpa using rest.symm⟩
      | cons x r =>
        rw [List.cons_append, List.cons.injEq] at rest
        obtain ⟨rfl, rest⟩ := rest
        exact .inr ⟨r, .inr ⟨whole, rest⟩⟩
  · rintro (⟨rfl, rfl⟩ | ⟨r, ⟨rfl, rfl⟩ | ⟨rfl, rfl⟩⟩)
    · exact .inl ⟨[], by simp⟩
    · exact .inl ⟨c :: r, by simp⟩
    · exact .inr ⟨c :: r, by simp⟩

/-- Where the last separator of a text stands is determined by the text. -/
theorem eq_of_append_separator {α : Type} (c : α) (a b s t : List α) (left : c ∉ s) (right : c ∉ t)
    (same : a ++ c :: s = b ++ c :: t) : a = b ∧ s = t := by
  rcases (append_separator_eq_iff c a b s t).1 same with cut | ⟨r, ⟨-, rfl⟩ | ⟨-, rfl⟩⟩
  · exact cut
  · exact absurd (by simp) left
  · exact absurd (by simp) right

/-- An integer is written with digits, and a minus before them if it is negative. -/
theorem exists_digits_toString (n : Int) :
    ∃ digits, (∀ c ∈ digits, c.isDigit = true) ∧
      ((toString n).toList = digits ∨ (toString n).toList = '-' :: digits) := by
  have natural : ∀ k : Nat, ∀ c ∈ k.repr.toList, c.isDigit = true := by
    intro k c member
    rw [Nat.toList_repr] at member
    exact Nat.isDigit_of_mem_toDigits (by omega) (by omega) member
  change ∃ digits, _ ∧ (n.repr.toList = digits ∨ n.repr.toList = '-' :: digits)
  rw [Int.repr_eq_if]
  split
  · exact ⟨_, natural _, .inl rfl⟩
  · refine ⟨_, natural (-n).toNat, .inr ?_⟩
    rw [String.toList_append]
    rfl

theorem mem_toList_toString (n : Int) (c : Char) (member : c ∈ (toString n).toList) :
    c.isDigit = true ∨ c = '-' := by
  obtain ⟨digits, all, plain | minus⟩ := exists_digits_toString n
  · rw [plain] at member
    exact .inl (all c member)
  · rw [minus] at member
    rcases List.mem_cons.1 member with sign | digit
    · exact .inr sign
    · exact .inl (all c digit)

theorem not_mem_toList_toString (n : Int) (c : Char) (digit : c.isDigit = false) (minus : c ≠ '-') :
    c ∉ (toString n).toList := by
  intro member
  rcases mem_toList_toString n c member with isDigit | rfl
  · rw [digit] at isDigit
    cases isDigit
  · exact minus rfl

theorem exists_getLast?_toString (n : Int) :
    ∃ d, (toString n).toList.getLast? = some d ∧ d.isDigit = true := by
  have natural : ∀ k : Nat, ∃ d, k.repr.toList.getLast? = some d ∧ d.isDigit = true := by
    intro k
    rw [Nat.toList_repr]
    have filled : Nat.toDigits 10 k ≠ [] := Nat.toDigits_ne_nil
    exact ⟨_, List.getLast?_eq_some_getLast filled,
      Nat.isDigit_of_mem_toDigits (by omega) (by omega) (List.getLast_mem filled)⟩
  change ∃ d, n.repr.toList.getLast? = some d ∧ d.isDigit = true
  rw [Int.repr_eq_if]
  split
  · exact natural n.toNat
  · obtain ⟨d, last, digit⟩ := natural (-n).toNat
    refine ⟨d, ?_, digit⟩
    rw [String.toList_append, List.getLast?_append, last]
    rfl

namespace Catalog

/-- The id that the step of a node gets if it gets one. -/
def stepName (c : Catalog) (n : Node) : String := c.sanitize n.name ++ "_" ++ toString n.id

/-- The id of the step of a node, or why it has none. -/
theorem stepId_eq (c : Catalog) (n : Node) :
    c.stepId n =
      if c.sanitize (c.sanitize n.name) = c.sanitize n.name then
        if Binary64.fitsInt n.id = true then .ok (c.stepName n)
        else .error (.naming .idTooLarge)
      else .error (.naming (.notCanonical (c.sanitize n.name))) := by
  rw [stepId, stepIdOf, PipelineCompiler.stepId, idText]
  by_cases canonical : c.sanitize (c.sanitize n.name) = c.sanitize n.name
  · by_cases fits : Binary64.fitsInt n.id = true
    · simp [canonical, fits, Except.map, stepName]
    · simp [canonical, fits, Except.map]
  · simp [canonical]

theorem stepId_eq_ok_iff (c : Catalog) (n : Node) (id : String) :
    c.stepId n = .ok id ↔
      (c.sanitize (c.sanitize n.name) = c.sanitize n.name ∧ Binary64.fitsInt n.id = true) ∧
        id = c.stepName n := by
  rw [stepId_eq]
  by_cases canonical : c.sanitize (c.sanitize n.name) = c.sanitize n.name
  · by_cases fits : Binary64.fitsInt n.id = true
    · simp [canonical, fits, eq_comm]
    · simp [canonical, fits]
  · simp [canonical]

theorem eq_stepName (c : Catalog) (n : Node) (id : String) (named : c.stepId n = .ok id) :
    id = c.stepName n :=
  ((c.stepId_eq_ok_iff n id).1 named).2

theorem toList_stepName (c : Catalog) (n : Node) :
    (c.stepName n).toList = (c.sanitize n.name).toList ++ '_' :: (toString n.id).toList := by
  simp [stepName, String.toList_append]

theorem exists_getLast?_stepName (c : Catalog) (n : Node) :
    ∃ d, (c.stepName n).toList.getLast? = some d ∧ d.isDigit = true := by
  obtain ⟨d, last, digit⟩ := exists_getLast?_toString n.id
  refine ⟨d, ?_, digit⟩
  rw [toList_stepName, List.getLast?_append, List.getLast?_cons, last]
  rfl

/-- The id of a node stands behind the last low line. -/
theorem id_eq_of_stepName_eq (c : Catalog) (m n : Node) (same : c.stepName m = c.stepName n) :
    m.id = n.id := by
  have lists := congrArg String.toList same
  rw [toList_stepName, toList_stepName] at lists
  have free : ∀ k : Int, '_' ∉ (toString k).toList := fun k =>
    not_mem_toList_toString k '_' rfl (by decide)
  have digits := (eq_of_append_separator '_' _ _ _ _ (free m.id) (free n.id) lists).2
  exact Int.repr_injective (String.toList_injective digits)

end Catalog

theorem isSlugChar_of_mem_slugWordsFrom (current rest : List Char)
    (good : ∀ c ∈ current, isSlugChar c = true) :
    ∀ w ∈ slugWordsFrom current rest, ∀ c ∈ w, isSlugChar c = true := by
  induction rest generalizing current with
  | nil =>
    intro w member c inside
    rw [slugWordsFrom] at member
    split at member
    · cases member
    · rw [List.mem_singleton.1 member, List.mem_reverse] at inside
      exact good c inside
  | cons d rest ih =>
    intro w member
    rw [slugWordsFrom] at member
    split at member
    · rename_i fits
      exact ih (d :: current) (List.forall_mem_cons.2 ⟨fits, good⟩) w member
    · split at member
      · exact ih [] (by simp) w member
      · rcases List.mem_cons.1 member with rfl | later
        · intro c inside
          exact good c (List.mem_reverse.1 inside)
        · exact ih [] (by simp) w later

theorem mem_joinWords (words : List (List Char)) (c : Char) (member : c ∈ joinWords words) :
    c = '_' ∨ ∃ w ∈ words, c ∈ w := by
  fun_induction joinWords words with
  | case1 => cases member
  | case2 w => exact .inr ⟨w, by simp, member⟩
  | case3 w rest _ ih =>
    rw [List.mem_append, List.mem_cons] at member
    rcases member with here | low | later
    · exact .inr ⟨w, by simp, here⟩
    · exact .inl low
    · obtain low | ⟨v, among, inside⟩ := ih later
      · exact .inl low
      · exact .inr ⟨v, by simp [among], inside⟩

/-- A sanitised name has ASCII letters, digits and low lines. -/
theorem mem_slug (name : String) (c : Char) (member : c ∈ (slug name).toList) :
    c = '_' ∨ isSlugChar c = true := by
  rw [slug] at member
  split at member
  · have letters : "node".toList.all isSlugChar = true := by decide
    exact .inr (List.all_eq_true.1 letters c member)
  · rw [String.toList_ofList] at member
    rcases mem_joinWords _ c member with low | ⟨w, among, inside⟩
    · exact .inl low
    · exact .inr (isSlugChar_of_mem_slugWordsFrom [] name.toList (by simp) w among c inside)

end PipelineCompiler
