import PipelineCompiler.Proofs.Passes
import PipelineCompiler.Proofs.Slug

set_option autoImplicit false

namespace PipelineCompiler

theorem not_mem_slug_dash (name : String) : '-' ∉ (slug name).toList := by
  intro member
  rcases mem_slug name '-' member with low | fits
  · exact absurd low (by decide)
  · exact absurd fits (by decide)

namespace Catalog

variable (c : Catalog)

/-- A dash in the id of a step is the minus of its number, and has no step id before it. -/
theorem stepName_ne_append_dash (slugged : c.sanitize = slug) (m n : Node) (r : List Char) :
    (c.stepName n).toList ≠ (c.stepName m).toList ++ '-' :: r := by
  intro reaches
  have named : '-' ∉ (slug n.name).toList ++ ['_'] := by
    simp [not_mem_slug_dash n.name]
  obtain ⟨digits, all, plain | minus⟩ := exists_digits_toString n.id
  · have inside : '-' ∈ (c.stepName n).toList := by simp [reaches]
    rw [toList_stepName, slugged, plain, List.append_cons, List.mem_append] at inside
    rcases inside with name | digit
    · exact named name
    · exact absurd (all '-' digit) (by decide)
  · rw [c.toList_stepName n, slugged, minus, List.append_cons] at reaches
    rcases (append_separator_eq_iff '-' _ _ _ _).1 reaches with ⟨cut, -⟩ | ⟨_, ⟨-, rest⟩ | ⟨cut, -⟩⟩
    · -- What is before the minus ends with a low line.
      obtain ⟨d, last, digit⟩ := c.exists_getLast?_stepName m
      rw [← cut, List.getLast?_concat] at last
      cases last
      cases digit
    · have digit : '-' ∈ digits := by simp [rest]
      exact absurd (all '-' digit) (by decide)
    · exact named (by simp [cut])

/-- A placeholder tells its step and its output. -/
theorem placeholder_stepName_eq_iff (slugged : c.sanitize = slug) (m n : Node) (o p : String) :
    placeholder (c.stepName m) o = placeholder (c.stepName n) p ↔
      c.stepName m = c.stepName n ∧ o = p := by
  rw [placeholder, placeholder]
  constructor
  · intro same
    have lists := congrArg String.toList same
    have dash : "-".toList = ['-'] := rfl
    simp only [String.toList_append, dash, List.append_assoc, List.singleton_append] at lists
    rcases (append_separator_eq_iff '-' _ _ _ _).1 lists with
      ⟨step, output⟩ | ⟨r, ⟨longer, -⟩ | ⟨longer, -⟩⟩
    · exact ⟨String.toList_injective step, String.toList_injective output⟩
    · exact absurd longer (c.stepName_ne_append_dash slugged m n r)
    · exact absurd longer (c.stepName_ne_append_dash slugged n m r)
  · rintro ⟨step, rfl⟩
    rw [step]

end Catalog

/-- A text that the pass writes at an output of a node. -/
def Produced (nodes nodes' : List Node) (n : Node) (output text : String) : Prop :=
  ∃ m, (n, m) ∈ nodes.zip nodes' ∧ m.outputs.get? output ≠ n.outputs.get? output ∧
    m.outputs.get? output = some (.str text)

theorem Produced.exists_stepId {c : Catalog} {order : List Int} {nodes nodes' : List Node}
    (made : fillPlaceholders c order nodes = .ok nodes') {n : Node} {output text : String}
    (produced : Produced nodes nodes' n output text) :
    ∃ id, c.stepId n = .ok id ∧ text = placeholder id output := by
  obtain ⟨able, rfl⟩ := (fillPlaceholders_eq_ok_iff c order nodes nodes').1 made
  obtain ⟨m, among, changed, holds⟩ := produced
  rw [← List.map_prod_left_eq_zip] at among
  obtain ⟨n, member, pair⟩ := List.mem_map.1 among
  cases pair
  by_cases ordered : n.id ∈ order
  · obtain ⟨⟨ports, found⟩, id, named⟩ := able n member ordered
    have filled := c.filled_fill order n ordered ports found id named
    refine ⟨id, named, ?_⟩
    by_cases awaits : n.Awaits ports output
    · rw [filled.awaited output awaits] at holds
      cases holds
      rfl
    · exact absurd (filled.kept output awaits) changed
  · have same : c.fill order n = n := if_neg fun inside => ordered (List.contains_iff_mem.1 inside)
    exact absurd (by rw [same]) changed

/-- No two nodes get one step id, and no two outputs one placeholder. -/
theorem placeholders_tell_outputs_apart (c : Catalog) (slugged : c.sanitize = slug) :
    (∀ n, Binary64.fitsInt n.id = true → ∃ id, c.stepId n = .ok id) ∧
    (∀ m n s t, c.stepId m = .ok s → c.stepId n = .ok t →
      (m.id ≠ n.id → s ≠ t) ∧
        ∀ o p, m.id ≠ n.id ∨ o ≠ p → s ++ "-" ++ o ≠ t ++ "-" ++ p) ∧
    ∀ order nodes nodes', fillPlaceholders c order nodes = .ok nodes' →
      (∀ n output text, Produced nodes nodes' n output text →
        ∃ id, c.stepId n = .ok id ∧ text = id ++ "-" ++ output) ∧
      ∀ m n o p text other, Produced nodes nodes' m o text → Produced nodes nodes' n p other →
        m.id ≠ n.id ∨ o ≠ p → text ≠ other := by
  have ids : ∀ m n s t, c.stepId m = .ok s → c.stepId n = .ok t → m.id ≠ n.id → s ≠ t := by
    intro m n s t left right differ same
    rw [c.eq_stepName m s left, c.eq_stepName n t right] at same
    exact differ (c.id_eq_of_stepName_eq m n same)
  have apart : ∀ m n s t, c.stepId m = .ok s → c.stepId n = .ok t →
      ∀ o p, m.id ≠ n.id ∨ o ≠ p → placeholder s o ≠ placeholder t p := by
    intro m n s t left right o p differ same
    rw [c.eq_stepName m s left, c.eq_stepName n t right] at same
    obtain ⟨step, output⟩ := (c.placeholder_stepName_eq_iff slugged m n o p).1 same
    rcases differ with other | other
    · exact other (c.id_eq_of_stepName_eq m n step)
    · exact other output
  refine ⟨?_, fun m n s t left right => ⟨ids m n s t left right, apart m n s t left right⟩, ?_⟩
  · intro n fits
    exact ⟨_, (c.stepId_eq_ok_iff n _).2 ⟨⟨by rw [slugged, slug_slug], fits⟩, rfl⟩⟩
  · intro order nodes nodes' made
    refine ⟨fun n output text => Produced.exists_stepId made, ?_⟩
    intro m n o p text other left right differ
    obtain ⟨s, named, rfl⟩ := left.exists_stepId made
    obtain ⟨t, named', rfl⟩ := right.exists_stepId made
    exact apart m n s t named named' o p differ

def mirrorPlus : Node := ⟨1, "mirror", "a", false, none⟩

def mirrorMinus : Node := ⟨-1, "mirror", "a", false, none⟩

/-- An output whose name spells the number of a node. -/
def mirrorCatalog : Catalog :=
  .ofPlugins [⟨"mirror", "Mirror", none, [], "mirror:latest", [], [⟨"x", "string", true⟩,
    ⟨"1-x", "string", true⟩], []⟩]

theorem placeholders_tell_outputs_apart_mirror :
    mirrorCatalog.sanitize = slug ∧
      ∃ nodes', fillPlaceholders mirrorCatalog [1, -1] [mirrorPlus, mirrorMinus] = .ok nodes' ∧
        Produced [mirrorPlus, mirrorMinus] nodes' mirrorPlus "1-x" "a_1-1-x" ∧
        Produced [mirrorPlus, mirrorMinus] nodes' mirrorMinus "x" "a_-1-x" ∧
        mirrorPlus.id ≠ mirrorMinus.id ∧ "a_1-1-x" ≠ "a_-1-x" := by
  have made : (fillPlaceholders mirrorCatalog [1, -1] [mirrorPlus, mirrorMinus]).map
      (fun nodes' => nodes'.map fun n => (n.outputs.get? "x", n.outputs.get? "1-x")) =
        .ok [(some (.str "a_1-x"), some (.str "a_1-1-x")),
          (some (.str "a_-1-x"), some (.str "a_-1-1-x"))] := by decide +kernel
  obtain ⟨nodes', made, values⟩ := (map_eq_ok _ _ _).1 made
  obtain ⟨plus, rest, rfl, first, values⟩ := List.map_eq_cons_iff.1 values
  obtain ⟨minus, rest, rfl, second, -⟩ := List.map_eq_cons_iff.1 values
  have left : Produced [mirrorPlus, mirrorMinus] (plus :: minus :: rest) mirrorPlus "1-x"
      "a_1-1-x" := by
    refine ⟨plus, by simp, ?_, (Prod.mk.inj first).2⟩
    rw [(Prod.mk.inj first).2]
    decide
  have right : Produced [mirrorPlus, mirrorMinus] (plus :: minus :: rest) mirrorMinus "x"
      "a_-1-x" := by
    refine ⟨minus, by simp, ?_, (Prod.mk.inj second).1⟩
    rw [(Prod.mk.inj second).1]
    decide
  have signs : mirrorPlus.id ≠ mirrorMinus.id := by decide
  obtain ⟨-, -, written⟩ := placeholders_tell_outputs_apart mirrorCatalog rfl
  obtain ⟨-, apart⟩ := written [1, -1] _ _ made
  exact ⟨rfl, _, made, left, right, signs, apart _ _ _ _ _ _ left right (.inl signs)⟩

end PipelineCompiler
