import Mathlib.Data.List.Nodup
import Mathlib.Data.List.Perm.Basic
import PipelineCompiler.Proofs.Catalog

set_option autoImplicit false

namespace PipelineCompiler

/-- The declared ports of one direction. -/
def Plugin.ports (p : Plugin) : Direction → List Binding
  | .inputs => p.inputs
  | .outputs => p.outputs

def PortOrder.ports (o : PortOrder) : Direction → List Binding
  | .inputs => o.inputs
  | .outputs => o.outputs

/-- How many entries stand before the first one that names the port. -/
def Plugin.entriesBefore (p : Plugin) (d : Direction) (b : Binding) : Nat :=
  p.ui.findIdx fun entry => entry.key = d.key b.name

theorem dropStart?_eq_some_iff (start s rest : List Char) :
    dropStart? start s = some rest ↔ s = start ++ rest := by
  induction start generalizing s with
  | nil => simp [dropStart?]
  | cons c start ih =>
    cases s with
    | nil => simp [dropStart?]
    | cons d s => by_cases same : c = d <;> simp [dropStart?, same, ih, Ne.symm]

/-- An entry names a port when it has the key of that port. -/
theorem UiEntry.port?_eq_some_iff (d : Direction) (entry : UiEntry) (name : String) :
    entry.port? d = some name ↔ entry.key = d.key name := by
  have split : (d.key name).toList = (d.key "").toList ++ name.toList := by
    simp [Direction.key]
  rw [port?, Option.map_eq_some_iff, ← String.toList_inj, split]
  constructor
  · rintro ⟨rest, found, rfl⟩
    rw [String.toList_ofList]
    exact (dropStart?_eq_some_iff _ _ rest).1 found
  · intro same
    exact ⟨name.toList, (dropStart?_eq_some_iff _ _ _).2 same, String.ofList_toList⟩

namespace Plugin

variable (p : Plugin) (d : Direction)

/-- The names of one direction that the entries of the user interface have, in their order. -/
def entryNames : List String := p.ui.filterMap (UiEntry.port? d)

theorem ports_editorOrder :
    p.editorOrder.ports d = orderBindings (p.entryNames d) (p.ports d) := by
  cases d <;> rfl

theorem exposes_iff (name : String) :
    p.editorOrder.exposes (d.key name) = true ↔ name ∈ p.entryNames d := by
  rw [PortOrder.exposes, entryNames, List.any_eq_true, List.mem_filterMap]
  simp only [UiEntry.port?_eq_some_iff, decide_eq_true_eq]
  rfl

end Plugin

theorem pairwise_eraseDups_filterMap {α β : Type} [DecidableEq β] (find : α → Option β)
    (xs : List α) :
    (xs.filterMap find).eraseDups.Pairwise fun a b =>
      xs.findIdx (fun x => find x = some a) < xs.findIdx (fun x => find x = some b) := by
  induction xs with
  | nil => simp
  | cons x rest ih =>
    cases found : find x with
    | none =>
      rw [List.filterMap_cons_none found]
      refine ih.imp ?_
      intro a b earlier
      simpa [List.findIdx_cons, found] using earlier
    | some c =>
      -- The first element comes before all others, and takes its name away from them.
      rw [List.filterMap_cons_some found, List.eraseDups_cons, List.pairwise_cons]
      constructor
      · intro b later
        have apart : ¬ c = b := by
          rintro rfl
          simp at later
        simp [List.findIdx_cons, found, apart]
      · rw [eraseDups_filter]
        refine (ih.filter _).imp_of_mem ?_
        intro a b amongA amongB earlier
        have apartA : ¬ c = a := by
          rintro rfl
          simp at amongA
        have apartB : ¬ c = b := by
          rintro rfl
          simp at amongB
        simpa [List.findIdx_cons, found, apartA, apartB] using earlier

section Declared

variable (named : List String) (bindings : List Binding)
  (unique : (bindings.map Binding.name).Nodup)

include unique

/-- Without repeated names a name finds its binding. -/
theorem lastNamed?_eq_some_iff (name : String) (b : Binding) :
    Binding.lastNamed? name bindings = some b ↔ b ∈ bindings ∧ b.name = name := by
  constructor
  · intro found
    exact ⟨mem_of_lastNamed? name bindings b found, name_of_lastNamed? name bindings b found⟩
  · rintro ⟨member, rfl⟩
    induction bindings with
    | nil => cases member
    | cons c rest ih =>
      obtain ⟨fresh, unique⟩ := List.nodup_cons.1 unique
      rw [Binding.lastNamed?]
      rcases List.mem_cons.1 member with rfl | later
      · have none : Binding.lastNamed? b.name rest = none := by
          rw [Option.eq_none_iff_forall_ne_some]
          intro e found
          rw [← name_of_lastNamed? _ rest e found] at fresh
          exact fresh (List.mem_map_of_mem (mem_of_lastNamed? _ rest e found))
        simp [none]
      · rw [ih unique later]

theorem mem_shown_iff (b : Binding) :
    b ∈ named.eraseDups.filterMap (fun name => Binding.lastNamed? name bindings) ↔
      b ∈ bindings ∧ b.name ∈ named := by
  simp only [List.mem_filterMap, List.mem_eraseDups, lastNamed?_eq_some_iff bindings unique]
  constructor
  · rintro ⟨name, listed, member, rfl⟩
    exact ⟨member, listed⟩
  · rintro ⟨member, listed⟩
    exact ⟨b.name, listed, member, rfl⟩

theorem orderBindings_perm : (orderBindings named bindings).Perm bindings := by
  have distinct := (nodup_names_orderBindings named bindings unique).of_map
  rw [List.perm_ext_iff_of_nodup distinct unique.of_map]
  intro b
  constructor
  · exact mem_of_mem_orderBindings named bindings b
  · intro member
    rw [orderBindings, List.mem_append, mem_shown_iff named bindings unique]
    by_cases listed : b.name ∈ named <;> simp [member, listed]

end Declared

/-- The ports that entries name are shown by the first entry that names each. -/
theorem Plugin.shown_pairwise (p : Plugin) (d : Direction) :
    ((p.entryNames d).eraseDups.filterMap
      fun name => Binding.lastNamed? name (p.ports d)).Pairwise fun b c =>
        p.entriesBefore d b < p.entriesBefore d c := by
  rw [List.pairwise_filterMap]
  refine (pairwise_eraseDups_filterMap (UiEntry.port? d) p.ui).imp ?_
  intro first second earlier b foundB c foundC
  obtain rfl := name_of_lastNamed? first _ b foundB
  obtain rfl := name_of_lastNamed? second _ c foundC
  simpa only [UiEntry.port?_eq_some_iff, entriesBefore] using earlier

theorem existsUnique_getElem? {α : Type} (xs : List α) (distinct : xs.Nodup) (a : α)
    (member : a ∈ xs) : ∃! i : Nat, xs[i]? = some a := by
  obtain ⟨i, here⟩ := List.mem_iff_getElem?.1 member
  refine ⟨i, here, ?_⟩
  intro j there
  obtain ⟨inside, -⟩ := List.getElem?_eq_some_iff.1 there
  exact (List.getElem?_inj inside distinct).1 (there.trans here.symm)

/-- Of each direction the editor shows the declared ports, each once: those that an entry names, by
the first entry that names each, and behind them the others as declared. Every port has one index,
and every index below the number of ports has a port. -/
theorem editorOrder_rearranges (p : Plugin) (d : Direction)
    (unique : ((p.ports d).map Binding.name).Nodup) :
    (p.editorOrder.ports d).Perm (p.ports d) ∧
      (∃ shown, p.editorOrder.ports d =
          shown ++ (p.ports d).filter (fun b => !p.editorOrder.exposes (d.key b.name)) ∧
        (∀ b, b ∈ shown ↔ b ∈ p.ports d ∧ p.editorOrder.exposes (d.key b.name) = true) ∧
        shown.Pairwise fun b c => p.entriesBefore d b < p.entriesBefore d c) ∧
      (∀ b ∈ p.ports d, ∃! i : Nat, (p.editorOrder.ports d)[i]? = some b) ∧
      ∀ i < (p.editorOrder.ports d).length,
        ∃ b ∈ p.ports d, (p.editorOrder.ports d)[i]? = some b := by
  have perm : (p.editorOrder.ports d).Perm (p.ports d) := by
    rw [p.ports_editorOrder d]
    exact orderBindings_perm _ _ unique
  refine ⟨perm, ?_, ?_, ?_⟩
  · refine ⟨_, ?_, ?_, p.shown_pairwise d⟩
    · rw [p.ports_editorOrder d, orderBindings]
      congr 1
      apply List.filter_congr
      intro b _
      rw [Bool.eq_iff_iff]
      simp [← p.exposes_iff d]
    · intro b
      rw [mem_shown_iff _ _ unique, p.exposes_iff d]
  · intro b member
    exact existsUnique_getElem? _ (perm.nodup_iff.2 unique.of_map) b (perm.mem_iff.2 member)
  · intro i inside
    have here := List.getElem?_eq_getElem inside
    exact ⟨_, perm.mem_iff.1 (List.getElem_mem inside), here⟩

/-- An aligner whose entries name ports of both directions, one of them twice, and keys that are no
ports. -/
def alignerPlugin : Plugin where
  id := "aligner"
  name := "Aligner"
  version := none
  baseCommand := ["align"]
  container := "aligner:latest"
  inputs := [⟨"grid", "number", false⟩, ⟨"grid.step", "number", false⟩, ⟨"scan", "file", true⟩]
  outputs := [⟨"scan", "file", false⟩]
  ui :=
    ["inputs.scan", "outputs.scan", "inputs.grid.step", "inputs.scan", "help", "inputs.size"].map
      fun key => ⟨key, none, .empty⟩

theorem editorOrder_rearranges_aligner :
    ((alignerPlugin.ports .inputs).map Binding.name).Nodup ∧
      (alignerPlugin.editorOrder.ports .inputs).map Binding.name = ["scan", "grid.step", "grid"] ∧
      ∃! i : Nat, (alignerPlugin.editorOrder.ports .inputs)[i]? =
        some ⟨"grid.step", "number", false⟩ := by
  have unique : ((alignerPlugin.ports .inputs).map Binding.name).Nodup := by decide
  obtain ⟨-, -, index, -⟩ := editorOrder_rearranges alignerPlugin .inputs unique
  exact ⟨unique, by decide +kernel, index _ (by decide)⟩

end PipelineCompiler
