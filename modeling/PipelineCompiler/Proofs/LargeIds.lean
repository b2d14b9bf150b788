import Mathlib.Algebra.Group.Int.Defs
import PipelineCompiler.Proofs.Outcome
import PipelineCompiler.Proofs.Pruning

set_option autoImplicit false

/- Failures that compilation does not announce. Without repeated ids they all come of a number that
is too large: for a floating number, while placeholders are filled in, or for a text, which can be a
note, a warning or the message of an announced error. -/
namespace PipelineCompiler

theorem CompileError.showing_ne_naming (numbers : List Int) {e : CompileError}
    {reason : NamingError} (other : e ≠ .naming reason) : showing numbers e ≠ .naming reason := by
  rcases showing_eq_or numbers e with ⟨same, -⟩ | ⟨same, -⟩
  · rw [same]
    exact other
  · rw [same]
    simp

namespace Catalog

variable (c : Catalog)

theorem LinkFault.ne_naming {c : Catalog} {nodes : List Node} {links : List Link}
    {e : CompileError} (fault : c.LinkFault nodes links e) (reason : NamingError) :
    e ≠ .naming reason := by
  cases fault with
  | unknown => simp
  | outlet => exact CompileError.showing_ne_naming _ (by simp)
  | inlet => exact CompileError.showing_ne_naming _ (by simp)

/-- The error of a lookup is announced, unless it has to show an index that has no numeral. -/
theorem LinkFault.announced_or {c : Catalog} {nodes : List Node} {links : List Link}
    {e : CompileError} (fault : c.LinkFault nodes links e) :
    e.isAnnounced = true ∨ (e = .noNumeral ∧
      ∃ l ∈ links, hasNumeral l.outlet = false ∨ hasNumeral l.inlet = false) := by
  cases fault with
  | unknown => exact .inl rfl
  | outlet l linked =>
    rcases CompileError.showing_eq_or [(l.outlet : Int)] _ with ⟨same, -⟩ | ⟨same, n, only, without⟩
    · rw [same]
      exact .inl rfl
    · rw [List.mem_singleton.1 only] at without
      exact .inr ⟨same, l, linked, .inl without⟩
  | inlet l linked =>
    rcases CompileError.showing_eq_or [(l.inlet : Int)] _ with ⟨same, -⟩ | ⟨same, n, only, without⟩
    · rw [same]
      exact .inl rfl
    · rw [List.mem_singleton.1 only] at without
      exact .inr ⟨same, l, linked, .inr without⟩

theorem stepId_eq_tooLarge_iff (n : Node) :
    c.stepId n = .error (.naming .idTooLarge) ↔ c.Canonical n ∧ n.Oversized := by
  rw [stepId_eq_error_iff]
  simp

theorem portsOf_ne_tooLarge (n : Node) : c.portsOf n ≠ .error (.naming .idTooLarge) := by
  intro failed
  obtain ⟨-, shown⟩ := (c.pluginOf_eq_error_iff n _).1 ((map_eq_error _ _ _).1 failed)
  exact CompileError.showing_ne_naming [n.id] (by simp) shown.symm

/-- What filling in the placeholders of a node asks of it. -/
def Nameable (n : Node) : Prop := c.Knows n ∧ c.Canonical n ∧ ¬ n.Oversized

theorem exists_fillOutputs_iff (n : Node) :
    (∃ m, n.fillOutputs c = .ok m) ↔ c.Nameable n := by
  have named : (∃ id, c.stepId n = .ok id) ↔ c.Canonical n ∧ ¬ n.Oversized := by
    simp [stepId_eq_ok_iff, Canonical, Node.not_oversized_iff]
  simp only [fillOutputs_eq_ok_iff, exists_and_left, exists_eq, and_true, exists_portsOf_iff, named,
    Nameable]

theorem fillOutputs_eq_tooLarge_iff (n : Node) :
    n.fillOutputs c = .error (.naming .idTooLarge) ↔
      c.Knows n ∧ c.Canonical n ∧ n.Oversized := by
  rw [fillOutputs_eq_error_iff, exists_portsOf_iff, stepId_eq_tooLarge_iff]
  exact or_iff_right (c.portsOf_ne_tooLarge n)

/-- The first node at fault among those that no cycle keeps out is at fault by its id alone. -/
def StopsAtOversized (g : Graph) : Prop :=
  ∃ before n after, g.nodes = before ++ n :: after ∧ ¬ g.Blocked n.id ∧
    (c.Knows n ∧ c.Canonical n ∧ n.Oversized) ∧
    ∀ m ∈ before, ¬ g.Blocked m.id → c.Nameable m

variable {c} {g : Graph} {order : List Int}

theorem mem_order_iff (valid : g.IsOrder order) (n : Node) (inside : n ∈ g.nodes) :
    n.id ∈ order ↔ ¬ g.Blocked n.id := by
  rw [valid.mem_iff]
  exact and_iff_right (List.mem_map_of_mem inside)

/-- Provision leaves alone what the names of nodes are made of. -/
theorem fillPlaceholders_eq_tooLarge_iff (valid : g.IsOrder order) :
    fillPlaceholders c order (g.nodes.map Node.provision) = .error (.naming .idTooLarge) ↔
      c.StopsAtOversized g := by
  simp only [fillPlaceholders_eq_error_iff, fillOutputs_eq_tooLarge_iff, exists_fillOutputs_iff]
  constructor
  · rintro ⟨before, n, after, cut, ordered, fault, others⟩
    obtain ⟨front, rest, split, rfl, tail⟩ := List.map_eq_append_iff.1 cut
    obtain ⟨m, back, rfl, rfl, rfl⟩ := List.map_eq_cons_iff.1 tail
    have inside : m ∈ g.nodes := by simp [split]
    refine ⟨front, m, back, split, (mem_order_iff valid m inside).1 ordered, fault, ?_⟩
    intro k member runs
    have known : k ∈ g.nodes := by
      rw [split]
      exact List.mem_append_left _ member
    exact others k.provision (List.mem_map_of_mem member) ((mem_order_iff valid k known).2 runs)
  · rintro ⟨before, n, after, split, runs, fault, others⟩
    have inside : n ∈ g.nodes := by simp [split]
    refine ⟨before.map Node.provision, n.provision, after.map Node.provision, ?_,
      (mem_order_iff valid n inside).2 runs, fault, ?_⟩
    · rw [split, List.map_append, List.map_cons]
    · rw [List.forall_mem_map]
      intro k member ordered
      have known : k ∈ g.nodes := by
        rw [split]
        exact List.mem_append_left _ member
      exact others k member ((mem_order_iff valid k known).1 ordered)

/-- Once placeholders are filled in, no id is too large: a step and what is wired into it have their
places in the order. -/
theorem synthesize_eq_tooLarge_iff (header : Header) (distinct : g.ids.Nodup)
    (numbered : ∀ n ∈ g.nodes, hasNumeral n.id = true) (valid : g.IsOrder order) :
    synthesize c header order g = .error (.naming .idTooLarge) ↔ c.StopsAtOversized g := by
  rw [← fillPlaceholders_eq_tooLarge_iff valid, synthesize, bind_eq_error]
  constructor
  · rintro (filling | ⟨filled, settles, adding⟩)
    · rw [fillSettings, bind_eq_error] at filling
      rcases filling with placing | ⟨placed, places, inlining⟩
      · exact placing
      · have fault := c.linkFault_of_inlineValues_placed order g distinct numbered placed _ places
          inlining
        exact absurd rfl (fault.ne_naming _)
    · exfalso
      -- Every name that wiring asks for was made once already when its node was filled in.
      obtain ⟨⟨fills, -⟩, rfl⟩ := (fillSettings_eq_ok_iff c order g distinct filled).1 settles
      have same := c.settled_bare order g
      have ids : ∀ n, (c.settled order g n).id = n.id := fun n => Node.id_of_bare (same n)
      have named : ∀ n ∈ g.nodes, n.id ∈ order →
          c.stepId (c.settled order g n) ≠ .error (.naming .idTooLarge) := by
        intro n inside ordered failed
        obtain ⟨-, id, found⟩ := fills n inside ordered
        rw [c.stepId_congr (same n), found] at failed
        cases failed
      obtain ⟨m, step, w, -, fails⟩ := exists_turn_of_foldlM_eq_error _ (fun _ => True)
        (fun _ _ _ _ _ => trivial) _ _ _ trivial adding
      rw [stepNodes_map _ same] at step
      obtain ⟨n, emitted, rfl⟩ := List.mem_map.1 step
      obtain ⟨inside, ordered, -⟩ := (mem_stepNodes_iff order g.nodes distinct n).1 emitted
      rcases c.linkFault_or_stepId_of_addNode (Node.numerals_map _ same numbered) w _
        (List.mem_map_of_mem inside) fails with
        fault | unnamed | ⟨l, linked, here, source, found, unnamed⟩
      · exact fault.ne_naming _ rfl
      · exact named n inside ordered unnamed
      · rw [Node.last?_map _ ids, Option.map_eq_some_iff] at found
        obtain ⟨s, found, rfl⟩ := found
        rw [ids] at here
        obtain ⟨known, ran⟩ := valid.source_mem n inside ordered l linked here s found
        exact named s known ran unnamed
  · intro placing
    left
    rw [fillSettings, bind_eq_error]
    exact .inl placing

end Catalog

section Failures

variable (c : Catalog) (header : Header) (strict : Bool) (g : Graph)

theorem toWorkflow_eq_unwritten_iff (distinct : g.ids.Nodup) :
    toWorkflow c header strict g = .error (.order .noNumeral) ↔
      ¬ g.DanglingNumbered ∨ (g.HasEntry ∧ ∃ id ∈ g.ids, hasNumeral id = false) := by
  constructor
  · intro failed
    cases course c header strict g distinct with
    | stray dangling => exact .inl dangling
    | unwritten entry without => exact .inr ⟨entry, without⟩
    | noEntry _ stops | cyclic _ _ stops => cases stops.symm.trans failed
    | reached numbered _ _ order _ goesOn =>
      cases c.fault_of_synthesize header order g distinct (List.forall_mem_map.1 numbered.ids) _
        (goesOn.symm.trans failed) with
      | lookup _ fault => rcases fault.announced_or with h | ⟨h, -⟩ <;> cases h
  · rintro (unnumbered | ⟨entry, id, inside, without⟩)
    · exact c.toWorkflow_of_unnumbered header strict g unnumbered
    · by_cases dangling : g.DanglingNumbered
      · apply toWorkflow_of_unwritten_id c header strict g distinct dangling entry
        intro all
        rw [all id inside] at without
        cases without
      · exact c.toWorkflow_of_unnumbered header strict g dangling

theorem toWorkflow_eq_tooLarge_iff (distinct : g.ids.Nodup) :
    toWorkflow c header strict g = .error (.naming .idTooLarge) ↔
      g.Numbered ∧ g.HasEntry ∧ (strict = true → g.Acyclic) ∧ c.StopsAtOversized g := by
  constructor
  · intro failed
    cases course c header strict g distinct with
    | stray _ stops | noEntry _ stops | unwritten _ _ stops | cyclic _ _ stops =>
      cases stops.symm.trans failed
    | reached numbered entry accepted order valid goesOn =>
      rw [goesOn, Catalog.synthesize_eq_tooLarge_iff header distinct
        (List.forall_mem_map.1 numbered.ids) valid] at failed
      exact ⟨numbered, entry, accepted, failed⟩
  · rintro ⟨numbered, entry, accepted, stops⟩
    obtain ⟨order, found⟩ := (g.hasEntry_iff distinct).1 entry
    rw [toWorkflow_eq_synthesize c header strict g distinct numbered order found accepted,
      Catalog.synthesize_eq_tooLarge_iff header distinct (List.forall_mem_map.1 numbered.ids)
        (isOrder_of_sequence g distinct order found)]
    exact stops

/-- Where nothing is unwritten and no id is too large, an index without a numeral is left. -/
theorem announced_or_of_toWorkflow (distinct : g.ids.Nodup) (e : CompileError)
    (failed : toWorkflow c header strict g = .error e) :
    e.isAnnounced = true ∨ e = .order .noNumeral ∨ e = .naming .idTooLarge ∨
      (e = .noNumeral ∧
        ∃ l ∈ g.links, hasNumeral l.outlet = false ∨ hasNumeral l.inlet = false) := by
  cases course c header strict g distinct with
  | stray _ stops | unwritten _ _ stops =>
    cases stops.symm.trans failed
    exact .inr (.inl rfl)
  | noEntry _ stops | cyclic _ _ stops =>
    cases stops.symm.trans failed
    exact .inl rfl
  | reached numbered _ _ order _ goesOn =>
    cases c.fault_of_synthesize header order g distinct (List.forall_mem_map.1 numbered.ids) e
      (goesOn.symm.trans failed) with
    | lookup _ fault => exact fault.announced_or.imp_right fun index => .inr (.inr index)
    | unstable => exact .inl rfl
    | oversized => exact .inr (.inr (.inl rfl))

/-- No id of the order is lost when the steps are looked up among the filled nodes. -/
theorem map_id_of_fillSettings (distinct : g.ids.Nodup) (records : List Adjacency)
    (order : List Int) (nodes : List Node) (ordered : executionOrder g = .ok (records, order))
    (filled : fillSettings c order g.links g.nodes = .ok nodes) :
    (order.filterMap fun id => Node.last? id nodes).map Node.id = order := by
  obtain ⟨-, -, found⟩ := (executionOrder_eq_ok_iff distinct records).1 ordered
  obtain ⟨-, rfl⟩ := (fillSettings_eq_ok_iff c order g distinct nodes).1 filled
  apply map_id_filterMap_last?
  rw [Node.map_id_map _ (c.settled_bare order g)]
  exact fun id ran => (((isOrder_of_sequence g distinct order found).mem_iff id).1 ran).1

end Failures

/-- Without repeated ids every failed compilation is announced, but for numbers that are too large.
An id beyond all floating numbers stops compilation where it belongs to the first node at fault,
among those that no cycle keeps out, and that node is known and canonical. A number without a
numeral stops it as an end of a dangling link, as the id of any node where some node can run first,
or as an index beyond the ports. No lookup of a step fails otherwise. -/
theorem failure_announced_unless_id_too_large (c : Catalog) (header : Header) (strict : Bool)
    (g : Graph) (distinct : g.ids.Nodup) :
    (∀ e, toWorkflow c header strict g = .error e →
      e.isAnnounced = true ∨ e = .order .noNumeral ∨ e = .naming .idTooLarge ∨
        (e = .noNumeral ∧
          ∃ l ∈ g.links, hasNumeral l.outlet = false ∨ hasNumeral l.inlet = false)) ∧
    (toWorkflow c header strict g = .error (.naming .idTooLarge) ↔
      g.Numbered ∧ g.HasEntry ∧ (strict = true → g.Acyclic) ∧ c.StopsAtOversized g) ∧
    (toWorkflow c header strict g = .error (.order .noNumeral) ↔
      ¬ g.DanglingNumbered ∨ (g.HasEntry ∧ ∃ id ∈ g.ids, hasNumeral id = false)) ∧
    (∀ records order nodes, executionOrder g = .ok (records, order) →
      fillSettings c order g.links g.nodes = .ok nodes →
        (order.filterMap fun id => Node.last? id nodes).map Node.id = order) ∧
    (g.Numbered → (∀ n ∈ g.nodes, ¬ g.Blocked n.id → ¬ n.Oversized) →
      (∀ l ∈ g.links, hasNumeral l.outlet = true ∧ hasNumeral l.inlet = true) →
        ∀ e, toWorkflow c header strict g = .error e → e.isAnnounced = true) := by
  have announced := announced_or_of_toWorkflow c header strict g distinct
  have unwritten := toWorkflow_eq_unwritten_iff c header strict g distinct
  have tooLarge := toWorkflow_eq_tooLarge_iff c header strict g distinct
  refine ⟨announced, tooLarge, unwritten, map_id_of_fillSettings c g distinct, ?_⟩
  intro numbered small indices e failed
  rcases announced e failed with here | rfl | rfl | ⟨-, l, linked, without⟩
  · exact here
  · rcases unwritten.1 failed with stray | ⟨-, id, inside, without⟩
    · exact absurd numbered.dangling stray
    · rw [numbered.ids id inside] at without
      cases without
  · obtain ⟨-, -, -, before, n, after, split, runs, ⟨-, -, oversized⟩, -⟩ := tooLarge.1 failed
    have inside : n ∈ g.nodes := by simp [split]
    exact absurd oversized (small n inside runs)
  · obtain ⟨outlet, inlet⟩ := indices l linked
    simp [outlet, inlet] at without

theorem failure_announced_unless_id_too_large_relay :
    relayGraph.ids.Nodup ∧ relayGraph.Numbered ∧
      (∀ n ∈ relayGraph.nodes, ¬ relayGraph.Blocked n.id → ¬ n.Oversized) ∧
      (∀ l ∈ relayGraph.links, hasNumeral l.outlet = true ∧ hasNumeral l.inlet = true) ∧
      toWorkflow (.ofPlugins []) .default true relayGraph = .error (.pluginNotFound "relay" 1) ∧
      CompileError.isAnnounced (.pluginNotFound "relay" 1) = true := by
  have distinct : relayGraph.ids.Nodup := by decide
  have numbered : relayGraph.Numbered := ⟨by decide +kernel, by decide +kernel⟩
  have small : ∀ n ∈ relayGraph.nodes, ¬ relayGraph.Blocked n.id → ¬ n.Oversized := by
    have finite : ∀ n ∈ relayGraph.nodes, Binary64.fitsInt n.id = true := by decide +kernel
    intro n inside _
    rw [n.oversized_iff, finite n inside]
    decide
  have indices : ∀ l ∈ relayGraph.links,
      hasNumeral l.outlet = true ∧ hasNumeral l.inlet = true := by decide +kernel
  have fails : toWorkflow (.ofPlugins []) .default true relayGraph =
      .error (.pluginNotFound "relay" 1) := by decide +kernel
  obtain ⟨-, -, -, -, announced⟩ :=
    failure_announced_unless_id_too_large (.ofPlugins []) .default true relayGraph distinct
  exact ⟨distinct, numbered, small, indices, fails, announced numbered small indices _ fails⟩

/-- One node, with an id that no finite floating number is near. -/
def hugeGraph : Graph := { nodes := [⟨2 ^ 1024, "relay", "a", false, none⟩], links := [] }

theorem huge_id_fails_unannounced :
    hugeGraph.ids.Nodup ∧
      toWorkflow relayCatalog .default true hugeGraph = .error (.naming .idTooLarge) ∧
      CompileError.isAnnounced (.naming .idTooLarge) = false := by
  exact ⟨by decide +kernel, by decide +kernel, rfl⟩

end PipelineCompiler
