import PipelineCompiler.Proofs.Dangling
import PipelineCompiler.Proofs.Outcome
import PipelineCompiler.Proofs.Restriction

set_option autoImplicit false

/- Leaving out the nodes that do not run. Every step gets the same values and the same sources
without them. Only errors can go away: the values of internal nodes are inlined wherever their links
lead. -/
namespace PipelineCompiler

/-- The nodes that run, with all links; none if there is no order. -/
def Graph.sequenced (g : Graph) : Graph :=
  match sequence (adjacency g.nodes g.links) with
  | .ok order => g.among order
  | .error _ => g.among []

namespace Graph

variable {g : Graph} {order : List Int}

theorem mem_among_iff (n : Node) : n ∈ (g.among order).nodes ↔ n ∈ g.nodes ∧ n.id ∈ order := by
  simp [among]

theorem last?_among (distinct : g.ids.Nodup) (id : Int) (ran : id ∈ order) :
    Node.last? id (g.among order).nodes = Node.last? id g.nodes := by
  ext n
  rw [Node.last?_eq_some_iff id _ (g.nodup_ids_among distinct order), mem_among_iff,
    Node.last?_eq_some_iff id g.nodes distinct]
  constructor
  · rintro ⟨⟨inside, -⟩, here⟩
    exact ⟨inside, here⟩
  · rintro ⟨inside, rfl⟩
    exact ⟨⟨inside, ran⟩, rfl⟩

theorem last?_source_among (valid : g.IsOrder order) (distinct : g.ids.Nodup) (l : Link)
    (linked : l ∈ g.links) (ran : l.target ∈ order) :
    Node.last? l.source (g.among order).nodes = Node.last? l.source g.nodes := by
  by_cases source : l.source ∈ order
  · exact last?_among distinct l.source source
  · have outside : l.source ∉ g.ids := by
      intro inside
      have joins : l.Joins g.ids := ⟨inside, ((valid.mem_iff l.target).1 ran).1⟩
      exact source (valid.precedes l linked joins ran).mem
    have outside' : l.source ∉ (g.among order).ids := by
      rw [g.ids_among]
      exact fun inside => outside (List.mem_filter.1 inside).1
    rw [Graph.ids, ← Node.last?_isSome_iff, Option.not_isSome_iff_eq_none] at outside outside'
    rw [outside, outside']

theorem stepNodes_among (distinct : g.ids.Nodup) :
    stepNodes order (g.among order).nodes = stepNodes order g.nodes := by
  have found : order.filterMap (fun id => Node.last? id (g.among order).nodes) =
      order.filterMap fun id => Node.last? id g.nodes :=
    List.filterMap_congr fun id ran => last?_among distinct id ran
  rw [stepNodes, stepNodes, found]

theorem Blocked.exists_feeds {id : Int} (blocked : g.Blocked id) : ∃ a, g.Feeds a id := by
  obtain ⟨first, cycle, leads⟩ := blocked
  rcases Relation.ReflTransGen.cases_tail leads with rfl | ⟨a, -, feeds⟩
  · obtain ⟨a, -, feeds⟩ := Relation.TransGen.tail'_iff.1 cycle
    exact ⟨a, feeds⟩
  · exact ⟨a, feeds⟩

theorem Numbered.among (numbered : g.Numbered) : (g.among order).Numbered where
  dangling := fun l linked => .inr (numbered.hasNumerals l linked)
  ids := by
    rw [g.ids_among]
    exact fun id inside => numbered.ids id (List.mem_filter.1 inside).1

/-- A node that does not run is fed by some link; without the node that link is dangling. -/
theorem numbered_of_among (valid : g.IsOrder order) (numbered : (g.among order).Numbered) :
    g.Numbered where
  dangling := by
    intro l linked
    refine (numbered.dangling l linked).imp_left ?_
    rw [Link.Joins, g.ids_among]
    exact fun joins => ⟨(List.mem_filter.1 joins.1).1, (List.mem_filter.1 joins.2).1⟩
  ids := by
    intro id inside
    by_cases ran : id ∈ order
    · apply numbered.ids
      rw [g.ids_among]
      exact List.mem_filter.2 ⟨inside, decide_eq_true ran⟩
    · have blocked : g.Blocked id := by
        by_contra free
        exact ran ((valid.mem_iff id).2 ⟨inside, free⟩)
      obtain ⟨a, l, linked, -, rfl, -⟩ := blocked.exists_feeds
      rcases numbered.dangling l linked with joins | noted
      · rw [Link.Joins, g.ids_among] at joins
        exact absurd (of_decide_eq_true (List.mem_filter.1 joins.2).2) ran
      · exact (Bool.and_eq_true_iff.1 noted).2

end Graph

namespace Catalog

variable {c : Catalog} {g : Graph} {order : List Int} (valid : g.IsOrder order)
  (distinct : g.ids.Nodup)

include valid distinct

/-- A node that runs gets what it got before. -/
theorem arrivals_among (fromInternal : Bool) (n : Node) (ran : n.id ∈ order) :
    c.arrivals (g.among order).nodes g.links fromInternal n =
      c.arrivals g.nodes g.links fromInternal n := by
  apply List.filterMap_congr
  intro l linked
  rw [arrival?, arrival?]
  by_cases here : l.target = n.id
  · rw [Graph.last?_source_among valid distinct l linked (here ▸ ran)]
  · rw [if_neg here, if_neg here]

theorem compiled_among (header : Header) :
    c.compiled header order (g.among order) = c.compiled header order g := by
  apply compiled_of_arrivals header distinct (g.nodup_ids_among distinct order)
    (Graph.stepNodes_among distinct)
  intro n step fromInternal
  have ran := ((mem_stepNodes_iff order g.nodes distinct n).1 step).2.1
  exact arrivals_among valid distinct fromInternal n ran

/-- Nodes that do not run matter to synthesis only as targets of internal nodes. -/
theorem synthesizes_of_among (able : c.Synthesizes order (g.among order))
    (inlines : ∀ l ∈ g.links, c.Inlines g.nodes l) : c.Synthesizes order g where
  fills := fun n inside ran => able.fills n ((Graph.mem_among_iff n).2 ⟨inside, ran⟩) ran
  inlines := inlines
  emits := by
    intro n step
    obtain ⟨-, ran, -⟩ := (mem_stepNodes_iff order g.nodes distinct n).1 step
    obtain ⟨plugin, named, wires⟩ := able.emits n (Graph.stepNodes_among distinct ▸ step)
    refine ⟨plugin, named, ?_⟩
    intro l linked here source found external
    rw [← Graph.last?_source_among valid distinct l linked (here ▸ ran)] at found
    exact wires l linked here source found external

/-- Synthesis of the whole graph can fail only at a link from an internal node. -/
theorem synthesize_of_among (header : Header) (numbered : g.Numbered)
    (able : c.Synthesizes order (g.among order)) :
    synthesize c header order g = .ok (c.compiled header order (g.among order)) ∨
      ∃ e, synthesize c header order g = .error e ∧ c.LinkFault g.nodes g.links e := by
  cases settled : fillSettings c order g.links g.nodes with
  | ok nodes =>
    left
    obtain ⟨⟨-, inlines⟩, -⟩ := (fillSettings_eq_ok_iff c order g distinct nodes).1 settled
    rw [c.synthesize_eq_ok_iff header order g distinct, compiled_among valid distinct header]
    exact ⟨synthesizes_of_among valid distinct able inlines, rfl⟩
  | error e =>
    right
    refine ⟨e, ?_, ?_⟩
    · rw [synthesize, settled]
      rfl
    · rw [fillSettings, bind_eq_error] at settled
      rcases settled with placing | ⟨placed, places, inlining⟩
      · have fills : ∀ n ∈ g.nodes.map Node.provision, n.id ∈ order →
            (∃ ports, c.portsOf n = .ok ports) ∧ ∃ id, c.stepId n = .ok id := by
          rw [List.forall_mem_map]
          exact fun n inside ran => able.fills n ((Graph.mem_among_iff n).2 ⟨inside, ran⟩) ran
        rw [(fillPlaceholders_eq_ok_iff c order _ _).2 ⟨fills, rfl⟩] at placing
        cases placing
      · exact c.linkFault_of_inlineValues_placed order g distinct
          (List.forall_mem_map.1 numbered.ids) placed e places inlining

end Catalog

section Pruning

variable {c : Catalog} {header : Header} {g : Graph} {order : List Int}

/-- All nodes that are left run. -/
theorem isIncomplete_among (distinct : g.ids.Nodup) :
    isIncomplete (adjacency (g.among order).nodes (g.among order).links) order = false := by
  have distinct' := g.nodup_ids_among distinct order
  have ran : (g.among order).ids ⊆ order := by
    rw [g.ids_among]
    intro id member
    exact of_decide_eq_true (List.mem_filter.1 member).2
  have short := (distinct'.subperm ran).length_le
  rw [isIncomplete, Sequence.length_adjacency distinct', decide_eq_false_iff_not]
  omega

theorem toWorkflow_sequenced (distinct : g.ids.Nodup) (w : Workflow)
    (made : toWorkflow c header false g = .ok w) (strict : Bool) :
    toWorkflow c header strict g.sequenced = .ok w := by
  obtain ⟨numbered, order, found, -, able, rfl⟩ :=
    (c.toWorkflow_eq_ok_iff header false g distinct w).1 made
  have valid := isOrder_of_sequence g distinct order found
  have distinct' := g.nodup_ids_among distinct order
  have able' := able.mono distinct distinct' (List.filter_subset_self _) (List.Subset.refl _)
    (List.Subset.refl order)
  rw [Graph.sequenced, found, c.toWorkflow_eq_ok_iff header strict _ distinct']
  refine ⟨numbered.among, order, sequence_among g distinct order found, ?_, able',
    (Catalog.compiled_among valid distinct header).symm⟩
  rw [isIncomplete_among distinct, Bool.and_false]

theorem toWorkflow_of_sequenced (distinct : g.ids.Nodup) (strict : Bool) (w : Workflow)
    (made : toWorkflow c header strict g.sequenced = .ok w) :
    toWorkflow c header false g = .ok w ∨
      ∃ e, toWorkflow c header false g = .error e ∧ c.LinkFault g.nodes g.links e := by
  have distinct' := fun order => g.nodup_ids_among distinct order
  rw [Graph.sequenced] at made
  cases found : sequence (adjacency g.nodes g.links) with
  | error e =>
    -- No node is left, and so none can run first.
    have none : ∀ id ∈ (g.among []).ids, ∃ a, (g.among []).Feeds a id := by
      simp [g.ids_among, Sequence.among]
    have stuck := (sequence_eq_noEntryPoint_iff (g.among []) (distinct' [])).2 none
    simp only [found] at made
    obtain ⟨-, order, found', -⟩ :=
      (c.toWorkflow_eq_ok_iff header strict _ (distinct' []) w).1 made
    rw [stuck] at found'
    cases found'
  | ok order =>
    simp only [found] at made
    obtain ⟨left, order', found', -, able, rfl⟩ :=
      (c.toWorkflow_eq_ok_iff header strict _ (distinct' order) w).1 made
    have same := (sequence_among g distinct order found).symm.trans found'
    cases same
    have valid := isOrder_of_sequence g distinct order found
    have numbered := Graph.numbered_of_among valid left
    have lenient : false = true → g.Acyclic := fun asked => by cases asked
    rw [toWorkflow_eq_synthesize c header false g distinct numbered order found lenient]
    exact Catalog.synthesize_of_among valid distinct header numbered able

end Pruning

/-- What does not run does not matter. Links to nowhere change neither the workflow nor the error,
if their ends can be noted; there is no workflow where they cannot. Without the nodes that do not
run a pipeline compiles to the same workflow, also in strict mode; and where only the pipeline
without them compiles, a link cannot be looked up in the whole one. -/
theorem compiled_without_idle (c : Catalog) (header : Header) (g : Graph)
    (distinct : g.ids.Nodup) :
    (∀ strict, g.DanglingNumbered →
      toWorkflow c header strict g.withoutDangling = toWorkflow c header strict g) ∧
    (∀ strict, ¬ g.DanglingNumbered →
      toWorkflow c header strict g = .error (.order .noNumeral)) ∧
    (∀ w, toWorkflow c header false g = .ok w →
      ∀ strict, toWorkflow c header strict g.sequenced = .ok w) ∧
    ∀ strict w, toWorkflow c header strict g.sequenced = .ok w →
      toWorkflow c header false g = .ok w ∨
        ∃ e, toWorkflow c header false g = .error e ∧ c.LinkFault g.nodes g.links e :=
  ⟨fun strict => toWorkflow_withoutDangling c header strict g distinct,
    fun strict => c.toWorkflow_of_unnumbered header strict g,
    toWorkflow_sequenced distinct, toWorkflow_of_sequenced distinct⟩

/-- The relay with a node that feeds itself, a link into it, and a link from nowhere. -/
def tangledGraph : Graph :=
  { nodes := relayGraph.nodes ++ [⟨4, "relay", "Loop", false, none⟩]
    links := relayGraph.links ++ [⟨4, 4, 0, 0⟩, ⟨1, 4, 0, 1⟩, ⟨9, 2, 7, 0⟩] }

theorem compiled_without_idle_tangled :
    tangledGraph.ids.Nodup ∧ tangledGraph.DanglingNumbered ∧
      tangledGraph.sequenced.ids = [1, 2, 3] ∧
      toWorkflow relayCatalog .default true tangledGraph = .error (.incomplete [4]) ∧
      ∃ w, toWorkflow relayCatalog .default false tangledGraph = .ok w ∧
        toWorkflow relayCatalog .default false tangledGraph.withoutDangling = .ok w ∧
        toWorkflow relayCatalog .default true tangledGraph.sequenced = .ok w := by
  have distinct : tangledGraph.ids.Nodup := by decide
  have ids : tangledGraph.sequenced.ids = [1, 2, 3] := by decide +kernel
  have strict : toWorkflow relayCatalog .default true tangledGraph = .error (.incomplete [4]) := by
    decide +kernel
  obtain ⟨w, made⟩ : ∃ w, toWorkflow relayCatalog .default false tangledGraph = .ok w := by
    apply exists_eq_ok_of_isOk
    decide +kernel
  have numbered : tangledGraph.DanglingNumbered := by decide +kernel
  obtain ⟨dangling, -, pruned, -⟩ :=
    compiled_without_idle relayCatalog .default tangledGraph distinct
  exact ⟨distinct, numbered, ids, strict, w, made, (dangling false numbered).trans made,
    pruned w made true⟩

/-- An internal node on a cycle of its own, over an outlet whose number no text can hold. -/
def endlessLoopGraph : Graph :=
  { nodes := [⟨1, "relay", "Tool", false, none⟩, ⟨2, "relay", "Loop", true, none⟩]
    links := [⟨2, 2, numeralBound, 0⟩] }

/-- A dangling link matters where it cannot be noted, and so does a node that does not run where the
error about its link cannot be written. -/
theorem idle_parts_without_numerals_matter :
    endlessLinkGraph.ids.Nodup ∧ endlessLoopGraph.ids.Nodup ∧
      toWorkflow relayCatalog .default false endlessLinkGraph = .error (.order .noNumeral) ∧
      (∃ w, toWorkflow relayCatalog .default false endlessLinkGraph.withoutDangling = .ok w) ∧
      toWorkflow relayCatalog .default false endlessLoopGraph = .error .noNumeral ∧
      ∃ w, toWorkflow relayCatalog .default false endlessLoopGraph.sequenced = .ok w := by
  refine ⟨by decide, by decide, by decide +kernel, ?_, by decide +kernel, ?_⟩ <;>
    apply exists_eq_ok_of_isOk <;> decide +kernel

-- An internal node is asked for its outlet even where the link leads to a node that does not run.
example : toWorkflow relayCatalog .default false
    { tangledGraph with links := tangledGraph.links ++ [⟨3, 4, 7, 0⟩] } =
      .error (.invalidLink .outlet ⟨3, 4, 7, 0⟩ "relay" 1) := by
  decide +kernel

end PipelineCompiler
