import PipelineCompiler.Proofs.Faults

set_option autoImplicit false

namespace PipelineCompiler

namespace Graph

/-- Nothing feeds some node. -/
def HasEntry (g : Graph) : Prop := ∃ id ∈ g.ids, ∀ a, ¬ g.Feeds a id

/-- No links lead from a node back to itself. -/
def Acyclic (g : Graph) : Prop := ∀ id, ¬ Relation.TransGen g.Feeds id id

variable {g : Graph} {order : List Int}

theorem not_hasEntry_iff : ¬ g.HasEntry ↔ ∀ id ∈ g.ids, ∃ a, g.Feeds a id := by
  simp [HasEntry]

theorem hasEntry_iff (g : Graph) (distinct : g.ids.Nodup) :
    g.HasEntry ↔ ∃ order, sequence (adjacency g.nodes g.links) = .ok order := by
  constructor
  · intro entry
    obtain ⟨order, found, -⟩ := sequence_of_entry g distinct fun fed =>
      not_hasEntry_iff.2 fed entry
    exact ⟨order, found⟩
  · rintro ⟨order, found⟩
    by_contra none
    rw [(sequence_eq_noEntryPoint_iff g distinct).2 (not_hasEntry_iff.1 none)] at found
    cases found

/-- Without cycles every node is in the order; a node on a cycle is not. -/
theorem IsOrder.length_lt_iff (valid : g.IsOrder order) (distinct : g.ids.Nodup) :
    order.length < g.ids.length ↔ ¬ g.Acyclic := by
  constructor
  · intro short acyclic
    have inside : g.ids ⊆ order := by
      intro id member
      refine (valid.mem_iff id).2 ⟨member, ?_⟩
      intro blocked
      obtain ⟨a, cycle, -⟩ := blocked
      exact acyclic a cycle
    have bounded := (distinct.subperm inside).length_le
    omega
  · intro cyclic
    obtain ⟨id, cycle⟩ := not_forall_not.1 cyclic
    obtain ⟨next, feeds, -⟩ := Relation.TransGen.head'_iff.1 cycle
    have member := g.mem_ids_of_feeds id next feeds
    have absent : id ∉ order := by
      intro ran
      exact ((valid.mem_iff id).1 ran).2 ⟨id, cycle, .refl⟩
    have known : order ⊆ g.ids := fun a ran => ((valid.mem_iff a).1 ran).1
    by_contra long
    have all := (valid.nodup.subperm known).perm_of_length_le (not_lt.1 long)
    exact absent (all.mem_iff.2 member)

theorem IsOrder.isIncomplete_iff (valid : g.IsOrder order) (distinct : g.ids.Nodup) :
    isIncomplete (adjacency g.nodes g.links) order = true ↔ ¬ g.Acyclic := by
  rw [isIncomplete, decide_eq_true_iff, Sequence.length_adjacency distinct,
    valid.length_lt_iff distinct]

/-- A link into a node that runs comes from a node that runs. -/
theorem IsOrder.source_mem (valid : g.IsOrder order) (n : Node) (inside : n ∈ g.nodes)
    (ordered : n.id ∈ order) (l : Link) (linked : l ∈ g.links) (here : l.target = n.id)
    (source : Node) (found : Node.last? l.source g.nodes = some source) :
    source ∈ g.nodes ∧ source.id ∈ order := by
  obtain ⟨known, id⟩ := Node.mem_of_last? l.source g.nodes source found
  have joins : l.Joins g.ids := by
    constructor
    · rw [← id]
      exact List.mem_map_of_mem known
    · rw [here]
      exact List.mem_map_of_mem inside
  refine ⟨known, ?_⟩
  rw [id]
  exact (valid.precedes l linked joins (here ▸ ordered)).mem

end Graph

namespace Catalog

variable (c : Catalog)

/-- What compilation asks of a graph whose nodes run in an order. -/
structure Admits (order : List Int) (g : Graph) : Prop where
  named : ∀ n ∈ g.nodes, n.id ∈ order → c.Knows n ∧ c.Canonical n
  -- Also where the target has no place in the order.
  inlined : ∀ l ∈ g.links, ∀ source ∈ g.nodes, ∀ target ∈ g.nodes,
    l.source = source.id → l.target = target.id → source.internal = true →
      c.Knows source ∧ c.Knows target ∧ c.InRange l source target
  -- Nothing is asked of the source: it has a place in the order because the target has one.
  wired : ∀ l ∈ g.links, ∀ source ∈ g.nodes, ∀ target ∈ g.nodes,
    l.source = source.id → l.target = target.id → source.internal = false →
      target.id ∈ order → target.internal = false → c.InRange l source target

variable {c} {g : Graph} {order : List Int}

/-- A link into a step comes from a node that runs before it; so nothing else has to be asked of its
source. -/
theorem Admits.wires (admits : c.Admits order g) (valid : g.IsOrder order)
    (finite : ∀ n ∈ g.nodes, Binary64.fitsInt n.id = true) (n : Node) (inside : n ∈ g.nodes)
    (ordered : n.id ∈ order) (external : n.internal = false) (l : Link) (linked : l ∈ g.links) :
    c.Wires g.nodes n l := by
  intro here source found kind
  obtain ⟨-, id⟩ := Node.mem_of_last? l.source g.nodes source found
  obtain ⟨known, ran⟩ := valid.source_mem n inside ordered l linked here source found
  obtain ⟨listed, canonical⟩ := admits.named source known ran
  constructor
  · rw [exists_linkPorts_iff]
    exact ⟨listed, (admits.named n inside ordered).1,
      admits.wired l linked source known n inside id.symm here kind ordered external⟩
  · exact (c.exists_stepId_iff source (finite source known)).2 canonical

theorem synthesizes_iff (valid : g.IsOrder order) (distinct : g.ids.Nodup)
    (finite : ∀ n ∈ g.nodes, Binary64.fitsInt n.id = true) :
    c.Synthesizes order g ↔ c.Admits order g := by
  have lookup : ∀ n ∈ g.nodes, Node.last? n.id g.nodes = some n := fun n inside =>
    (Node.last?_eq_some_iff n.id g.nodes distinct n).2 ⟨inside, rfl⟩
  constructor
  · intro able
    constructor
    · intro n inside ordered
      obtain ⟨ports, named⟩ := able.fills n inside ordered
      exact ⟨(c.exists_portsOf_iff n).1 ports, (c.exists_stepId_iff n (finite n inside)).1 named⟩
    · intro l linked s left t right source target internal
      exact (c.exists_linkPorts_iff l s t).1 (able.inlines l linked s t
        (source ▸ lookup s left) (target ▸ lookup t right) internal).2
    · intro l linked s left t right source target external ordered step
      have emitted := (mem_stepNodes_iff order g.nodes distinct t).2 ⟨right, ordered, step⟩
      obtain ⟨-, -, wires⟩ := able.emits t emitted
      obtain ⟨ports, -⟩ := wires l linked target s (source ▸ lookup s left) external
      exact ((c.exists_linkPorts_iff l s t).1 ports).2.2
  · intro admits
    constructor
    · intro n inside ordered
      obtain ⟨listed, canonical⟩ := admits.named n inside ordered
      exact ⟨(c.exists_portsOf_iff n).2 listed,
        (c.exists_stepId_iff n (finite n inside)).2 canonical⟩
    · intro l linked s t source target internal
      obtain ⟨left, sourceId⟩ := Node.mem_of_last? l.source g.nodes s source
      obtain ⟨right, targetId⟩ := Node.mem_of_last? l.target g.nodes t target
      have written : ∀ n ∈ g.nodes, hasNumeral n.id = true := fun n inside =>
        hasNumeral_of_fitsInt n.id (finite n inside)
      exact ⟨l.hasNumerals_of_ends sourceId.symm targetId.symm (written s left) (written t right),
        (c.exists_linkPorts_iff l s t).2
          (admits.inlined l linked s left t right sourceId.symm targetId.symm internal)⟩
    · intro n step
      obtain ⟨inside, ordered, external⟩ := (mem_stepNodes_iff order g.nodes distinct n).1 step
      obtain ⟨listed, canonical⟩ := admits.named n inside ordered
      exact ⟨(c.knows_iff n).1 listed, (c.exists_stepId_iff n (finite n inside)).2 canonical,
        admits.wires valid finite n inside ordered external⟩

end Catalog

section Outcome

variable (c : Catalog) (header : Header) (strict : Bool) (g : Graph)

/-- In strict mode a cycle stops compilation. -/
theorem stops_iff (distinct : g.ids.Nodup) (order : List Int) (valid : g.IsOrder order) :
    (strict && isIncomplete (adjacency g.nodes g.links) order) = true ↔
      strict = true ∧ ¬ g.Acyclic := by
  rw [Bool.and_eq_true, valid.isIncomplete_iff distinct]

/-- The texts on the order can be written if the ids are finite and no dangling link is in the
way. -/
theorem Graph.DanglingNumbered.numbered {g : Graph} (dangling : g.DanglingNumbered)
    (finite : ∀ n ∈ g.nodes, Binary64.fitsInt n.id = true) : g.Numbered where
  dangling := dangling
  ids := by
    rw [Graph.ids, List.forall_mem_map]
    exact fun n inside => hasNumeral_of_fitsInt n.id (finite n inside)

theorem exists_toWorkflow_iff (distinct : g.ids.Nodup)
    (finite : ∀ n ∈ g.nodes, Binary64.fitsInt n.id = true) :
    (∃ w, toWorkflow c header strict g = .ok w) ↔
      g.DanglingNumbered ∧ g.HasEntry ∧ (strict = true → g.Acyclic) ∧
        ∀ order, sequence (adjacency g.nodes g.links) = .ok order → c.Admits order g := by
  simp only [c.toWorkflow_eq_ok_iff header strict g distinct, ← Bool.not_eq_true]
  constructor
  · rintro ⟨w, numbered, order, found, complete, able, -⟩
    have valid := isOrder_of_sequence g distinct order found
    rw [stops_iff strict g distinct order valid] at complete
    refine ⟨numbered.dangling, (g.hasEntry_iff distinct).2 ⟨order, found⟩, ?_, ?_⟩
    · intro asked
      by_contra cyclic
      exact complete ⟨asked, cyclic⟩
    · intro other same
      obtain rfl := Except.ok.inj (found.symm.trans same)
      exact (Catalog.synthesizes_iff valid distinct finite).1 able
  · rintro ⟨dangling, entry, acyclic, admits⟩
    obtain ⟨order, found⟩ := (g.hasEntry_iff distinct).1 entry
    have valid := isOrder_of_sequence g distinct order found
    refine ⟨_, dangling.numbered finite, order, found, ?_, ?_, rfl⟩
    · rw [stops_iff strict g distinct order valid]
      rintro ⟨asked, cyclic⟩
      exact cyclic (acyclic asked)
    · exact (Catalog.synthesizes_iff valid distinct finite).2 (admits order found)

theorem toWorkflow_of_no_entry (distinct : g.ids.Nodup) (dangling : g.DanglingNumbered)
    (none : ¬ g.HasEntry) :
    toWorkflow c header strict g = .error (.order .noEntryPoint) := by
  have stuck := (sequence_eq_noEntryPoint_iff g distinct).2 (Graph.not_hasEntry_iff.1 none)
  rw [toWorkflow, executionOrder_eq distinct, if_pos dangling, stuck]

/-- Where some node can run first, an id without a numeral cannot be written with the order. -/
theorem toWorkflow_of_unwritten_id (distinct : g.ids.Nodup) (dangling : g.DanglingNumbered)
    (entry : g.HasEntry) (unwritten : ¬ ∀ id ∈ g.ids, hasNumeral id = true) :
    toWorkflow c header strict g = .error (.order .noNumeral) := by
  obtain ⟨order, found⟩ := (g.hasEntry_iff distinct).1 entry
  rw [toWorkflow, executionOrder_eq distinct, if_pos dangling, found]
  dsimp only
  rw [if_neg unwritten]

open scoped Classical in
theorem toWorkflow_of_cyclic (distinct : g.ids.Nodup) (numbered : g.Numbered)
    (entry : g.HasEntry) (asked : strict = true) (cyclic : ¬ g.Acyclic) :
    toWorkflow c header strict g =
      .error (.incomplete (g.ids.filter fun id => g.Blocked id)) := by
  obtain ⟨order, found⟩ := (g.hasEntry_iff distinct).1 entry
  have valid := isOrder_of_sequence g distinct order found
  rw [toWorkflow, (executionOrder_eq_ok_iff distinct _).2 ⟨numbered, rfl, found⟩]
  dsimp only
  rw [if_pos ((stops_iff strict g distinct order valid).2 ⟨asked, cyclic⟩),
    valid.missing_eq distinct]

/-- With an order that strict mode accepts, only synthesis can still fail. -/
theorem toWorkflow_eq_synthesize (distinct : g.ids.Nodup) (numbered : g.Numbered)
    (order : List Int) (found : sequence (adjacency g.nodes g.links) = .ok order)
    (acyclic : strict = true → g.Acyclic) :
    toWorkflow c header strict g = synthesize c header order g := by
  have valid := isOrder_of_sequence g distinct order found
  have goesOn : ¬ (strict && isIncomplete (adjacency g.nodes g.links) order) = true := by
    rw [stops_iff strict g distinct order valid]
    rintro ⟨asked, cyclic⟩
    exact cyclic (acyclic asked)
  rw [toWorkflow, (executionOrder_eq_ok_iff distinct _).2 ⟨numbered, rfl, found⟩]
  dsimp only
  rw [if_neg goesOn]

open scoped Classical in
/-- How compilation goes: it stops at what is in its way first, or it comes to synthesis. -/
inductive Course : Prop
  | stray (dangling : ¬ g.DanglingNumbered)
      (stops : toWorkflow c header strict g = .error (.order .noNumeral))
  | noEntry (none : ¬ g.HasEntry)
      (stops : toWorkflow c header strict g = .error (.order .noEntryPoint))
  | unwritten (entry : g.HasEntry) (without : ∃ id ∈ g.ids, hasNumeral id = false)
      (stops : toWorkflow c header strict g = .error (.order .noNumeral))
  | cyclic (asked : strict = true) (cycles : ¬ g.Acyclic)
      (stops : toWorkflow c header strict g =
        .error (.incomplete (g.ids.filter fun id => g.Blocked id)))
  | reached (numbered : g.Numbered) (entry : g.HasEntry) (accepted : strict = true → g.Acyclic)
      (order : List Int) (valid : g.IsOrder order)
      (goesOn : toWorkflow c header strict g = synthesize c header order g)

theorem course (distinct : g.ids.Nodup) : Course c header strict g := by
  classical
  by_cases dangling : g.DanglingNumbered
  · by_cases entry : g.HasEntry
    · by_cases ids : ∀ id ∈ g.ids, hasNumeral id = true
      · have numbered : g.Numbered := ⟨dangling, ids⟩
        by_cases accepted : strict = true → g.Acyclic
        · obtain ⟨order, found⟩ := (g.hasEntry_iff distinct).1 entry
          exact .reached numbered entry accepted order (isOrder_of_sequence g distinct order found)
            (toWorkflow_eq_synthesize c header strict g distinct numbered order found accepted)
        · obtain ⟨asked, cycles⟩ := Classical.not_imp.1 accepted
          exact .cyclic asked cycles
            (toWorkflow_of_cyclic c header strict g distinct numbered entry asked cycles)
      · have without : ∃ id ∈ g.ids, hasNumeral id = false := by simpa using ids
        exact .unwritten entry without
          (toWorkflow_of_unwritten_id c header strict g distinct dangling entry ids)
    · exact .noEntry entry (toWorkflow_of_no_entry c header strict g distinct dangling entry)
  · exact .stray dangling (c.toWorkflow_of_unnumbered header strict g dangling)

theorem fault_of_toWorkflow (distinct : g.ids.Nodup) (numbered : g.Numbered)
    (entry : g.HasEntry) (acyclic : strict = true → g.Acyclic) (e : CompileError)
    (failed : toWorkflow c header strict g = .error e) : c.Fault g.nodes g.links e := by
  obtain ⟨order, found⟩ := (g.hasEntry_iff distinct).1 entry
  rw [toWorkflow_eq_synthesize c header strict g distinct numbered order found acyclic] at failed
  exact c.fault_of_synthesize header order g distinct (List.forall_mem_map.1 numbered.ids) e failed

theorem failure_of_finite (distinct : g.ids.Nodup)
    (finite : ∀ n ∈ g.nodes, Binary64.fitsInt n.id = true) (dangling : g.DanglingNumbered)
    (entry : g.HasEntry) (acyclic : strict = true → g.Acyclic) (e : CompileError)
    (failed : toWorkflow c header strict g = .error e) :
    c.LinkFault g.nodes g.links e ∨
      ∃ n ∈ g.nodes, ¬ c.Canonical n ∧ e = .naming (.notCanonical (c.sanitize n.name)) := by
  cases fault_of_toWorkflow c header strict g distinct (dangling.numbered finite) entry acyclic e
    failed with
  | lookup _ fault => exact .inl fault
  | unstable n inside changes => exact .inr ⟨n, inside, changes, rfl⟩
  | oversized n inside large => exact absurd (finite n inside) (n.oversized_iff.1 large ▸ by simp)

end Outcome

open scoped Classical in
/-- With finite ids a pipeline compiles exactly when its dangling links can be noted, some node can
run first, no cycle keeps nodes out in strict mode, and the catalog admits the graph. A failure
tells of the first of these that does not hold: in strict mode it names the nodes that a cycle keeps
out, in the order of the graph, and at last it tells of a link that cannot be looked up or of a name
that does not stay as it is. -/
theorem toWorkflow_outcome (c : Catalog) (header : Header) (strict : Bool) (g : Graph)
    (distinct : g.ids.Nodup) (finite : ∀ n ∈ g.nodes, Binary64.fitsInt n.id = true) :
    ((∃ w, toWorkflow c header strict g = .ok w) ↔
      g.DanglingNumbered ∧ g.HasEntry ∧ (strict = true → g.Acyclic) ∧
        ∀ order, sequence (adjacency g.nodes g.links) = .ok order → c.Admits order g) ∧
    (¬ g.DanglingNumbered → toWorkflow c header strict g = .error (.order .noNumeral)) ∧
    (g.DanglingNumbered → ¬ g.HasEntry →
      toWorkflow c header strict g = .error (.order .noEntryPoint)) ∧
    (g.DanglingNumbered → g.HasEntry → strict = true → ¬ g.Acyclic →
      toWorkflow c header strict g =
        .error (.incomplete (g.ids.filter fun id => g.Blocked id))) ∧
    (g.DanglingNumbered → g.HasEntry → (strict = true → g.Acyclic) → ∀ e,
      toWorkflow c header strict g = .error e →
        c.LinkFault g.nodes g.links e ∨
          ∃ n ∈ g.nodes, ¬ c.Canonical n ∧ e = .naming (.notCanonical (c.sanitize n.name))) :=
  ⟨exists_toWorkflow_iff c header strict g distinct finite,
    c.toWorkflow_of_unnumbered header strict g,
    toWorkflow_of_no_entry c header strict g distinct,
    fun dangling => toWorkflow_of_cyclic c header strict g distinct (dangling.numbered finite),
    failure_of_finite c header strict g distinct finite⟩

theorem toWorkflow_outcome_relay :
    relayGraph.ids.Nodup ∧ (∀ n ∈ relayGraph.nodes, Binary64.fitsInt n.id = true) ∧
      relayGraph.DanglingNumbered ∧ relayGraph.HasEntry ∧ relayGraph.Acyclic ∧
      relayCatalog.Admits [3, 1, 2] relayGraph ∧
      toWorkflow (.ofPlugins []) .default true relayGraph = .error (.pluginNotFound "relay" 1) ∧
      (Catalog.ofPlugins []).LinkFault relayGraph.nodes relayGraph.links
        (.pluginNotFound "relay" 1) := by
  have distinct : relayGraph.ids.Nodup := by decide
  have finite : ∀ n ∈ relayGraph.nodes, Binary64.fitsInt n.id = true := by decide +kernel
  obtain ⟨succeeds, -⟩ :=
    toWorkflow_outcome relayCatalog .default true relayGraph distinct finite
  obtain ⟨dangling, entry, acyclic, admits⟩ := succeeds.1 relay_compiles
  -- The same graph, but none of its plugins is listed.
  obtain ⟨-, -, -, -, faults⟩ :=
    toWorkflow_outcome (.ofPlugins []) .default true relayGraph distinct finite
  have fails : toWorkflow (.ofPlugins []) .default true relayGraph =
      .error (.pluginNotFound "relay" 1) := by decide +kernel
  have fault := (faults dangling entry acyclic _ fails).resolve_right (by simp)
  exact ⟨distinct, finite, dangling, entry, acyclic rfl, admits _ relay_sequence, fails, fault⟩

/-- A step linked to another over an outlet whose number has one digit more than a text can hold. -/
def endlessIndexGraph : Graph :=
  { nodes := [⟨1, "relay", "First", false, none⟩, ⟨2, "relay", "Second", false, none⟩]
    links := [⟨1, 2, numeralBound, 0⟩] }

theorem index_without_numeral_fails_unannounced :
    endlessIndexGraph.ids.Nodup ∧
      (∀ n ∈ endlessIndexGraph.nodes, Binary64.fitsInt n.id = true) ∧
      endlessIndexGraph.HasEntry ∧ endlessIndexGraph.Acyclic ∧
      toWorkflow relayCatalog .default true endlessIndexGraph = .error .noNumeral := by
  have distinct : endlessIndexGraph.ids.Nodup := by decide
  have found : sequence (adjacency endlessIndexGraph.nodes endlessIndexGraph.links) =
      .ok [1, 2] := by decide +kernel
  have valid := isOrder_of_sequence endlessIndexGraph distinct _ found
  have acyclic : endlessIndexGraph.Acyclic := by
    by_contra cyclic
    have short := (valid.isIncomplete_iff distinct).2 cyclic
    revert short
    decide +kernel
  exact ⟨distinct, by decide +kernel, (endlessIndexGraph.hasEntry_iff distinct).2 ⟨_, found⟩,
    acyclic, by decide +kernel⟩

end PipelineCompiler
