import PipelineCompiler.Proofs.Agreement

set_option autoImplicit false

namespace PipelineCompiler

/-- The links between nodes of the graph. -/
def Graph.withoutDangling (g : Graph) : Graph :=
  { g with links := g.links.filter fun l => l.Joins g.ids }

namespace Adjacency

theorem neighbours_filter (ids : List Int) (near far : Link → Int) (links : List Link) :
    neighbours ids near far (links.filter fun l => l.Joins ids) =
      neighbours ids near far links := by
  funext id
  rw [neighbours, neighbours, List.filter_filter]
  have same : ∀ l ∈ links, (decide (l.Joins ids ∧ near l = id) && decide (l.Joins ids)) =
      decide (l.Joins ids ∧ near l = id) := by
    intro l _
    by_cases joins : l.Joins ids <;> simp [joins]
  rw [List.filter_congr same]

theorem adjacency_withoutDangling (g : Graph) (distinct : g.ids.Nodup) :
    adjacency g.withoutDangling.nodes g.withoutDangling.links = adjacency g.nodes g.links := by
  have distinct' : g.withoutDangling.ids.Nodup := distinct
  have records : record g.ids g.withoutDangling.links = record g.ids g.links := by
    funext id
    rw [record, record, Graph.withoutDangling, neighbours_filter, neighbours_filter]
  rw [adjacency_of_nodup g distinct, adjacency_of_nodup g.withoutDangling distinct', ← records]
  rfl

end Adjacency

/-- Where one end of a link is not known, the link cannot be looked up. -/
theorem Link.unknown_of_not_joins {nodes : List Node} {l : Link}
    (dangling : ¬ l.Joins (nodes.map Node.id)) :
    Node.last? l.source nodes = none ∨ Node.last? l.target nodes = none := by
  simp only [← Option.not_isSome_iff_eq_none, Node.last?_isSome_iff]
  exact not_and_or.1 dangling

theorem map_id_replaceNode (m : Node) (nodes : List Node) :
    (replaceNode m nodes).map Node.id = nodes.map Node.id := by
  rw [replaceNode, List.map_map]
  apply List.map_congr_left
  intro n _
  rw [Function.comp_apply]
  split
  · rename_i here
    exact here.symm
  · rfl

namespace Catalog

variable (c : Catalog)

theorem map_id_of_inlineLink (nodes : List Node) (l : Link) (nodes' : List Node)
    (made : inlineLink c nodes l = .ok nodes') : nodes'.map Node.id = nodes.map Node.id := by
  rw [inlineLink] at made
  split at made
  · split at made
    · obtain ⟨⟨outlet, inlet⟩, -, replaced⟩ := (bind_eq_ok _ _ _).1 made
      dsimp only at replaced
      split at replaced
      · cases replaced
        exact map_id_replaceNode _ nodes
      · cases replaced
    · cases made
      rfl
  · cases made
    rfl

theorem inlineLink_of_dangling (nodes : List Node) (l : Link)
    (dangling : ¬ l.Joins (nodes.map Node.id)) : inlineLink c nodes l = .ok nodes := by
  rw [inlineLink]
  rcases Link.unknown_of_not_joins dangling with unknown | unknown
  · rw [unknown]
  · rw [unknown]
    cases Node.last? l.source nodes <;> rfl

theorem inlineValues_filter (links : List Link) (nodes : List Node)
    (distinct : (nodes.map Node.id).Nodup) :
    inlineValues c (links.filter fun l => l.Joins (nodes.map Node.id)) nodes =
      inlineValues c links nodes := by
  rw [inlineValues, inlineValues, unifyNodes_of_nodup nodes distinct]
  -- The nodes change on the way, but their ids do not.
  apply foldlM_filter_of_idle _ _ fun current => current.map Node.id = nodes.map Node.id
  · intro current l next same made
    rw [c.map_id_of_inlineLink current l next made, same]
  · intro l _ dangling current same
    apply c.inlineLink_of_dangling
    rw [same]
    simpa using dangling
  · rfl

theorem inlinedFrom_filter (links : List Link) (nodes : List Node) :
    inlinedFrom c (links.filter fun l => l.Joins (nodes.map Node.id)) nodes =
      inlinedFrom c links nodes := by
  funext id port
  rw [inlinedFrom, inlinedFrom, List.foldl_filter]
  congr 1
  funext found l
  by_cases joins : l.Joins (nodes.map Node.id)
  · simp only [joins, decide_true, ↓reduceIte]
  · simp only [joins, decide_false, Bool.false_eq_true, ↓reduceIte]
    split
    · rename_i here
      subst here
      rcases Link.unknown_of_not_joins joins with unknown | unknown
      · simp only [unknown]
      · simp only [unknown]
        cases Node.last? l.source nodes <;> rfl
    · rfl

theorem wireLink_of_dangling (nodes : List Node) (n : Node) (inside : n ∈ nodes) (l : Link)
    (dangling : ¬ l.Joins (nodes.map Node.id)) (sources : OrderedMap String String) :
    wireLink c nodes n sources l = .ok sources := by
  rw [wireLink]
  by_cases here : l.target = n.id
  · have target : l.target ∈ nodes.map Node.id := here ▸ List.mem_map_of_mem inside
    have unknown : Node.last? l.source nodes = none := by
      rw [← Option.not_isSome_iff_eq_none, Node.last?_isSome_iff]
      exact fun source => dangling ⟨source, target⟩
    rw [if_neg (not_not.2 here), unknown]
  · rw [if_pos here]

theorem addNode_filter (links : List Link) (nodes : List Node) (n : Node) (inside : n ∈ nodes)
    (w : Workflow) :
    addNode c (links.filter fun l => l.Joins (nodes.map Node.id)) nodes w n =
      addNode c links nodes w n := by
  have wired : ∀ sources, (links.filter fun l => l.Joins (nodes.map Node.id)).foldlM
      (wireLink c nodes n) sources = links.foldlM (wireLink c nodes n) sources := by
    intro sources
    apply foldlM_filter_of_idle _ _ (fun _ => True) (fun _ _ _ _ _ => trivial) _ _ _ trivial
    intro l _ dangling sources _
    exact c.wireLink_of_dangling nodes n inside l (by simpa using dangling) sources
  simp only [addNode, c.inlinedFrom_filter, wired]

theorem fillSettings_withoutDangling (order : List Int) (g : Graph) (distinct : g.ids.Nodup) :
    fillSettings c order g.withoutDangling.links g.withoutDangling.nodes =
      fillSettings c order g.links g.nodes := by
  rw [fillSettings, fillSettings]
  apply bind_congr_of_ok
  intro nodes placed
  obtain ⟨-, rfl⟩ := (fillPlaceholders_eq_ok_iff c order _ nodes).1 placed
  have ids : ((g.nodes.map Node.provision).map (c.fill order)).map Node.id = g.ids := by
    rw [Node.map_id_map _ (c.fill_bare order), Node.map_id_map Node.provision fun _ => rfl]
    rfl
  have inlined := c.inlineValues_filter g.links _ (ids.symm ▸ distinct)
  rw [ids] at inlined
  exact inlined

theorem synthesize_withoutDangling (header : Header) (order : List Int) (g : Graph)
    (distinct : g.ids.Nodup) :
    synthesize c header order g.withoutDangling = synthesize c header order g := by
  rw [synthesize, synthesize, c.fillSettings_withoutDangling order g distinct]
  apply bind_congr_of_ok
  intro nodes settled
  obtain ⟨-, rfl⟩ := (fillSettings_eq_ok_iff c order g distinct nodes).1 settled
  have ids : (g.nodes.map (c.settled order g)).map Node.id = g.ids :=
    Node.map_id_map _ (c.settled_bare order g) g.nodes
  have distinct' : ((g.nodes.map (c.settled order g)).map Node.id).Nodup := ids.symm ▸ distinct
  apply foldlM_congr_of_mem
  intro n step w
  have inside := ((mem_stepNodes_iff order _ distinct' n).1 step).1
  have added := c.addNode_filter g.links _ n inside w
  rw [ids] at added
  exact added

end Catalog

theorem executionOrder_withoutDangling (g : Graph) (distinct : g.ids.Nodup)
    (numbered : g.DanglingNumbered) : executionOrder g.withoutDangling = executionOrder g := by
  have joined : g.withoutDangling.DanglingNumbered := fun l linked =>
    .inl (of_decide_eq_true (List.mem_filter.1 linked).2)
  have distinct' : g.withoutDangling.ids.Nodup := distinct
  rw [executionOrder_eq distinct, executionOrder_eq distinct', if_pos numbered, if_pos joined,
    Adjacency.adjacency_withoutDangling g distinct]
  rfl

/-- Links to nowhere that can be noted change neither the workflow nor the error. -/
theorem toWorkflow_withoutDangling (c : Catalog) (header : Header) (strict : Bool) (g : Graph)
    (distinct : g.ids.Nodup) (numbered : g.DanglingNumbered) :
    toWorkflow c header strict g.withoutDangling = toWorkflow c header strict g := by
  simp only [toWorkflow, executionOrder_withoutDangling g distinct numbered,
    c.synthesize_withoutDangling header _ g distinct]

end PipelineCompiler
