import PipelineCompiler.Proofs.Agreement

set_option autoImplicit false

namespace PipelineCompiler

/-- A link from a step into a node that only holds values. -/
def Graph.unread (g : Graph) (l : Link) : Bool :=
  match Node.last? l.source g.nodes, Node.last? l.target g.nodes with
  | some source, some target => !source.internal && target.internal
  | _, _ => false

def Graph.withoutUnread (g : Graph) : Graph :=
  { g with links := g.links.filter fun l => !g.unread l }

namespace Catalog

variable (c : Catalog)

/-- What a link brings stands at its inlet: a value after the settings passes, or a reference in the
step of its target. -/
inductive Realised (nodes : List Node) (document : Value) (source target : Node)
    (outlet inlet : String) : Prop
  | inlined (internal : source.internal = true) (filled : Node)
      (found : Node.last? target.id nodes = some filled)
      (value : filled.input inlet = c.outputValue source outlet)
  | wired (external : source.internal = false)
      (step : c.stepName target ∈ Document.stepIds document)
      (fed : Document.binding? document (c.stepName target) inlet =
        some (Document.binding (outputRef (c.stepName source) outlet)))

/-- Later links of one kind bring something to the same port. -/
def Overridden (nodes : List Node) (later : List Link) (fromInternal : Bool) (target : Node)
    (inlet : String) : Prop :=
  ∃ a ∈ c.arrivals nodes later fromInternal target, a.inlet = inlet

instance (nodes : List Node) (later : List Link) (fromInternal : Bool) (target : Node)
    (inlet : String) : Decidable (c.Overridden nodes later fromInternal target inlet) :=
  inferInstanceAs (Decidable (∃ a ∈ c.arrivals nodes later fromInternal target, a.inlet = inlet))

theorem last_or_overridden (nodes : List Node) (before after : List Link) (l : Link)
    (source target : Node) (outlet inlet : String) (found : Node.last? l.source nodes = some source)
    (enters : l.target = target.id) (ports : c.linkPorts l source target = .ok (outlet, inlet)) :
    c.lastArrival? nodes (before ++ l :: after) source.internal target inlet =
        some ⟨source, outlet, inlet⟩ ∨
      c.Overridden nodes after source.internal target inlet := by
  by_cases taken : c.Overridden nodes after source.internal target inlet
  · exact .inr taken
  · have arrived : c.arrival? nodes source.internal target l = some ⟨source, outlet, inlet⟩ :=
      (c.arrival?_eq_some_iff nodes _ target l _).2 ⟨enters, found, rfl, ports⟩
    have silent : (c.arrivals nodes after source.internal target).filter
        (fun a => a.inlet = inlet) = [] := by
      rw [List.filter_eq_nil_iff]
      intro a later
      have apart : a.inlet ≠ inlet := fun here => taken ⟨a, later, here⟩
      simpa using apart
    have parts : c.arrivals nodes (before ++ l :: after) source.internal target =
        c.arrivals nodes before source.internal target ++
          ⟨source, outlet, inlet⟩ :: c.arrivals nodes after source.internal target := by
      simp only [arrivals, List.filterMap_append, List.filterMap_cons, arrived]
    left
    rw [lastArrival?, parts, List.filter_append, List.filter_cons_of_pos (by simp), silent,
      List.getLast?_concat]

variable {c} {g : Graph} {order : List Int} (before after : List Link) (l : Link)
  (source target : Node)

/-- A link from an internal node has its indices in range, and its value is in the target. -/
theorem realised_of_internal (able : c.Synthesizes order g) (valid : g.IsOrder order)
    (distinct : g.ids.Nodup) (document : Value) (split : g.links = before ++ l :: after)
    (left : source ∈ g.nodes) (right : target ∈ g.nodes) (leaves : l.source = source.id)
    (enters : l.target = target.id) (ordered : target.id ∈ order)
    (internal : source.internal = true) :
    ∃ outlet inlet, c.linkPorts l source target = .ok (outlet, inlet) ∧
      (c.Realised (g.nodes.map (c.settled order g)) document source target outlet inlet ∨
        c.Overridden g.nodes after source.internal target inlet) := by
  have linked : l ∈ g.links := split ▸ List.mem_append_right before List.mem_cons_self
  have foundSource : Node.last? l.source g.nodes = some source :=
    (Node.last?_eq_some_iff l.source g.nodes distinct source).2 ⟨left, leaves.symm⟩
  have foundTarget : Node.last? l.target g.nodes = some target :=
    (Node.last?_eq_some_iff l.target g.nodes distinct target).2 ⟨right, enters.symm⟩
  obtain ⟨-, ⟨outlet, inlet⟩, ports⟩ :=
    able.inlines l linked source target foundSource foundTarget internal
  have arrived := c.last_or_overridden g.nodes before after l source target outlet inlet foundSource
    enters ports
  refine ⟨outlet, inlet, ports, arrived.imp_left ?_⟩
  rw [← split, internal]
  intro last
  have ids : ∀ n, (c.settled order g n).id = n.id := fun n =>
    Node.id_of_bare (c.settled_bare order g n)
  have filled : Node.last? target.id (g.nodes.map (c.settled order g)) =
      some (c.settled order g target) := by
    rw [Node.last?_map _ ids, ← enters, foundTarget]
    rfl
  have value : (c.settled order g target).input inlet = c.outputValue source outlet := by
    rw [input_settled_eq valid target right ordered, inputValue, last]
  exact .inlined internal _ filled value

/-- A link between steps has its indices in range, and the target refers to the source. -/
theorem realised_of_external (header : Header) (able : c.Synthesizes order g)
    (valid : g.IsOrder order) (distinct : g.ids.Nodup) (split : g.links = before ++ l :: after)
    (left : source ∈ g.nodes) (right : target ∈ g.nodes) (leaves : l.source = source.id)
    (enters : l.target = target.id) (ordered : target.id ∈ order)
    (external : source.internal = false) (step : target.internal = false) :
    ∃ outlet inlet, c.linkPorts l source target = .ok (outlet, inlet) ∧
      (c.Realised (g.nodes.map (c.settled order g)) (c.compiled header order g).document source
          target outlet inlet ∨
        c.Overridden g.nodes after source.internal target inlet) := by
  have linked : l ∈ g.links := split ▸ List.mem_append_right before List.mem_cons_self
  have emitted : target ∈ stepNodes order g.nodes :=
    (mem_stepNodes_iff order g.nodes distinct target).2 ⟨right, ordered, step⟩
  have found : Node.last? l.source g.nodes = some source :=
    (Node.last?_eq_some_iff l.source g.nodes distinct source).2 ⟨left, leaves.symm⟩
  obtain ⟨⟨⟨outlet, inlet⟩, ports⟩, -⟩ :=
    (able.emits target emitted).2.2 l linked enters source found external
  have arrived := c.last_or_overridden g.nodes before after l source target outlet inlet found
    enters ports
  refine ⟨outlet, inlet, ports, arrived.imp_left ?_⟩
  rw [← split, external]
  intro last
  have listed : c.stepName target ∈ Document.stepIds (c.compiled header order g).document := by
    rw [c.stepIds_compiled header order g valid.nodup]
    exact List.mem_map_of_mem emitted
  have fed : Document.binding? (c.compiled header order g).document (c.stepName target) inlet =
      some (Document.binding (outputRef (c.stepName source) outlet)) := by
    rw [binding?_eq_sourceOf? valid target emitted right ordered, sourceOf?, last]
    rfl
  exact .wired external listed fed

variable (c g)

theorem arrival?_of_unread (distinct : g.ids.Nodup) (n : Node) (inside : n ∈ g.nodes)
    (step : n.internal = false) (fromInternal : Bool) (l : Link) (unread : g.unread l = true) :
    c.arrival? g.nodes fromInternal n l = none := by
  rw [Option.eq_none_iff_forall_ne_some]
  intro a arrived
  obtain ⟨here, found, -⟩ := (c.arrival?_eq_some_iff g.nodes fromInternal n l a).1 arrived
  have target : Node.last? l.target g.nodes = some n :=
    (Node.last?_eq_some_iff l.target g.nodes distinct n).2 ⟨inside, here.symm⟩
  simp [Graph.unread, found, target, step] at unread

/-- Links that bring nothing can be left out. -/
theorem arrivals_filter (nodes : List Node) (links : List Link) (fromInternal : Bool) (n : Node)
    (p : Link → Bool)
    (idle : ∀ l ∈ links, p l = false → c.arrival? nodes fromInternal n l = none) :
    c.arrivals nodes (links.filter p) fromInternal n = c.arrivals nodes links fromInternal n := by
  rw [arrivals, arrivals, List.filterMap_filter]
  apply List.filterMap_congr
  intro l linked
  by_cases counts : p l = true
  · rw [if_pos counts]
  · rw [if_neg counts, idle l linked (Bool.eq_false_iff.2 counts)]

variable {c g}

/-- Behind the order unread links make no difference, whatever their indices are. -/
theorem synthesize_withoutUnread (header : Header) (able : c.Synthesizes order g)
    (distinct : g.ids.Nodup) :
    synthesize c header order g.withoutUnread = .ok (c.compiled header order g) := by
  have fewer : g.withoutUnread.links ⊆ g.links := List.filter_subset_self _
  have part : c.Synthesizes order g.withoutUnread :=
    able.mono distinct distinct (List.Subset.refl _) fewer (List.Subset.refl _)
  have distinct' : g.withoutUnread.ids.Nodup := distinct
  rw [c.synthesize_eq_ok_iff header order g.withoutUnread distinct']
  refine ⟨part, ?_⟩
  symm
  apply compiled_of_arrivals header distinct distinct' rfl
  intro n step fromInternal
  obtain ⟨inside, -, external⟩ := (mem_stepNodes_iff order g.nodes distinct n).1 step
  apply c.arrivals_filter g.nodes g.links fromInternal n
  intro l _ unread
  exact c.arrival?_of_unread g distinct n inside external fromInternal l (by simpa using unread)

end Catalog

/-- In a pipeline that compiles every link has its indices in range, and what it brings stands at
its inlet, unless a later link of its kind takes the port. This leaves out links from a step into an
internal node: behind the order such links have no effect, whatever their indices are. -/
theorem compiled_links_realised (c : Catalog) (header : Header) (strict : Bool) (g : Graph)
    (distinct : g.ids.Nodup) (w : Workflow) (made : toWorkflow c header strict g = .ok w) :
    ∃ order nodes document, sequence (adjacency g.nodes g.links) = .ok order ∧
      fillSettings c order g.links g.nodes = .ok nodes ∧ w.document? = .ok document ∧
      (∀ before l after, g.links = before ++ l :: after → ∀ source ∈ g.nodes, ∀ target ∈ g.nodes,
        l.source = source.id → l.target = target.id → target.id ∈ order →
          source.internal = true ∨ target.internal = false →
            ∃ outlet inlet, c.linkPorts l source target = .ok (outlet, inlet) ∧
              (c.Realised nodes document source target outlet inlet ∨
                c.Overridden g.nodes after source.internal target inlet)) ∧
      synthesize c header order g.withoutUnread = .ok w := by
  obtain ⟨order, found, valid, able, filled, rfl⟩ :=
    c.compiled_of_toWorkflow header strict g distinct w made
  refine ⟨order, _, _, found, filled, c.document?_compiled header order g valid.nodup, ?_,
    Catalog.synthesize_withoutUnread header able distinct⟩
  intro before l after split source left target right leaves enters ordered kind
  rcases Bool.eq_false_or_eq_true source.internal with internal | external
  · exact Catalog.realised_of_internal before after l source target able valid distinct _ split left
      right leaves enters ordered internal
  · have step : target.internal = false := by simpa [external] using kind
    exact Catalog.realised_of_external before after l source target header able valid distinct split
      left right leaves enters ordered external step

/-- The internal node of the relay. -/
def relayValue : Node := ⟨3, "relay", "Value", true, some ⟨none, some ⟨[("result", .str "fast")]⟩⟩⟩

theorem compiled_links_realised_relay :
    ∃ w nodes document, toWorkflow relayCatalog .default true relayGraph = .ok w ∧
      fillSettings relayCatalog [3, 1, 2] relayGraph.links relayGraph.nodes = .ok nodes ∧
      w.document? = .ok document ∧
      relayCatalog.Realised nodes document relayValue relayReceiver "result" "mode" ∧
      relayCatalog.Realised nodes document relaySender relayReceiver "result" "data" := by
  obtain ⟨w, made⟩ := relay_compiles
  have distinct : relayGraph.ids.Nodup := by decide
  obtain ⟨order, nodes, document, found, filled, written, links, -⟩ :=
    compiled_links_realised relayCatalog .default true relayGraph distinct w made
  rw [relay_sequence] at found
  cases found
  refine ⟨w, nodes, document, made, filled, written, ?_, ?_⟩
  · obtain ⟨outlet, inlet, ports, arrived⟩ := links [⟨3, 2, 0, 0⟩] ⟨3, 2, 0, 1⟩
      [⟨1, 2, 0, 0⟩, ⟨3, 1, 0, 0⟩] rfl relayValue (by decide) relayReceiver (by decide) rfl rfl
      (by decide) (.inl rfl)
    have joined : relayCatalog.linkPorts ⟨3, 2, 0, 1⟩ relayValue relayReceiver =
        .ok ("result", "mode") := by decide +kernel
    rw [joined] at ports
    cases ports
    exact arrived.resolve_right (by decide +kernel)
  · obtain ⟨outlet, inlet, ports, arrived⟩ := links [⟨3, 2, 0, 0⟩, ⟨3, 2, 0, 1⟩] ⟨1, 2, 0, 0⟩
      [⟨3, 1, 0, 0⟩] rfl relaySender (by decide) relayReceiver (by decide) rfl rfl (by decide)
      (.inr rfl)
    have joined : relayCatalog.linkPorts ⟨1, 2, 0, 0⟩ relaySender relayReceiver =
        .ok ("result", "data") := by decide +kernel
    rw [joined] at ports
    cases ports
    exact arrived.resolve_right (by decide +kernel)

def strayValue : Node := ⟨2, "relay", "Value", true, none⟩

/-- A step with two links into an internal node, the second from an outlet that does not exist. -/
def strayGraph : Graph :=
  { nodes := [relaySender, strayValue], links := [⟨1, 2, 0, 0⟩, ⟨1, 2, 5, 1⟩] }

/-- Neither link becomes a value or a reference, and the missing outlet goes unnoticed. -/
theorem link_into_internal_node_is_lost :
    strayGraph.ids.Nodup ∧
    sequence (adjacency strayGraph.nodes strayGraph.links) = .ok [1, 2] ∧
    ∃ w nodes document, toWorkflow relayCatalog .default true strayGraph = .ok w ∧
      fillSettings relayCatalog [1, 2] strayGraph.links strayGraph.nodes = .ok nodes ∧
      w.document? = .ok document ∧
      (relayCatalog.linkPorts ⟨1, 2, 0, 0⟩ relaySender strayValue = .ok ("result", "data") ∧
        ¬ relayCatalog.Realised nodes document relaySender strayValue "result" "data" ∧
        ¬ relayCatalog.Overridden strayGraph.nodes [⟨1, 2, 5, 1⟩] false strayValue "data") ∧
      relayCatalog.linkPorts ⟨1, 2, 5, 1⟩ relaySender strayValue =
        .error (.invalidLink .outlet ⟨1, 2, 5, 1⟩ "relay" 1) := by
  have distinct : strayGraph.ids.Nodup := by decide
  have sequenced : sequence (adjacency strayGraph.nodes strayGraph.links) = .ok [1, 2] := by rfl
  obtain ⟨w, made⟩ : ∃ w, toWorkflow relayCatalog .default true strayGraph = .ok w := by
    apply exists_eq_ok_of_isOk
    decide +kernel
  obtain ⟨order, found, valid, -, filled, rfl⟩ :=
    relayCatalog.compiled_of_toWorkflow .default true strayGraph distinct w made
  rw [sequenced] at found
  cases found
  have lost : ∀ nodes, ¬ relayCatalog.Realised nodes
      (relayCatalog.compiled .default [1, 2] strayGraph).document relaySender strayValue "result"
      "data" := by
    intro nodes realised
    cases realised with
    | inlined internal => cases internal
    | wired _ step _ =>
      rw [relayCatalog.stepIds_compiled .default [1, 2] strayGraph valid.nodup] at step
      revert step
      decide +kernel
  exact ⟨distinct, sequenced, _, _, _, made, filled,
    relayCatalog.document?_compiled .default [1, 2] strayGraph valid.nodup,
    ⟨by decide +kernel, lost _, by decide +kernel⟩, by decide +kernel⟩

end PipelineCompiler
