import PipelineCompiler.Proofs.Wiring

set_option autoImplicit false

/- What a compiled workflow reads of a graph: of each step node its own data, the values that the
settings passes leave in it with the places they come from, and what other steps send to it. Graphs
that agree on this have the same workflow, and success carries over to a part of a graph. -/
namespace PipelineCompiler

/-- A loop that keeps the last of what its turns find. -/
theorem foldl_eq_getLast? {α β : Type} (body : Option β → α → Option β) (find : α → Option β)
    (turn : ∀ found x, body found x = (find x).or found) (xs : List α) (found : Option β) :
    xs.foldl body found = (xs.filterMap find).getLast?.or found := by
  induction xs generalizing found with
  | nil => rfl
  | cons x rest ih =>
    rw [List.foldl_cons, ih, turn, List.filterMap_cons]
    cases find x with
    | none => rfl
    | some b =>
      rw [List.getLast?_cons]
      cases (rest.filterMap find).getLast? <;> rfl

def Arrival.outletRef (a : Arrival) : OutletRef := ⟨a.source.id, a.outlet⟩

namespace Catalog

variable (c : Catalog)

/-- The outlet that a link brings to a port, if it comes from an internal node. -/
def brought? (nodes : List Node) (n : Node) (port : String) (link : Link) : Option OutletRef :=
  ((c.arrival? nodes true n link).filter fun a => a.inlet = port).map Arrival.outletRef

/-- An inlined value comes from the outlet of the last link from an internal node. -/
theorem inlinedFrom_eq (nodes : List Node) (links : List Link) (n : Node)
    (found : Node.last? n.id nodes = some n) (port : String) :
    inlinedFrom c links nodes n.id port =
      (c.lastArrival? nodes links true n port).map Arrival.outletRef := by
  have brings : links.filterMap (c.brought? nodes n port) =
      ((c.arrivals nodes links true n).filter fun a => a.inlet = port).map Arrival.outletRef := by
    rw [arrivals, List.filter_filterMap, List.map_filterMap]
    rfl
  rw [inlinedFrom, foldl_eq_getLast? _ (c.brought? nodes n port), Option.or_none, brings,
    List.getLast?_map, lastArrival?]
  intro before link
  rw [brought?, arrival?, found]
  by_cases here : link.target = n.id
  · simp only [here, ↓reduceIte]
    cases known : Node.last? link.source nodes with
    | none => rfl
    | some source =>
      have id := (Node.mem_of_last? link.source nodes source known).2
      by_cases internal : source.internal = true
      · simp only [internal, ↓reduceIte]
        cases c.linkPorts link source n with
        | error e => rfl
        | ok ports =>
          by_cases there : ports.2 = port
          · simp only [there, ↓reduceIte, Option.filter_some, decide_true, Option.map_some,
              Arrival.outletRef, id, Option.some_or]
          · simp only [there, ↓reduceIte, Option.filter_some, decide_false, Bool.false_eq_true,
              Option.map_none, Option.none_or]
      · simp [internal]
  · simp [here]

theorem lastArrival?_map (f : Node → Node) (same : ∀ n, (f n).bare = n.bare) (nodes : List Node)
    (links : List Link) (fromInternal : Bool) (target : Node) (port : String) :
    c.lastArrival? (nodes.map f) links fromInternal (f target) port =
      (c.lastArrival? nodes links fromInternal target port).map
        fun a => { a with source := f a.source } := by
  rw [lastArrival?, c.arrivals_map f same, List.filter_map, List.getLast?_map, lastArrival?]
  rfl

variable (order : List Int) (g : Graph)

/-- The outlet that an arrival comes from, with the value that the passes leave there. -/
def brings (a : Arrival) : OutletRef × Value :=
  (a.outletRef, (c.placed order a.source).output a.outlet)

def broughtTo (n : Node) (port : String) : Option (OutletRef × Value) :=
  (c.lastArrival? g.nodes g.links true n port).map (c.brings order)

/-- Where the value of an input was copied from, after the settings passes. -/
def origin (n : Node) (port : String) : Option OutletRef :=
  inlinedFrom c g.links (g.nodes.map (c.settled order g)) (c.settled order g n).id port

theorem origin_eq (distinct : g.ids.Nodup) (n : Node) (inside : n ∈ g.nodes) (port : String) :
    c.origin order g n port = (c.broughtTo order g n port).map Prod.fst := by
  have same := c.settled_bare order g
  have ids : ∀ m, (c.settled order g m).id = m.id := fun m => Node.id_of_bare (same m)
  have found : Node.last? (c.settled order g n).id (g.nodes.map (c.settled order g)) =
      some (c.settled order g n) := by
    rw [Node.last?_map _ ids, ids, (Node.last?_eq_some_iff n.id g.nodes distinct n).2 ⟨inside, rfl⟩]
    rfl
  rw [origin, c.inlinedFrom_eq _ _ _ found, c.lastArrival?_map _ same, broughtTo, Option.map_map,
    Option.map_map]
  have refs : (Arrival.outletRef ∘ fun a => { a with source := c.settled order g a.source }) =
      Prod.fst ∘ c.brings order := by
    funext a
    simp only [Function.comp_apply, Arrival.outletRef, brings, ids]
  rw [refs]

theorem input_settled_broughtTo (n : Node) (port : String) :
    (c.settled order g n).input port =
      ((c.broughtTo order g n port).map Prod.snd).getD (n.input port) := by
  rw [input_settled, broughtTo]
  cases c.lastArrival? g.nodes g.links true n port <;> rfl

def jobsAt (n : Node) : List (String × JobInput) :=
  c.jobEntries g.links (g.nodes.map (c.settled order g)) (c.settled order g n)

def typesAt (n : Node) : List (String × CwlType) :=
  c.typeEntries g.links (g.nodes.map (c.settled order g)) (c.settled order g n)

theorem outputEntries_congr {m n : Node} (same : m.bare = n.bare) :
    c.outputEntries m = c.outputEntries n := by
  rw [outputEntries, outputEntries, c.plugin_congr same, c.stepName_congr same]

/-- A compiled workflow in terms of the nodes of its graph. -/
theorem compiled_eq (header : Header) :
    c.compiled header order g =
      { header := header
        jobInputs := OrderedMap.ofList ((stepNodes order g.nodes).flatMap (c.jobsAt order g))
        inputs := OrderedMap.ofList ((stepNodes order g.nodes).flatMap (c.typesAt order g))
        outputs := OrderedMap.ofList ((stepNodes order g.nodes).flatMap c.outputEntries)
        order := (stepNodes order g.nodes).map c.stepName
        steps := OrderedMap.ofList ((stepNodes order g.nodes).map fun n =>
          (c.stepName n, c.stepAt header order g n)) } := by
  have same := c.settled_bare order g
  have names : ∀ n, c.stepName (c.settled order g n) = c.stepName n := fun n =>
    c.stepName_congr (same n)
  have outputs : ∀ n, c.outputEntries (c.settled order g n) = c.outputEntries n := fun n =>
    c.outputEntries_congr (same n)
  simp only [compiled, workflowOf, List.flatMap_map, List.map_map, Function.comp_def, names,
    outputs]
  rfl

/-- Nodes of two graphs that are the same apart from their values, and in which the settings passes
leave the same values, copied from the same places. -/
structure SameValues (order order' : List Int) (g g' : Graph) (n n' : Node) : Prop where
  bare : n'.bare = n.bare
  input : ∀ port, (c.settled order' g' n').input port = (c.settled order g n).input port
  output : ∀ port, (c.settled order' g' n').output port = (c.settled order g n).output port
  origin : ∀ port, c.origin order' g' n' port = c.origin order g n port

variable {c order g} {order' : List Int} {g' : Graph} {n n' : Node}

/-- The passes leave the same values when nodes have the same inputs, the same outputs behind the
placeholders, and the same values brought to them. -/
theorem sameValues_of_broughtTo (distinct : g.ids.Nodup) (distinct' : g'.ids.Nodup)
    (inside : n ∈ g.nodes) (inside' : n' ∈ g'.nodes) (bare : n'.bare = n.bare)
    (own : ∀ port, n'.input port = n.input port)
    (placed : ∀ port, (c.placed order' n').output port = (c.placed order n).output port)
    (brought : ∀ port, c.broughtTo order' g' n' port = c.broughtTo order g n port) :
    c.SameValues order order' g g' n n' where
  bare := bare
  input := by
    intro port
    simp only [input_settled_broughtTo, brought, own]
  output := by
    intro port
    simp only [output_settled, placed]
  origin := by
    intro port
    rw [c.origin_eq order' g' distinct' n' inside', c.origin_eq order g distinct n inside, brought]

namespace SameValues

variable (same : c.SameValues order order' g g' n n')

include same

theorem settled_bare : (c.settled order' g' n').bare = (c.settled order g n).bare := by
  rw [c.settled_bare, c.settled_bare, same.bare]

theorem boundPorts :
    c.boundPorts g'.links (g'.nodes.map (c.settled order' g')) (c.settled order' g' n') =
      c.boundPorts g.links (g.nodes.map (c.settled order g)) (c.settled order g n) := by
  have origins : inlinedFrom c g'.links (g'.nodes.map (c.settled order' g'))
      (c.settled order' g' n').id =
        inlinedFrom c g.links (g.nodes.map (c.settled order g)) (c.settled order g n).id :=
    funext same.origin
  simp only [Catalog.boundPorts, boundInputs, boundOutputs, same.input, same.output, origins,
    c.plugin_congr same.settled_bare]

theorem jobsAt : c.jobsAt order' g' n' = c.jobsAt order g n := by
  rw [Catalog.jobsAt, Catalog.jobsAt, jobEntries, jobEntries, same.boundPorts,
    c.stepName_congr same.settled_bare]

theorem typesAt : c.typesAt order' g' n' = c.typesAt order g n := by
  rw [Catalog.typesAt, Catalog.typesAt, typeEntries, typeEntries, same.boundPorts,
    c.stepName_congr same.settled_bare]

/-- The steps of such nodes are the same but for what other steps send to them. -/
theorem stepAt (header : Header) :
    c.stepAt header order' g' n' =
      { c.stepAt header order g n with sources := (c.stepAt header order' g' n').sources } := by
  simp only [Catalog.stepAt, stepOf, c.plugin_congr same.settled_bare,
    c.stepName_congr same.settled_bare]

end SameValues

/-- What other steps send to a node, as writes to the sources of its step. -/
def wires (c : Catalog) (g : Graph) (n : Node) : List (String × String) :=
  (c.arrivals g.nodes g.links false n).map c.wire

theorem stepAt_congr (header : Header) (same : c.SameValues order order' g g' n n')
    (wires : c.wires g' n' = c.wires g n) :
    c.stepAt header order' g' n' = c.stepAt header order g n := by
  have sources : (c.stepAt header order' g' n').sources = (c.stepAt header order g n).sources := by
    rw [c.sources_stepAt, c.sources_stepAt, same.boundPorts, c.stepName_congr same.bare]
    exact congrArg _ (congrArg _ wires)
  rw [same.stepAt header, sources]

/-- Graphs whose step nodes agree on their values and on what other steps send to them have the same
workflow. -/
theorem compiled_congr (header : Header) (f : Node → Node)
    (steps : stepNodes order' g'.nodes = (stepNodes order g.nodes).map f)
    (same : ∀ n ∈ stepNodes order g.nodes,
      c.SameValues order order' g g' n (f n) ∧ c.wires g' (f n) = c.wires g n) :
    c.compiled header order' g' = c.compiled header order g := by
  have jobs := List.flatMap_congr fun n step => (same n step).1.jobsAt
  have types := List.flatMap_congr fun n step => (same n step).1.typesAt
  have outputs := List.flatMap_congr fun n step => c.outputEntries_congr (same n step).1.bare
  have names := List.map_congr_left fun n step => c.stepName_congr (same n step).1.bare
  have made : (stepNodes order g.nodes).map (fun n =>
      (c.stepName (f n), c.stepAt header order' g' (f n))) =
        (stepNodes order g.nodes).map fun n => (c.stepName n, c.stepAt header order g n) := by
    apply List.map_congr_left
    intro n step
    rw [c.stepName_congr (same n step).1.bare,
      stepAt_congr header (same n step).1 (same n step).2]
  simp only [compiled_eq, steps, List.flatMap_map, List.map_map, Function.comp_def, jobs, types,
    outputs, names]
  exact congrArg _ (congrArg OrderedMap.ofList made)

/-- A graph with the same step nodes, to which the links bring the same, has the same workflow. -/
theorem compiled_of_arrivals (header : Header) (distinct : g.ids.Nodup) (distinct' : g'.ids.Nodup)
    (steps : stepNodes order g'.nodes = stepNodes order g.nodes)
    (arrivals : ∀ n ∈ stepNodes order g.nodes, ∀ fromInternal,
      c.arrivals g'.nodes g'.links fromInternal n = c.arrivals g.nodes g.links fromInternal n) :
    c.compiled header order g' = c.compiled header order g := by
  have same : stepNodes order g'.nodes = (stepNodes order g.nodes).map id := by
    rw [steps, List.map_id]
  apply compiled_congr header id same
  intro n step
  have inside := ((mem_stepNodes_iff order g.nodes distinct n).1 step).1
  have inside' := ((mem_stepNodes_iff order g'.nodes distinct' n).1 (steps.symm ▸ step)).1
  constructor
  · apply sameValues_of_broughtTo distinct distinct' inside inside' rfl
    · intro port
      rfl
    · intro port
      rfl
    · intro port
      simp only [broughtTo, lastArrival?, arrivals n step]
  · simp only [wires, id, arrivals n step]

/-- A part of a graph that synthesis can do is one that it can do. -/
theorem Synthesizes.mono (able : c.Synthesizes order g) (distinct : g.ids.Nodup)
    (distinct' : g'.ids.Nodup) (nodes : g'.nodes ⊆ g.nodes) (links : g'.links ⊆ g.links)
    (ordered : order' ⊆ order) : c.Synthesizes order' g' := by
  have lookup : ∀ id n, Node.last? id g'.nodes = some n → Node.last? id g.nodes = some n := by
    intro id n found
    obtain ⟨member, here⟩ := (Node.last?_eq_some_iff id g'.nodes distinct' n).1 found
    exact (Node.last?_eq_some_iff id g.nodes distinct n).2 ⟨nodes member, here⟩
  constructor
  · intro n member ran
    exact able.fills n (nodes member) (ordered ran)
  · intro l linked s t source target internal
    exact able.inlines l (links linked) s t (lookup _ s source) (lookup _ t target) internal
  · intro n step
    obtain ⟨member, ran, external⟩ := (mem_stepNodes_iff order' g'.nodes distinct' n).1 step
    have emitted := (mem_stepNodes_iff order g.nodes distinct n).2
      ⟨nodes member, ordered ran, external⟩
    obtain ⟨plugin, named, wires⟩ := able.emits n emitted
    refine ⟨plugin, named, ?_⟩
    intro l linked here s source external
    exact wires l (links linked) here s (lookup _ s source) external

end Catalog

end PipelineCompiler
