import Mathlib.Data.List.Nodup
import PipelineCompiler.Filling
import PipelineCompiler.Proofs.Adjacency
import PipelineCompiler.Proofs.Naming

set_option autoImplicit false

namespace PipelineCompiler

theorem sublist_map_filterMap {α β : Type} (find : α → Option β) (key : β → α)
    (own : ∀ a b, find a = some b → key b = a) (xs : List α) :
    ((xs.filterMap find).map key).Sublist xs := by
  induction xs with
  | nil => exact .slnil
  | cons a rest ih =>
    rw [List.filterMap_cons]
    cases found : find a with
    | none => exact ih.cons a
    | some b =>
      rw [List.map_cons, own a b found]
      exact ih.cons_cons a

namespace Node

def bare (n : Node) : Node := { n with settings := none }

theorem bare_eq_iff (m n : Node) :
    m.bare = n.bare ↔
      m.id = n.id ∧ m.pluginId = n.pluginId ∧ m.name = n.name ∧ m.internal = n.internal := by
  simp [bare]

theorem id_of_bare {m n : Node} (same : m.bare = n.bare) : m.id = n.id :=
  ((bare_eq_iff m n).1 same).1

theorem internal_of_bare {m n : Node} (same : m.bare = n.bare) : m.internal = n.internal :=
  ((bare_eq_iff m n).1 same).2.2.2

@[simp] theorem bare_withSettings (n : Node) (inputs outputs : OrderedMap String Value) :
    (n.withSettings inputs outputs).bare = n.bare := rfl

/-- Without repeated ids an id finds its node. -/
theorem last?_eq_some_iff (id : Int) (nodes : List Node) (distinct : (nodes.map Node.id).Nodup)
    (n : Node) : last? id nodes = some n ↔ n ∈ nodes ∧ n.id = id := by
  constructor
  · exact mem_of_last? id nodes n
  · intro given
    obtain ⟨member, rfl⟩ := given
    have known := (last?_isSome_iff n.id nodes).2 (List.mem_map_of_mem member)
    obtain ⟨m, found⟩ := Option.isSome_iff_exists.1 known
    obtain ⟨member', same⟩ := mem_of_last? n.id nodes m found
    rw [found, List.inj_on_of_nodup_map distinct member' member same]

theorem last?_map (f : Node → Node) (same : ∀ n, (f n).id = n.id) (id : Int) (nodes : List Node) :
    last? id (nodes.map f) = (last? id nodes).map f := by
  induction nodes with
  | nil => rfl
  | cons m rest ih =>
    rw [List.map_cons, last?, last?, ih, same]
    cases last? id rest with
    | some n => rfl
    | none => by_cases here : m.id = id <;> simp [here]

theorem map_id_map (f : Node → Node) (same : ∀ n, (f n).bare = n.bare) (nodes : List Node) :
    (nodes.map f).map Node.id = nodes.map Node.id := by
  rw [List.map_map]
  exact List.map_congr_left fun n _ => id_of_bare (same n)

end Node

namespace Catalog

variable (c : Catalog)

theorem pluginOf_congr {m n : Node} (same : m.bare = n.bare) : c.pluginOf m = c.pluginOf n := by
  change c.pluginOf m.bare = c.pluginOf n.bare
  rw [same]

theorem portsOf_congr {m n : Node} (same : m.bare = n.bare) : c.portsOf m = c.portsOf n := by
  rw [portsOf, portsOf, c.pluginOf_congr same]

theorem stepId_congr {m n : Node} (same : m.bare = n.bare) : c.stepId m = c.stepId n := by
  change c.stepId m.bare = c.stepId n.bare
  rw [same]

theorem stepName_congr {m n : Node} (same : m.bare = n.bare) : c.stepName m = c.stepName n := by
  change c.stepName m.bare = c.stepName n.bare
  rw [same]

theorem linkPorts_congr (link : Link) {s s' t t' : Node} (source : s.bare = s'.bare)
    (target : t.bare = t'.bare) : c.linkPorts link s t = c.linkPorts link s' t' := by
  change c.linkPorts link s.bare t.bare = c.linkPorts link s'.bare t'.bare
  rw [source, target]

theorem mem_of_lastPlugin? (id : String) (plugins : List Plugin) (p : Plugin)
    (found : lastPlugin? id plugins = some p) : p ∈ plugins := by
  induction plugins with
  | nil => cases found
  | cons q rest ih =>
    rw [lastPlugin?] at found
    split at found
    · rename_i later
      cases found
      exact List.mem_cons_of_mem q (ih later)
    · split at found
      · cases found
        exact List.mem_cons_self
      · cases found

theorem mem_of_pluginOf (n : Node) (p : Plugin) (found : c.pluginOf n = .ok p) :
    p ∈ c.plugins := by
  rw [pluginOf] at found
  split at found
  · rename_i q listed
    cases found
    exact mem_of_lastPlugin? n.pluginId c.plugins _ listed
  · cases found

theorem portsOf_eq_ok_iff (n : Node) (ports : PortOrder) :
    c.portsOf n = .ok ports ↔ ∃ p, c.pluginOf n = .ok p ∧ c.order p = ports :=
  map_eq_ok (c.pluginOf n) c.order ports

theorem linkPorts_eq_ok_iff (link : Link) (source target : Node) (outlet inlet : String) :
    c.linkPorts link source target = .ok (outlet, inlet) ↔
      ∃ out inn, c.portsOf source = .ok out ∧ c.portsOf target = .ok inn ∧
        (out.outputs[link.outlet]?).map Binding.name = some outlet ∧
        (inn.inputs[link.inlet]?).map Binding.name = some inlet := by
  rw [linkPorts, bind_eq_ok]
  constructor
  · intro given
    obtain ⟨out, foundOut, rest⟩ := given
    obtain ⟨inn, foundIn, rest⟩ := (bind_eq_ok _ _ _).1 rest
    refine ⟨out, inn, foundOut, foundIn, ?_⟩
    split at rest
    · cases rest
    · rename_i b atOutlet
      dsimp only at rest
      split at rest
      · cases rest
      · rename_i d atInlet
        cases rest
        simp [atOutlet, atInlet]
  · intro given
    obtain ⟨out, inn, foundOut, foundIn, outletName, inletName⟩ := given
    obtain ⟨b, atOutlet, rfl⟩ := Option.map_eq_some_iff.1 outletName
    obtain ⟨d, atInlet, rfl⟩ := Option.map_eq_some_iff.1 inletName
    refine ⟨out, foundOut, (bind_eq_ok _ _ _).2 ⟨inn, foundIn, ?_⟩⟩
    simp [atOutlet, atInlet]

end Catalog

/-- What a link brings to a node: the outlet of another node, and the inlet that it goes to. -/
structure Arrival where
  source : Node
  outlet : String
  inlet : String

namespace Catalog

variable (c : Catalog)

/-- The arrival of a link at a node, if it comes from an internal node or, as asked, from one that
is not. -/
def arrival? (nodes : List Node) (fromInternal : Bool) (target : Node) (link : Link) :
    Option Arrival :=
  if link.target = target.id then
    match Node.last? link.source nodes with
    | some source =>
      if source.internal = fromInternal then
        match c.linkPorts link source target with
        | .ok (outlet, inlet) => some ⟨source, outlet, inlet⟩
        | .error _ => none
      else none
    | none => none
  else none

def arrivals (nodes : List Node) (links : List Link) (fromInternal : Bool) (target : Node) :
    List Arrival := links.filterMap (c.arrival? nodes fromInternal target)

/-- The arrival at a port that comes last in the order of the links. -/
def lastArrival? (nodes : List Node) (links : List Link) (fromInternal : Bool) (target : Node)
    (port : String) : Option Arrival :=
  ((c.arrivals nodes links fromInternal target).filter fun a => a.inlet = port).getLast?

theorem arrival?_eq_some_iff (nodes : List Node) (fromInternal : Bool) (target : Node)
    (link : Link) (a : Arrival) :
    c.arrival? nodes fromInternal target link = some a ↔
      link.target = target.id ∧ Node.last? link.source nodes = some a.source ∧
        a.source.internal = fromInternal ∧
        c.linkPorts link a.source target = .ok (a.outlet, a.inlet) := by
  obtain ⟨source, outlet, inlet⟩ := a
  rw [arrival?]
  constructor
  · intro arrived
    split at arrived
    · rename_i here
      split at arrived
      · rename_i found
        split at arrived
        · rename_i kind
          split at arrived
          · rename_i ports
            cases arrived
            exact ⟨here, found, kind, ports⟩
          · cases arrived
        · cases arrived
      · cases arrived
    · cases arrived
  · intro given
    obtain ⟨here, found, kind, ports⟩ := given
    simp only at found kind ports
    simp [here, found, kind, ports]

/-- A change of the values of nodes changes nothing else about arrivals. -/
theorem arrival?_map (f : Node → Node) (same : ∀ n, (f n).bare = n.bare) (nodes : List Node)
    (fromInternal : Bool) (target : Node) (link : Link) :
    c.arrival? (nodes.map f) fromInternal (f target) link =
      (c.arrival? nodes fromInternal target link).map fun a => { a with source := f a.source } := by
  rw [arrival?, arrival?, Node.last?_map f (fun n => Node.id_of_bare (same n)),
    Node.id_of_bare (same target)]
  split
  · cases Node.last? link.source nodes with
    | none => rfl
    | some source =>
      dsimp only [Option.map_some]
      rw [Node.internal_of_bare (same source),
        c.linkPorts_congr link (same source) (same target)]
      split
      · cases c.linkPorts link source target <;> rfl
      · rfl
  · rfl

theorem arrivals_map (f : Node → Node) (same : ∀ n, (f n).bare = n.bare) (nodes : List Node)
    (links : List Link) (fromInternal : Bool) (target : Node) :
    c.arrivals (nodes.map f) links fromInternal (f target) =
      (c.arrivals nodes links fromInternal target).map
        fun a => { a with source := f a.source } := by
  simp only [arrivals, List.map_filterMap]
  apply List.filterMap_congr
  intro link _
  exact c.arrival?_map f same nodes fromInternal target link

end Catalog

theorem mem_of_lastNamed? (name : String) (bindings : List Binding) (b : Binding)
    (found : Binding.lastNamed? name bindings = some b) : b ∈ bindings := by
  induction bindings with
  | nil => cases found
  | cons d rest ih =>
    rw [Binding.lastNamed?] at found
    split at found
    · rename_i later
      cases found
      exact List.mem_cons_of_mem d (ih later)
    · split at found
      · cases found
        exact List.mem_cons_self
      · cases found

theorem name_of_lastNamed? (name : String) (bindings : List Binding) (b : Binding)
    (found : Binding.lastNamed? name bindings = some b) : b.name = name := by
  induction bindings with
  | nil => cases found
  | cons d rest ih =>
    rw [Binding.lastNamed?] at found
    split at found
    · rename_i later
      cases found
      exact ih later
    · split at found
      · rename_i here
        cases found
        exact here
      · cases found

theorem mem_of_mem_orderBindings (named : List String) (bindings : List Binding) (b : Binding)
    (shown : b ∈ orderBindings named bindings) : b ∈ bindings := by
  rcases List.mem_append.1 shown with byEntry | other
  · obtain ⟨name, -, found⟩ := List.mem_filterMap.1 byEntry
    exact mem_of_lastNamed? name bindings b found
  · exact (List.mem_filter.1 other).1

/-- The editor shows no name twice unless the plugin has it twice. -/
theorem nodup_names_orderBindings (named : List String) (bindings : List Binding)
    (unique : (bindings.map Binding.name).Nodup) :
    ((orderBindings named bindings).map Binding.name).Nodup := by
  have first : ((named.eraseDups.filterMap fun name => Binding.lastNamed? name bindings).map
      Binding.name).Sublist named.eraseDups :=
    sublist_map_filterMap _ Binding.name (fun name => name_of_lastNamed? name bindings) _
  have others : ((bindings.filter fun b => !named.contains b.name).map Binding.name).Nodup :=
    unique.sublist (List.filter_sublist.map Binding.name)
  rw [orderBindings, List.map_append, List.nodup_append]
  refine ⟨first.nodup (nodup_eraseDups named), others, ?_⟩
  intro name byEntry name' other same
  have listed : name ∈ named := List.mem_eraseDups.1 (first.subset byEntry)
  obtain ⟨b, among, here⟩ := List.mem_map.1 other
  rw [same, ← here] at listed
  simp [listed] at among

/-- With the order of the editor a link ends at ports that the two plugins declare. -/
theorem Catalog.ports_of_linkPorts (c : Catalog) (editor : c.order = Plugin.editorOrder)
    (link : Link) (source target : Node) (outlet inlet : String)
    (joined : c.linkPorts link source target = .ok (outlet, inlet)) :
    (∃ p, c.pluginOf source = .ok p ∧ outlet ∈ p.outputs.map Binding.name) ∧
      ∃ p, c.pluginOf target = .ok p ∧ inlet ∈ p.inputs.map Binding.name := by
  obtain ⟨out, inn, portsOut, portsIn, outletAt, inletAt⟩ :=
    (c.linkPorts_eq_ok_iff link source target outlet inlet).1 joined
  obtain ⟨p, foundOut, rfl⟩ := (c.portsOf_eq_ok_iff source out).1 portsOut
  obtain ⟨q, foundIn, rfl⟩ := (c.portsOf_eq_ok_iff target inn).1 portsIn
  obtain ⟨b, atOutlet, rfl⟩ := Option.map_eq_some_iff.1 outletAt
  obtain ⟨d, atInlet, rfl⟩ := Option.map_eq_some_iff.1 inletAt
  rw [editor] at atOutlet atInlet
  constructor
  · have shown := List.mem_of_getElem? atOutlet
    exact ⟨p, foundOut, List.mem_map_of_mem (mem_of_mem_orderBindings _ _ b shown)⟩
  · have shown := List.mem_of_getElem? atInlet
    exact ⟨q, foundIn, List.mem_map_of_mem (mem_of_mem_orderBindings _ _ d shown)⟩

end PipelineCompiler
