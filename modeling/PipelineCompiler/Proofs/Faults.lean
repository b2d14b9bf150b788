import PipelineCompiler.Proofs.Wiring

set_option autoImplicit false

/- What is wrong with a graph that has an order but no workflow. Lookups and names are the only
places where synthesis can fail; each failure there tells of a node or a link at fault. -/
namespace PipelineCompiler

theorem hasNumeral_of_fitsInt (n : Int) (fits : Binary64.fitsInt n = true) :
    hasNumeral n = true := by
  have bounds : Binary64.overflowBound ≤ numeralBound := by decide +kernel
  rw [Binary64.fitsInt, decide_eq_true_iff] at fits
  rw [hasNumeral, decide_eq_true_iff]
  exact fits.trans_le bounds

theorem Link.hasNumerals_of_ends (l : Link) {source target : Node} (left : l.source = source.id)
    (right : l.target = target.id) (writtenLeft : hasNumeral source.id = true)
    (writtenRight : hasNumeral target.id = true) : l.hasNumerals = true := by
  rw [hasNumerals, left, right, writtenLeft, writtenRight]
  rfl

/-- Nodes with other values have the same ids. -/
theorem Node.numerals_map (f : Node → Node) (same : ∀ n, (f n).bare = n.bare) {nodes : List Node}
    (numbered : ∀ n ∈ nodes, hasNumeral n.id = true) :
    ∀ n ∈ nodes.map f, hasNumeral n.id = true := by
  rw [List.forall_mem_map]
  intro n member
  rw [id_of_bare (same n)]
  exact numbered n member

namespace CompileError

theorem showing_cons {n : Int} (written : hasNumeral n = true) (rest : List Int)
    (e : CompileError) : showing (n :: rest) e = showing rest e := by
  simp only [showing, List.all_cons, written, Bool.true_and]

theorem showing_of_numeral {n : Int} (written : hasNumeral n = true) (e : CompileError) :
    showing [n] e = e := showing_cons written [] e

/-- An error is shown as it is, or one of its numbers has no numeral. -/
theorem showing_eq_or (numbers : List Int) (e : CompileError) :
    (showing numbers e = e ∧ ∀ n ∈ numbers, hasNumeral n = true) ∨
      (showing numbers e = .noNumeral ∧ ∃ n ∈ numbers, hasNumeral n = false) := by
  rw [showing]
  split
  · rename_i all
    exact .inl ⟨rfl, List.all_eq_true.1 all⟩
  · rename_i some
    rw [Bool.not_eq_true, List.all_eq_false] at some
    obtain ⟨n, member, without⟩ := some
    exact .inr ⟨rfl, n, member, Bool.eq_false_iff.2 without⟩

end CompileError

/-- Rounded to a floating number, the id would be without end. -/
def Node.Oversized (n : Node) : Prop := Binary64.overflowBound ≤ n.id.natAbs

theorem Node.oversized_iff (n : Node) : n.Oversized ↔ Binary64.fitsInt n.id = false := by
  rw [Oversized, Binary64.fitsInt, decide_eq_false_iff_not, not_lt]

theorem Node.not_oversized_iff (n : Node) : ¬ n.Oversized ↔ Binary64.fitsInt n.id = true := by
  rw [oversized_iff, Bool.not_eq_false]

namespace Catalog

variable (c : Catalog)

/-- The plugin of a node is listed. -/
def Knows (n : Node) : Prop := n.pluginId ∈ c.plugins.map Plugin.id

/-- The name of a node, once sanitised, stays as it is. -/
def Canonical (n : Node) : Prop := c.sanitize (c.sanitize n.name) = c.sanitize n.name

/-- The indices of a link are within the ports that the two plugins show. -/
def InRange (l : Link) (source target : Node) : Prop :=
  ∀ p q, c.pluginOf source = .ok p → c.pluginOf target = .ok q →
    l.outlet < (c.order p).outputs.length ∧ l.inlet < (c.order q).inputs.length

theorem lastPlugin?_isSome_iff (id : String) (plugins : List Plugin) :
    (lastPlugin? id plugins).isSome = true ↔ id ∈ plugins.map Plugin.id := by
  induction plugins with
  | nil => simp [lastPlugin?]
  | cons p rest ih =>
    rw [lastPlugin?, List.map_cons, List.mem_cons, ← ih]
    cases lastPlugin? id rest with
    | some q => simp
    | none => by_cases here : p.id = id <;> simp [here, Ne.symm]

theorem knows_iff (n : Node) : c.Knows n ↔ ∃ p, c.pluginOf n = .ok p := by
  rw [Knows, ← lastPlugin?_isSome_iff, pluginOf]
  cases lastPlugin? n.pluginId c.plugins <;> simp

theorem pluginOf_eq_error_iff (n : Node) (e : CompileError) :
    c.pluginOf n = .error e ↔
      ¬ c.Knows n ∧ e = .showing [n.id] (.pluginNotFound n.pluginId n.id) := by
  rw [Knows, ← lastPlugin?_isSome_iff, pluginOf]
  cases lastPlugin? n.pluginId c.plugins <;> simp [eq_comm]

theorem exists_portsOf_iff (n : Node) : (∃ ports, c.portsOf n = .ok ports) ↔ c.Knows n := by
  rw [knows_iff]
  simp only [portsOf_eq_ok_iff]
  constructor
  · rintro ⟨-, p, listed, -⟩
    exact ⟨p, listed⟩
  · rintro ⟨p, listed⟩
    exact ⟨_, p, listed, rfl⟩

theorem stepId_eq_error_iff (n : Node) (e : CompileError) :
    c.stepId n = .error e ↔
      (¬ c.Canonical n ∧ e = .naming (.notCanonical (c.sanitize n.name))) ∨
        (c.Canonical n ∧ n.Oversized ∧ e = .naming .idTooLarge) := by
  rw [Canonical, n.oversized_iff, stepId_eq]
  by_cases canonical : c.sanitize (c.sanitize n.name) = c.sanitize n.name
  · by_cases fits : Binary64.fitsInt n.id = true
    · simp [canonical, fits]
    · simp [canonical, fits, @eq_comm _ e]
  · simp [canonical, @eq_comm _ e]

theorem exists_stepId_iff (n : Node) (finite : Binary64.fitsInt n.id = true) :
    (∃ id, c.stepId n = .ok id) ↔ c.Canonical n := by
  simp [stepId_eq_ok_iff, finite, Canonical]

theorem exists_linkPorts_iff (l : Link) (source target : Node) :
    (∃ ports, c.linkPorts l source target = .ok ports) ↔
      c.Knows source ∧ c.Knows target ∧ c.InRange l source target := by
  constructor
  · rintro ⟨⟨outlet, inlet⟩, joined⟩
    obtain ⟨out, inn, foundOut, foundIn, outletAt, inletAt⟩ :=
      (c.linkPorts_eq_ok_iff l source target outlet inlet).1 joined
    refine ⟨(c.exists_portsOf_iff source).1 ⟨out, foundOut⟩,
      (c.exists_portsOf_iff target).1 ⟨inn, foundIn⟩, ?_⟩
    intro p q left right
    obtain ⟨p', left', rfl⟩ := (c.portsOf_eq_ok_iff source out).1 foundOut
    obtain ⟨q', right', rfl⟩ := (c.portsOf_eq_ok_iff target inn).1 foundIn
    obtain rfl := Except.ok.inj (left.symm.trans left')
    obtain rfl := Except.ok.inj (right.symm.trans right')
    obtain ⟨b, atOutlet, -⟩ := Option.map_eq_some_iff.1 outletAt
    obtain ⟨d, atInlet, -⟩ := Option.map_eq_some_iff.1 inletAt
    exact ⟨(List.getElem?_eq_some_iff.1 atOutlet).1, (List.getElem?_eq_some_iff.1 atInlet).1⟩
  · rintro ⟨left, right, range⟩
    obtain ⟨p, left⟩ := (c.knows_iff source).1 left
    obtain ⟨q, right⟩ := (c.knows_iff target).1 right
    obtain ⟨atOutlet, atInlet⟩ := range p q left right
    refine ⟨((c.order p).outputs[l.outlet].name, (c.order q).inputs[l.inlet].name),
      (c.linkPorts_eq_ok_iff l source target _ _).2 ⟨c.order p, c.order q,
        (c.portsOf_eq_ok_iff source _).2 ⟨p, left, rfl⟩,
        (c.portsOf_eq_ok_iff target _).2 ⟨q, right, rfl⟩, ?_, ?_⟩⟩
    · rw [List.getElem?_eq_getElem atOutlet]
      rfl
    · rw [List.getElem?_eq_getElem atInlet]
      rfl

/-- Why a link cannot be looked up: the plugin at one of its ends is not listed, or its index there
is beyond the ports that the plugin shows. The second error has to write out the index. -/
inductive LinkFault (nodes : List Node) (links : List Link) : CompileError → Prop
  | unknown (n : Node) (inside : n ∈ nodes) (absent : ¬ c.Knows n) :
      LinkFault nodes links (.pluginNotFound n.pluginId n.id)
  | outlet (l : Link) (linked : l ∈ links) (n : Node) (inside : n ∈ nodes) (here : l.source = n.id)
      (p : Plugin) (listed : c.pluginOf n = .ok p)
      (beyond : (c.order p).outputs.length ≤ l.outlet) :
      LinkFault nodes links
        (.showing [l.outlet] (.invalidLink .outlet l n.pluginId (c.order p).outputs.length))
  | inlet (l : Link) (linked : l ∈ links) (n : Node) (inside : n ∈ nodes) (here : l.target = n.id)
      (p : Plugin) (listed : c.pluginOf n = .ok p)
      (beyond : (c.order p).inputs.length ≤ l.inlet) :
      LinkFault nodes links
        (.showing [l.inlet] (.invalidLink .inlet l n.pluginId (c.order p).inputs.length))

/-- The errors that tell what is wrong with a graph that has an order: a link that cannot be looked
up, or a node whose name does not stay as it is or whose id is beyond all floating numbers. -/
inductive Fault (nodes : List Node) (links : List Link) : CompileError → Prop
  | lookup (e : CompileError) (fault : c.LinkFault nodes links e) : Fault nodes links e
  | unstable (n : Node) (inside : n ∈ nodes) (changes : ¬ c.Canonical n) :
      Fault nodes links (.naming (.notCanonical (c.sanitize n.name)))
  | oversized (n : Node) (inside : n ∈ nodes) (large : n.Oversized) :
      Fault nodes links (.naming .idTooLarge)

/-- Faults do not depend on the values of nodes. -/
theorem linkFault_of_map (f : Node → Node) (same : ∀ n, (f n).bare = n.bare) (nodes : List Node)
    (links : List Link) (e : CompileError) (fault : c.LinkFault (nodes.map f) links e) :
    c.LinkFault nodes links e := by
  cases fault with
  | unknown n inside absent =>
    obtain ⟨m, member, rfl⟩ := List.mem_map.1 inside
    obtain ⟨id, plugin, -, -⟩ := (Node.bare_eq_iff _ _).1 (same m)
    rw [Knows, plugin] at absent
    rw [plugin, id]
    exact .unknown m member absent
  | outlet l linked n inside here p listed beyond =>
    obtain ⟨m, member, rfl⟩ := List.mem_map.1 inside
    obtain ⟨id, plugin, -, -⟩ := (Node.bare_eq_iff _ _).1 (same m)
    rw [plugin]
    exact .outlet l linked m member (here.trans id) p
      ((c.pluginOf_congr (same m)).symm.trans listed) beyond
  | inlet l linked n inside here p listed beyond =>
    obtain ⟨m, member, rfl⟩ := List.mem_map.1 inside
    obtain ⟨id, plugin, -, -⟩ := (Node.bare_eq_iff _ _).1 (same m)
    rw [plugin]
    exact .inlet l linked m member (here.trans id) p
      ((c.pluginOf_congr (same m)).symm.trans listed) beyond

theorem fault_of_map (f : Node → Node) (same : ∀ n, (f n).bare = n.bare) (nodes : List Node)
    (links : List Link) (e : CompileError) (fault : c.Fault (nodes.map f) links e) :
    c.Fault nodes links e := by
  cases fault with
  | lookup _ fault => exact .lookup e (c.linkFault_of_map f same nodes links e fault)
  | unstable n inside changes =>
    obtain ⟨m, member, rfl⟩ := List.mem_map.1 inside
    obtain ⟨-, -, name, -⟩ := (Node.bare_eq_iff _ _).1 (same m)
    rw [Canonical, name] at changes
    rw [name]
    exact .unstable m member changes
  | oversized n inside large =>
    obtain ⟨m, member, rfl⟩ := List.mem_map.1 inside
    rw [Node.Oversized, Node.id_of_bare (same m)] at large
    exact .oversized m member large

section Faults

variable {nodes : List Node} {links : List Link} {e : CompileError}
  (numbered : ∀ n ∈ nodes, hasNumeral n.id = true)

theorem fault_of_stepId (n : Node) (inside : n ∈ nodes) (failed : c.stepId n = .error e) :
    c.Fault nodes links e := by
  rcases (c.stepId_eq_error_iff n e).1 failed with ⟨changes, rfl⟩ | ⟨-, large, rfl⟩
  · exact .unstable n inside changes
  · exact .oversized n inside large

include numbered

theorem linkFault_of_pluginOf (n : Node) (inside : n ∈ nodes) (failed : c.pluginOf n = .error e) :
    c.LinkFault nodes links e := by
  obtain ⟨absent, rfl⟩ := (c.pluginOf_eq_error_iff n e).1 failed
  rw [CompileError.showing_of_numeral (numbered n inside)]
  exact .unknown n inside absent

theorem linkFault_of_portsOf (n : Node) (inside : n ∈ nodes) (failed : c.portsOf n = .error e) :
    c.LinkFault nodes links e :=
  c.linkFault_of_pluginOf numbered n inside ((map_eq_error _ _ e).1 failed)

theorem linkFault_of_linkPorts (l : Link) (linked : l ∈ links) (s t : Node) (left : s ∈ nodes)
    (right : t ∈ nodes) (source : l.source = s.id) (target : l.target = t.id)
    (failed : c.linkPorts l s t = .error e) : c.LinkFault nodes links e := by
  have numberedSource : hasNumeral l.source = true := source ▸ numbered s left
  have numberedTarget : hasNumeral l.target = true := target ▸ numbered t right
  rw [linkPorts, bind_eq_error] at failed
  rcases failed with unknown | ⟨out, foundOut, failed⟩
  · exact c.linkFault_of_portsOf numbered s left unknown
  rcases (bind_eq_error _ _ _).1 failed with unknown | ⟨inn, foundIn, failed⟩
  · exact c.linkFault_of_portsOf numbered t right unknown
  obtain ⟨p, listed, rfl⟩ := (c.portsOf_eq_ok_iff s out).1 foundOut
  obtain ⟨q, listed', rfl⟩ := (c.portsOf_eq_ok_iff t inn).1 foundIn
  simp only [CompileError.showing_cons numberedSource,
    CompileError.showing_cons numberedTarget] at failed
  split at failed
  · rename_i absent
    cases Except.error.inj failed
    exact .outlet l linked s left source p listed (List.getElem?_eq_none_iff.1 absent)
  · split at failed
    · rename_i absent
      cases Except.error.inj failed
      exact .inlet l linked t right target q listed' (List.getElem?_eq_none_iff.1 absent)
    · cases failed

theorem linkFault_of_inlineLink (l : Link) (linked : l ∈ links)
    (failed : inlineLink c nodes l = .error e) : c.LinkFault nodes links e := by
  rw [inlineLink] at failed
  split at failed
  · rename_i s t foundSource foundTarget
    obtain ⟨left, source⟩ := Node.mem_of_last? l.source nodes s foundSource
    obtain ⟨right, target⟩ := Node.mem_of_last? l.target nodes t foundTarget
    have noted : l.hasNumerals = true :=
      l.hasNumerals_of_ends source.symm target.symm (numbered s left) (numbered t right)
    split at failed
    · rcases (bind_eq_error _ _ _).1 failed with ports | ⟨ends, -, made⟩
      · exact c.linkFault_of_linkPorts numbered l linked s t left right source.symm target.symm
          ports
      · cases made
    · cases failed
  · cases failed

/-- Inlining fails at one of the links, where the nodes have other values than at the start. -/
theorem linkFault_of_inlineValues (distinct : (nodes.map Node.id).Nodup)
    (failed : inlineValues c links nodes = .error e) : c.LinkFault nodes links e := by
  rw [inlineValues, unifyNodes_of_nodup nodes distinct] at failed
  have start : SameButInputs nodes nodes := ⟨id, fun _ => ⟨rfl, rfl⟩, (List.map_id nodes).symm⟩
  obtain ⟨l, linked, current, ⟨f, kept, rfl⟩, fails⟩ :=
    exists_turn_of_foldlM_eq_error (inlineLink c) (SameButInputs nodes)
      (fun current l after same made => by
        obtain ⟨-, rfl⟩ := (inlineLink_eq_ok_iff c nodes current l distinct same after).1 made
        exact same.inlineStep c l)
      links nodes e start failed
  have bare : ∀ n, (f n).bare = n.bare := fun n => (kept n).1
  exact c.linkFault_of_map f bare nodes links e
    (c.linkFault_of_inlineLink (Node.numerals_map f bare numbered) l linked fails)

/-- Wiring a step fails at an end of a link or at the name of its source. -/
theorem linkFault_or_stepId_of_wireLink (n : Node) (inside : n ∈ nodes)
    (sources : OrderedMap String String) (l : Link) (linked : l ∈ links)
    (failed : wireLink c nodes n sources l = .error e) :
    c.LinkFault nodes links e ∨ l.target = n.id ∧
      ∃ source, Node.last? l.source nodes = some source ∧ c.stepId source = .error e := by
  rw [wireLink] at failed
  split at failed
  · cases failed
  · rename_i here
    split at failed
    · cases failed
    · rename_i s found
      obtain ⟨left, source⟩ := Node.mem_of_last? l.source nodes s found
      split at failed
      · cases failed
      · rcases (bind_eq_error _ _ _).1 failed with ports | ⟨ends, -, failed⟩
        · exact .inl (c.linkFault_of_linkPorts numbered l linked s n left inside source.symm
            (not_not.1 here) ports)
        · rcases (bind_eq_error _ _ _).1 failed with unnamed | ⟨id, -, made⟩
          · exact .inr ⟨not_not.1 here, s, found, unnamed⟩
          · cases made

theorem linkFault_or_stepId_of_addNode (w : Workflow) (n : Node) (inside : n ∈ nodes)
    (failed : addNode c links nodes w n = .error e) :
    c.LinkFault nodes links e ∨ c.stepId n = .error e ∨ ∃ l ∈ links, l.target = n.id ∧
      ∃ source, Node.last? l.source nodes = some source ∧ c.stepId source = .error e := by
  rw [addNode, bind_eq_error] at failed
  rcases failed with unknown | ⟨p, -, failed⟩
  · exact .inl (c.linkFault_of_pluginOf numbered n inside unknown)
  rcases (bind_eq_error _ _ _).1 failed with unnamed | ⟨id, -, failed⟩
  · exact .inr (.inl unnamed)
  rcases (bind_eq_error _ _ _).1 failed with wiring | ⟨sources, -, made⟩
  · obtain ⟨l, linked, sources, -, fails⟩ := exists_turn_of_foldlM_eq_error _ (fun _ => True)
      (fun _ _ _ _ _ => trivial) links _ e trivial wiring
    rcases c.linkFault_or_stepId_of_wireLink numbered n inside sources l linked fails with
      lookup | here
    · exact .inl lookup
    · exact .inr (.inr ⟨l, linked, here⟩)
  · cases made

theorem fault_of_addNode (w : Workflow) (n : Node) (inside : n ∈ nodes)
    (failed : addNode c links nodes w n = .error e) : c.Fault nodes links e := by
  rcases c.linkFault_or_stepId_of_addNode numbered w n inside failed with
    lookup | unnamed | ⟨l, -, -, source, found, unnamed⟩
  · exact .lookup e lookup
  · exact c.fault_of_stepId n inside unnamed
  · exact c.fault_of_stepId source (Node.mem_of_last? l.source nodes source found).1 unnamed

theorem fault_of_fillPlaceholders (order : List Int)
    (failed : fillPlaceholders c order nodes = .error e) : c.Fault nodes links e := by
  obtain ⟨before, n, after, rfl, -, fails, -⟩ :=
    (fillPlaceholders_eq_error_iff c order nodes e).1 failed
  have inside : n ∈ before ++ n :: after := by simp
  rcases (c.fillOutputs_eq_error_iff n e).1 fails with unknown | ⟨-, unnamed⟩
  · exact .lookup e (c.linkFault_of_portsOf numbered n inside unknown)
  · exact c.fault_of_stepId n inside unnamed

end Faults

/-- Once placeholders are filled in, the other passes fail at links alone. -/
theorem linkFault_of_inlineValues_placed (order : List Int) (g : Graph) (distinct : g.ids.Nodup)
    (numbered : ∀ n ∈ g.nodes, hasNumeral n.id = true) (placed : List Node) (e : CompileError)
    (places : fillPlaceholders c order (g.nodes.map Node.provision) = .ok placed)
    (failed : inlineValues c g.links placed = .error e) : c.LinkFault g.nodes g.links e := by
  have same : (g.nodes.map Node.provision).map (c.fill order) = g.nodes.map (c.placed order) :=
    List.map_map
  obtain ⟨-, rfl⟩ := (fillPlaceholders_eq_ok_iff c order _ _).1 places
  rw [same] at failed
  apply c.linkFault_of_map (c.placed order) (c.placed_bare order)
  apply c.linkFault_of_inlineValues (Node.numerals_map _ (c.placed_bare order) numbered) _ failed
  rw [Node.map_id_map _ (c.placed_bare order)]
  exact distinct

/-- Every failure behind the order has a fault of the graph as its reason. -/
theorem fault_of_synthesize (header : Header) (order : List Int) (g : Graph)
    (distinct : g.ids.Nodup) (numbered : ∀ n ∈ g.nodes, hasNumeral n.id = true)
    (e : CompileError) (failed : synthesize c header order g = .error e) :
    c.Fault g.nodes g.links e := by
  rw [synthesize, bind_eq_error] at failed
  rcases failed with filling | ⟨filled, settles, adding⟩
  · rw [fillSettings, bind_eq_error] at filling
    rcases filling with placing | ⟨placed, places, inlining⟩
    · have numbered' := Node.numerals_map Node.provision (fun _ => rfl) numbered
      exact c.fault_of_map Node.provision (fun _ => rfl) _ _ e
        (c.fault_of_fillPlaceholders numbered' order placing)
    · exact .lookup e (c.linkFault_of_inlineValues_placed order g distinct numbered placed e places
        inlining)
  · obtain ⟨-, rfl⟩ := (fillSettings_eq_ok_iff c order g distinct filled).1 settles
    have same := c.settled_bare order g
    obtain ⟨n, step, w, -, fails⟩ := exists_turn_of_foldlM_eq_error _ (fun _ => True)
      (fun _ _ _ _ _ => trivial) _ _ e trivial adding
    rw [stepNodes_map _ same] at step
    obtain ⟨m, emitted, rfl⟩ := List.mem_map.1 step
    have inside := ((mem_stepNodes_iff order g.nodes distinct m).1 emitted).1
    exact c.fault_of_map _ same _ _ e (c.fault_of_addNode (Node.numerals_map _ same numbered) w _
      (List.mem_map_of_mem inside) fails)

end Catalog

end PipelineCompiler
