import PipelineCompiler.Model.Graph
import PipelineCompiler.Proofs.Reading

set_option autoImplicit false

namespace PipelineCompiler

namespace Model

theorem readUiEntry_eq_ok_iff (v : Value) (e : UiEntry) :
    readUiEntry v = .ok e ↔ ∃ fields, v = .object fields ∧
      required ["key"] readText fields = .ok e.key ∧
      optional ["title"] (readOptional readText) none fields = .ok e.title ∧
      fields.filter (fun f => f.1 ≠ "key" && f.1 ≠ "title") = e.extras.entries := by
  obtain ⟨key, title, ⟨extras⟩⟩ := e
  rw [readUiEntry, readRecord_eq_ok_iff]
  refine exists_congr fun fields => and_congr_right fun _ => ?_
  simp only [map_eq_ok, Prod.exists, pair_eq_ok_iff, UiEntry.mk.injEq, OrderedMap.mk.injEq]
  constructor
  · rintro ⟨_, _, ⟨first, second⟩, rfl, rfl, others⟩
    exact ⟨first, second, others⟩
  · rintro ⟨first, second, others⟩
    exact ⟨key, title, ⟨first, second⟩, rfl, rfl, others⟩

theorem readPlugin_eq_ok_iff (v : Value) (p : Plugin) :
    readPlugin v = .ok p ↔ ∃ fields, v = .object fields ∧
      required ["pid"] readText fields = .ok p.id ∧
      optional ["name"] readText "" fields = .ok p.name ∧
      optional ["version"] (readOptional readText) none fields = .ok p.version ∧
      optional ["baseCommand", "base_command"] (readList readText) [] fields = .ok p.baseCommand ∧
      optional ["container"] readText "" fields = .ok p.container ∧
      optional ["inputs"] (readList readBinding) [] fields = .ok p.inputs ∧
      optional ["outputs"] (readList readBinding) [] fields = .ok p.outputs ∧
      optional ["ui"] (readList readUiEntry) [] fields = .ok p.ui := by
  rw [readPlugin, readRecord_map_eq_ok_iff _ _ _
    (fun p => (p.id, p.name, p.version, p.baseCommand, p.container, p.inputs, p.outputs, p.ui))
    (fun _ => rfl) (fun _ => rfl)]
  simp only [pair_eq_ok_iff]

theorem readNodeSettings_eq_ok_iff (v : Value) (s : NodeSettings) :
    readNodeSettings v = .ok s ↔ ∃ fields, v = .object fields ∧
      optional ["inputs"] (readOptional readObject) none fields = .ok s.inputs ∧
      optional ["outputs"] (readOptional readObject) none fields = .ok s.outputs := by
  rw [readNodeSettings, readRecord_map_eq_ok_iff _ _ _ (fun s => (s.inputs, s.outputs))
    (fun _ => rfl) (fun _ => rfl)]
  simp only [pair_eq_ok_iff]

theorem readNode_eq_ok_iff (v : Value) (n : Node) :
    readNode v = .ok n ↔ ∃ fields, v = .object fields ∧
      required ["id"] readInteger fields = .ok n.id ∧
      required ["pluginId", "plugin_id"] readText fields = .ok n.pluginId ∧
      required ["name"] readText fields = .ok n.name ∧
      optional ["internal"] readTruth false fields = .ok n.internal ∧
      optional ["settings"] (readOptional readNodeSettings) none fields = .ok n.settings := by
  rw [readNode, readRecord_map_eq_ok_iff _ _ _
    (fun n => (n.id, n.pluginId, n.name, n.internal, n.settings)) (fun _ => rfl) (fun _ => rfl)]
  simp only [pair_eq_ok_iff]

theorem readLink_eq_ok_iff (v : Value) (l : Link) :
    readLink v = .ok l ↔ ∃ fields, v = .object fields ∧
      required ["sourceId", "source_id"] readInteger fields = .ok l.source ∧
      required ["targetId", "target_id"] readInteger fields = .ok l.target ∧
      optional ["outletIndex", "outlet_index"] readIndex 0 fields = .ok l.outlet ∧
      optional ["inletIndex", "inlet_index"] readIndex 0 fields = .ok l.inlet := by
  rw [readLink, readRecord_map_eq_ok_iff _ _ _ (fun l => (l.source, l.target, l.outlet, l.inlet))
    (fun _ => rfl) (fun _ => rfl)]
  simp only [pair_eq_ok_iff]

theorem readGraph_eq_ok_iff (v : Value) (g : Graph) :
    readGraph v = .ok g ↔ ∃ fields, v = .object fields ∧
      optional ["nodes"] (readList readNode) [] fields = .ok g.nodes ∧
      optional ["links"] (readList readLink) [] fields = .ok g.links := by
  rw [readGraph, readRecord_map_eq_ok_iff _ _ _ (fun g => (g.nodes, g.links))
    (fun _ => rfl) (fun _ => rfl)]
  simp only [pair_eq_ok_iff]

end Model

theorem Graph.read_eq_ok_iff (v : Value) (g : Graph) :
    read v = .ok g ↔ Model.readGraph v = .ok g :=
  Model.report_eq_ok_iff _ _ g

theorem Plugin.read_eq_ok_iff (v : Value) (p : Plugin) :
    read v = .ok p ↔ Model.readPlugin v = .ok p :=
  Model.report_eq_ok_iff _ _ p

/-- An entry whose other fields leave its own two alone, as every entry that is read. -/
def UiEntry.Proper (e : UiEntry) : Prop :=
  ∀ f ∈ e.extras.entries, f.1 ≠ "key" ∧ f.1 ≠ "title"

def Plugin.Proper (p : Plugin) : Prop := ∀ e ∈ p.ui, e.Proper

namespace Model

theorem readBinding_toValue (b : Binding) : readBinding b.toValue = .ok b := rfl

theorem readIndex_natCast (n : Nat) : readIndex (.int n) = .ok n := by
  have notNegative : ¬ (n : Int) < 0 := by omega
  rw [readIndex, readInteger]
  exact (if_neg notNegative).trans (congrArg Except.ok (Int.toNat_natCast n))

theorem readOptional_ofText? (t : Option String) :
    readOptional readText (.ofText? t) = .ok t := by
  cases t <;> rfl

theorem readOptional_ofEntries? (d : Option (OrderedMap String Value)) :
    readOptional readObject (.ofEntries? d) = .ok d := by
  cases d <;> rfl

theorem readUiEntry_toValue (e : UiEntry) (proper : e.Proper) : readUiEntry e.toValue = .ok e := by
  have others : e.extras.entries.filter (fun f => f.1 ≠ "key" && f.1 ≠ "title") =
      e.extras.entries := by
    rw [List.filter_eq_self]
    intro f member
    simpa using proper f member
  refine (readUiEntry_eq_ok_iff _ e).2 ⟨_, rfl, rfl, ?_, ?_⟩
  · exact congrArg (within _) (readOptional_ofText? e.title)
  · rw [List.filter_cons_of_neg (by simp), List.filter_cons_of_neg (by simp), others]

theorem readPlugin_toValue (p : Plugin) (proper : p.Proper) : readPlugin p.toValue = .ok p := by
  have bindings : ∀ bs : List Binding,
      readList readBinding (.list (bs.map Binding.toValue)) = .ok bs :=
    fun bs => readList_map readBinding _ bs fun b _ => readBinding_toValue b
  refine (readPlugin_eq_ok_iff _ p).2 ⟨_, rfl, rfl, rfl, ?_, ?_, rfl, ?_, ?_, ?_⟩
  · exact congrArg (within _) (readOptional_ofText? p.version)
  · exact congrArg (within _) (readList_map readText .str p.baseCommand fun _ _ => rfl)
  · exact congrArg (within _) (bindings p.inputs)
  · exact congrArg (within _) (bindings p.outputs)
  · exact congrArg (within _)
      (readList_map readUiEntry _ p.ui fun e member => readUiEntry_toValue e (proper e member))

theorem readNodeSettings_toValue (s : NodeSettings) : readNodeSettings s.toValue = .ok s := by
  refine (readNodeSettings_eq_ok_iff _ s).2 ⟨_, rfl, ?_, ?_⟩
  · exact congrArg (within _) (readOptional_ofEntries? s.inputs)
  · exact congrArg (within _) (readOptional_ofEntries? s.outputs)

theorem readNode_toValue (n : Node) : readNode n.toValue = .ok n := by
  have settings : readOptional readNodeSettings (NodeSettings.toValue? n.settings) =
      .ok n.settings := by
    cases n.settings with
    | none => rfl
    | some s => exact (map_eq_ok _ _ _).2 ⟨s, readNodeSettings_toValue s, rfl⟩
  exact (readNode_eq_ok_iff _ n).2 ⟨_, rfl, rfl, rfl, rfl, rfl, congrArg (within _) settings⟩

theorem readLink_toValue (l : Link) : readLink l.toValue = .ok l := by
  refine (readLink_eq_ok_iff _ l).2 ⟨_, rfl, rfl, rfl, ?_, ?_⟩
  · exact congrArg (within _) (readIndex_natCast l.outlet)
  · exact congrArg (within _) (readIndex_natCast l.inlet)

theorem readGraph_toValue (g : Graph) : readGraph g.toValue = .ok g := by
  refine (readGraph_eq_ok_iff _ g).2 ⟨_, rfl, ?_, ?_⟩
  · exact congrArg (within _) (readList_map readNode _ g.nodes fun n _ => readNode_toValue n)
  · exact congrArg (within _) (readList_map readLink _ g.links fun l _ => readLink_toValue l)

end Model

namespace Value

/-- The items of a list under a name, if there is one. -/
def itemsAt (name : String) (v : Value) : List Value :=
  match v.field? name with
  | some (.list items) => items
  | _ => []

/-- The entries of an object under a name, if there is one. -/
def entriesAt (name : String) (v : Value) : Option (OrderedMap String Value) :=
  match v.field? name with
  | some (.object fields) => some ⟨fields⟩
  | _ => none

/-- The fields of an object under other names than these. -/
def fieldsBut (names : List String) : Value → List (String × Value)
  | .object fields => fields.filter fun f => !names.contains f.1
  | _ => []

end Value

/-- The nodes hold the values that stand in the data, in the same order. -/
structure Graph.KeepsValues (g : Graph) (data : Value) : Prop where
  inputs : g.nodes.map (fun n => n.settings.bind NodeSettings.inputs) =
    (data.itemsAt "nodes").map fun v => (v.field? "settings").bind (Value.entriesAt "inputs")
  outputs : g.nodes.map (fun n => n.settings.bind NodeSettings.outputs) =
    (data.itemsAt "nodes").map fun v => (v.field? "settings").bind (Value.entriesAt "outputs")

/-- The entries of the user interface have the other fields that stand in the data, in the same
order. -/
def Plugin.KeepsExtras (p : Plugin) (data : Value) : Prop :=
  p.ui.map (fun e => e.extras.entries) =
    (data.itemsAt "ui").map (Value.fieldsBut ["key", "title"])

namespace Model

variable {α : Type}

theorem readOptional_eq_ok_iff (read : Value → Reading α) (v : Value) (o : Option α) :
    readOptional read v = .ok o ↔
      (v = .null ∧ none = o) ∨ (v ≠ .null ∧ ∃ a, read v = .ok a ∧ some a = o) := by
  cases v <;> simp [readOptional, map_eq_ok]

theorem valueOf_single (fields : List (String × Value)) (name : String) :
    valueOf fields [name] = (Value.object fields).field? name := by
  rw [valueOf, List.findSome?_cons, Value.field?]
  cases OrderedMap.lookup name fields <;> rfl

theorem forall₂_itemsAt (name : String) (read : Value → Reading α)
    (fields : List (String × Value)) (xs : List α)
    (found : optional [name] (readList read) [] fields = .ok xs) :
    List.Forall₂ (fun v x => read v = .ok x) ((Value.object fields).itemsAt name) xs := by
  rw [optional_eq_ok_iff, valueOf_single] at found
  rw [Value.itemsAt]
  rcases found with ⟨v, here, listed⟩ | ⟨absent, rfl⟩
  · obtain ⟨items, rfl, each⟩ := (readList_eq_ok_iff read v xs).1 listed
    rw [here]
    exact each
  · rw [absent]
    exact .nil

theorem entriesAt_of_optional (name : String) (fields : List (String × Value))
    (d : Option (OrderedMap String Value))
    (found : optional [name] (readOptional readObject) none fields = .ok d) :
    d = (Value.object fields).entriesAt name := by
  rw [optional_eq_ok_iff, valueOf_single] at found
  rw [Value.entriesAt]
  rcases found with ⟨v, here, read⟩ | ⟨absent, rfl⟩
  · rw [here]
    cases v with
    | null => exact (Except.ok.inj read).symm
    | object entries => exact (Except.ok.inj read).symm
    | _ => cases read
  · rw [absent]

theorem values_of_readNodeSettings (v : Value) (s : NodeSettings)
    (read : readNodeSettings v = .ok s) :
    s.inputs = v.entriesAt "inputs" ∧ s.outputs = v.entriesAt "outputs" := by
  obtain ⟨fields, rfl, inputs, outputs⟩ := (readNodeSettings_eq_ok_iff v s).1 read
  exact ⟨entriesAt_of_optional _ fields _ inputs, entriesAt_of_optional _ fields _ outputs⟩

theorem values_of_readNode (v : Value) (n : Node) (read : readNode v = .ok n) :
    n.settings.bind NodeSettings.inputs =
        (v.field? "settings").bind (Value.entriesAt "inputs") ∧
      n.settings.bind NodeSettings.outputs =
        (v.field? "settings").bind (Value.entriesAt "outputs") := by
  obtain ⟨fields, rfl, -, -, -, -, settings⟩ := (readNode_eq_ok_iff v n).1 read
  rw [optional_eq_ok_iff, valueOf_single] at settings
  rcases settings with ⟨w, here, given⟩ | ⟨absent, none⟩
  · rcases (readOptional_eq_ok_iff _ w _).1 given with ⟨rfl, none⟩ | ⟨-, s, made, same⟩
    · rw [here, ← none]
      exact ⟨rfl, rfl⟩
    · rw [here, ← same]
      exact values_of_readNodeSettings w s made
  · rw [absent, ← none]
    exact ⟨rfl, rfl⟩

theorem keepsValues_of_readGraph (v : Value) (g : Graph) (read : readGraph v = .ok g) :
    g.KeepsValues v := by
  obtain ⟨fields, rfl, nodes, -⟩ := (readGraph_eq_ok_iff v g).1 read
  have each := forall₂_itemsAt "nodes" readNode fields g.nodes nodes
  exact ⟨map_eq_of_forall₂ _ _ (fun v n made => (values_of_readNode v n made).1) each,
    map_eq_of_forall₂ _ _ (fun v n made => (values_of_readNode v n made).2) each⟩

theorem extras_of_readUiEntry (v : Value) (e : UiEntry) (read : readUiEntry v = .ok e) :
    e.extras.entries = v.fieldsBut ["key", "title"] := by
  obtain ⟨fields, rfl, -, -, others⟩ := (readUiEntry_eq_ok_iff v e).1 read
  rw [← others, Value.fieldsBut]
  apply List.filter_congr
  intro f _
  simp

theorem proper_of_readUiEntry (v : Value) (e : UiEntry) (read : readUiEntry v = .ok e) :
    e.Proper := by
  obtain ⟨fields, rfl, -, -, others⟩ := (readUiEntry_eq_ok_iff v e).1 read
  intro f member
  rw [← others] at member
  simpa using (List.mem_filter.1 member).2

theorem exists_of_mem_forall₂ {β : Type} {R : α → β → Prop} {as : List α} {bs : List β}
    (related : List.Forall₂ R as bs) (b : β) (member : b ∈ bs) : ∃ a ∈ as, R a b := by
  induction related with
  | nil => cases member
  | cons here _ ih =>
    rcases List.mem_cons.1 member with rfl | later
    · exact ⟨_, List.mem_cons_self, here⟩
    · obtain ⟨a, among, there⟩ := ih later
      exact ⟨a, List.mem_cons_of_mem _ among, there⟩

theorem ui_of_readPlugin (v : Value) (p : Plugin) (read : readPlugin v = .ok p) :
    List.Forall₂ (fun w e => readUiEntry w = .ok e) (v.itemsAt "ui") p.ui := by
  obtain ⟨fields, rfl, -, -, -, -, -, -, -, ui⟩ := (readPlugin_eq_ok_iff v p).1 read
  exact forall₂_itemsAt "ui" readUiEntry fields p.ui ui

theorem proper_of_readPlugin (v : Value) (p : Plugin) (read : readPlugin v = .ok p) :
    p.Proper := by
  intro e member
  obtain ⟨w, -, made⟩ := exists_of_mem_forall₂ (ui_of_readPlugin v p read) e member
  exact proper_of_readUiEntry w e made

theorem keepsExtras_of_readPlugin (v : Value) (p : Plugin) (read : readPlugin v = .ok p) :
    p.KeepsExtras v :=
  map_eq_of_forall₂ _ _ extras_of_readUiEntry (ui_of_readPlugin v p read)

end Model

end PipelineCompiler
