import Mathlib.Logic.Relation
import PipelineCompiler.Proofs.Records

set_option autoImplicit false

namespace PipelineCompiler

/-- A field's name in the editor and its plain name. -/
structure Spelling where
  editor : String
  plain : String
  apart : editor ≠ plain := by decide

def Spelling.names (s : Spelling) : Model.Names := [s.editor, s.plain]

def Node.spellings : List Spelling := [{ editor := "pluginId", plain := "plugin_id" }]

def Link.spellings : List Spelling :=
  [{ editor := "sourceId", plain := "source_id" }, { editor := "targetId", plain := "target_id" },
    { editor := "outletIndex", plain := "outlet_index" },
    { editor := "inletIndex", plain := "inlet_index" }]

def Plugin.spellings : List Spelling := [{ editor := "baseCommand", plain := "base_command" }]

/-- The fields of a name get another name, where they stand. -/
def renamed (old new : String) (fields : List (String × Value)) : List (String × Value) :=
  fields.map fun f => if f.1 = old then (new, f.2) else f

/-- A field of an object is spelt in its other way, which the object does not use. -/
inductive Respells (spellings : List Spelling) : Value → Value → Prop where
  | toPlain (s : Spelling) (known : s ∈ spellings) (fields : List (String × Value))
    (unused : s.plain ∉ fields.map Prod.fst) :
    Respells spellings (.object fields) (.object (renamed s.editor s.plain fields))
  | toEditor (s : Spelling) (known : s ∈ spellings) (fields : List (String × Value))
    (unused : s.editor ∉ fields.map Prod.fst) :
    Respells spellings (.object fields) (.object (renamed s.plain s.editor fields))

/-- A node or a link of a pipeline is respelt, wherever it stands. -/
inductive Graph.Respells : Value → Value → Prop where
  | node (before after : List (String × Value)) (first rest : List Value) (v w : Value)
    (respelt : PipelineCompiler.Respells Node.spellings v w) :
    Respells (.object (before ++ ("nodes", .list (first ++ v :: rest)) :: after))
      (.object (before ++ ("nodes", .list (first ++ w :: rest)) :: after))
  | link (before after : List (String × Value)) (first rest : List Value) (v w : Value)
    (respelt : PipelineCompiler.Respells Link.spellings v w) :
    Respells (.object (before ++ ("links", .list (first ++ v :: rest)) :: after))
      (.object (before ++ ("links", .list (first ++ w :: rest)) :: after))

/-- Nodes and links are respelt one after the other. -/
def Graph.Respelt : Value → Value → Prop := Relation.ReflTransGen Graph.Respells

def Plugin.Respelt : Value → Value → Prop := Relation.ReflTransGen (Respells Plugin.spellings)

section Renaming

variable {old new : String} {fields : List (String × Value)}

theorem lookup_renamed_of_ne (k : String) (notOld : k ≠ old) (notNew : k ≠ new) :
    OrderedMap.lookup k (renamed old new fields) = OrderedMap.lookup k fields := by
  induction fields with
  | nil => rfl
  | cons f rest ih =>
    rw [renamed] at ih ⊢
    rw [List.map_cons, OrderedMap.lookup, OrderedMap.lookup, ih]
    by_cases here : f.1 = old
    · simp [here, notOld.symm, notNew.symm]
    · simp [here]

theorem lookup_renamed_new (unused : new ∉ fields.map Prod.fst) :
    OrderedMap.lookup new (renamed old new fields) = OrderedMap.lookup old fields := by
  induction fields with
  | nil => rfl
  | cons f rest ih =>
    rw [List.map_cons, List.mem_cons, not_or] at unused
    have later := ih unused.2
    rw [renamed] at later ⊢
    rw [List.map_cons, OrderedMap.lookup, OrderedMap.lookup, later]
    by_cases here : f.1 = old
    · simp [here]
    · simp [here, Ne.symm unused.1]

theorem lookup_renamed_old (apart : old ≠ new) :
    OrderedMap.lookup old (renamed old new fields) = none := by
  apply OrderedMap.lookup_eq_none
  rw [renamed, List.map_map, List.mem_map]
  rintro ⟨f, -, same⟩
  by_cases here : f.1 = old
  · exact apart (by simpa [here] using same.symm)
  · exact here ((congrArg Prod.fst (if_neg here)).symm.trans same)

end Renaming

namespace Model

/-- The names of a field are the two of one spelling, or have nothing to do with any. -/
def Respects (spellings : List Spelling) (names : Names) : Prop :=
  ∀ s ∈ spellings, names = s.names ∨ s.editor ∉ names ∧ s.plain ∉ names

instance (spellings : List Spelling) (names : Names) : Decidable (Respects spellings names) :=
  inferInstanceAs (Decidable (∀ s ∈ spellings, _))

theorem valueOf_names (fields : List (String × Value)) (s : Spelling) :
    valueOf fields s.names =
      (OrderedMap.lookup s.editor fields).or (OrderedMap.lookup s.plain fields) := by
  rw [valueOf, Spelling.names, List.findSome?_cons, List.findSome?_cons]
  cases OrderedMap.lookup s.editor fields <;> cases OrderedMap.lookup s.plain fields <;> rfl

theorem valueOf_renamed_of_not_mem (old new : String) (fields : List (String × Value))
    (names : Names) (notOld : old ∉ names) (notNew : new ∉ names) :
    valueOf (renamed old new fields) names = valueOf fields names := by
  induction names with
  | nil => rfl
  | cons k rest ih =>
    obtain ⟨notOld, othersNotOld⟩ := not_or.1 (mt List.mem_cons.2 notOld)
    obtain ⟨notNew, othersNotNew⟩ := not_or.1 (mt List.mem_cons.2 notNew)
    have later := ih othersNotOld othersNotNew
    rw [valueOf] at later ⊢
    rw [List.findSome?_cons, lookup_renamed_of_ne k (Ne.symm notOld) (Ne.symm notNew), later]
    rfl

end Model

/-- Respelling leaves the value of every field that a record has. -/
theorem Respells.exists_fields {spellings : List Spelling} {v w : Value}
    (respelt : Respells spellings v w) :
    ∃ fields fields', v = .object fields ∧ w = .object fields' ∧
      ∀ names, Model.Respects spellings names →
        Model.valueOf fields' names = Model.valueOf fields names := by
  cases respelt with
  | toPlain s known fields unused =>
    refine ⟨fields, _, rfl, rfl, ?_⟩
    intro names respects
    rcases respects s known with rfl | ⟨notEditor, notPlain⟩
    · rw [Model.valueOf_names, Model.valueOf_names, lookup_renamed_old s.apart,
        lookup_renamed_new unused, OrderedMap.lookup_eq_none _ _ unused, Option.none_or,
        Option.or_none]
    · exact Model.valueOf_renamed_of_not_mem _ _ fields names notEditor notPlain
  | toEditor s known fields unused =>
    refine ⟨fields, _, rfl, rfl, ?_⟩
    intro names respects
    rcases respects s known with rfl | ⟨notEditor, notPlain⟩
    · rw [Model.valueOf_names, Model.valueOf_names, lookup_renamed_old s.apart.symm,
        lookup_renamed_new unused, OrderedMap.lookup_eq_none _ _ unused, Option.none_or,
        Option.or_none]
    · exact Model.valueOf_renamed_of_not_mem _ _ fields names notPlain notEditor

namespace Model

theorem readNode_respells {v w : Value} (respelt : Respells Node.spellings v w) (n : Node) :
    readNode v = .ok n ↔ readNode w = .ok n := by
  obtain ⟨fields, fields', rfl, rfl, same⟩ := respelt.exists_fields
  simp only [readNode_eq_ok_iff, Value.object.injEq, exists_eq_left', required_eq_ok_iff,
    optional_eq_ok_iff]
  rw [same ["id"] (by decide), same ["pluginId", "plugin_id"] (by decide),
    same ["name"] (by decide), same ["internal"] (by decide), same ["settings"] (by decide)]

theorem readLink_respells {v w : Value} (respelt : Respells Link.spellings v w) (l : Link) :
    readLink v = .ok l ↔ readLink w = .ok l := by
  obtain ⟨fields, fields', rfl, rfl, same⟩ := respelt.exists_fields
  simp only [readLink_eq_ok_iff, Value.object.injEq, exists_eq_left', required_eq_ok_iff,
    optional_eq_ok_iff]
  rw [same ["sourceId", "source_id"] (by decide), same ["targetId", "target_id"] (by decide),
    same ["outletIndex", "outlet_index"] (by decide),
    same ["inletIndex", "inlet_index"] (by decide)]

theorem readPlugin_respells {v w : Value} (respelt : Respells Plugin.spellings v w) (p : Plugin) :
    readPlugin v = .ok p ↔ readPlugin w = .ok p := by
  obtain ⟨fields, fields', rfl, rfl, same⟩ := respelt.exists_fields
  simp only [readPlugin_eq_ok_iff, Value.object.injEq, exists_eq_left', required_eq_ok_iff,
    optional_eq_ok_iff]
  rw [same ["pid"] (by decide), same ["name"] (by decide), same ["version"] (by decide),
    same ["baseCommand", "base_command"] (by decide), same ["container"] (by decide),
    same ["inputs"] (by decide), same ["outputs"] (by decide), same ["ui"] (by decide)]

theorem readList_congr {α : Type} (read : Value → Reading α) {items items' : List Value}
    (alike : List.Forall₂ (fun v w => ∀ a, read v = .ok a ↔ read w = .ok a) items items')
    (xs : List α) :
    readList read (.list items) = .ok xs ↔ readList read (.list items') = .ok xs := by
  simp only [readList_eq_ok_iff, Value.list.injEq, exists_eq_left']
  induction alike generalizing xs with
  | nil => rfl
  | cons here _ ih => simp only [List.forall₂_cons_left_iff, here, ih]

theorem readList_item {α : Type} (read : Value → Reading α) (first rest : List Value) {v w : Value}
    (alike : ∀ a, read v = .ok a ↔ read w = .ok a) (xs : List α) :
    readList read (.list (first ++ v :: rest)) = .ok xs ↔
      readList read (.list (first ++ w :: rest)) = .ok xs := by
  have others : ∀ items : List Value,
      List.Forall₂ (fun v w => ∀ a, read v = .ok a ↔ read w = .ok a) items items :=
    fun items => List.forall₂_same.2 fun _ _ _ => Iff.rfl
  exact readList_congr read (List.rel_append (others first) (.cons alike (others rest))) xs

/-- A field is read alike from two objects that differ in a value that is read alike, or in one of
another name. -/
theorem optional_middle {α : Type} (k name : String) (read : Value → Reading α) (default : α)
    (before after : List (String × Value)) (x y : Value)
    (alike : name = k → ∀ a, read x = .ok a ↔ read y = .ok a) (a : α) :
    optional [k] read default (before ++ (name, x) :: after) = .ok a ↔
      optional [k] read default (before ++ (name, y) :: after) = .ok a := by
  simp only [optional_eq_ok_iff, valueOf_single, Value.field?, OrderedMap.lookup_append,
    OrderedMap.lookup]
  cases OrderedMap.lookup k before with
  | some v => rfl
  | none =>
    by_cases here : name = k
    · simp [here, alike here]
    · simp [here]

theorem readGraph_respells {d d' : Value} (respelt : Graph.Respells d d') (g : Graph) :
    readGraph d = .ok g ↔ readGraph d' = .ok g := by
  simp only [readGraph_eq_ok_iff]
  cases respelt with
  | node before after first rest v w respelt =>
    have nodes := readList_item readNode first rest (readNode_respells respelt)
    simp only [Value.object.injEq, exists_eq_left']
    rw [optional_middle "nodes" "nodes" _ _ before after _ _ (fun _ => nodes),
      optional_middle "links" "nodes" _ _ before after _ (.list (first ++ w :: rest)) (by simp)]
  | link before after first rest v w respelt =>
    have links := readList_item readLink first rest (readLink_respells respelt)
    simp only [Value.object.injEq, exists_eq_left']
    rw [optional_middle "links" "links" _ _ before after _ _ (fun _ => links),
      optional_middle "nodes" "links" _ _ before after _ (.list (first ++ w :: rest)) (by simp)]

theorem read_of_steps {α : Type} {Step : Value → Value → Prop} {read : Value → Reading α}
    (step : ∀ v w, Step v w → ∀ a, read v = .ok a ↔ read w = .ok a) {v w : Value}
    (steps : Relation.ReflTransGen Step v w) (a : α) : read v = .ok a ↔ read w = .ok a := by
  induction steps with
  | refl => rfl
  | tail _ last ih => exact ih.trans (step _ _ last a)

end Model

/-- What is written back of a pipeline or a plugin that was read is read as the same record, with
the values of nodes and the extra fields of entries that stood in the data; and data that differ in
the spelling of fields are read as the same records. -/
theorem records_stable_and_spelt_freely :
    (∀ d g, Graph.read d = .ok g → Graph.read g.toValue = .ok g ∧ g.KeepsValues d) ∧
      (∀ d p, Plugin.read d = .ok p → Plugin.read p.toValue = .ok p ∧ p.KeepsExtras d) ∧
      (∀ d d', Graph.Respelt d d' → ∀ g, Graph.read d = .ok g ↔ Graph.read d' = .ok g) ∧
      ∀ d d', Plugin.Respelt d d' → ∀ p, Plugin.read d = .ok p ↔ Plugin.read d' = .ok p := by
  simp only [Graph.read_eq_ok_iff, Plugin.read_eq_ok_iff]
  refine ⟨?_, ?_, ?_, ?_⟩
  · intro d g read
    exact ⟨Model.readGraph_toValue g, Model.keepsValues_of_readGraph d g read⟩
  · intro d p read
    exact ⟨Model.readPlugin_toValue p (Model.proper_of_readPlugin d p read),
      Model.keepsExtras_of_readPlugin d p read⟩
  · intro d d' respelt
    exact Model.read_of_steps (fun _ _ step => Model.readGraph_respells step) respelt
  · intro d d' respelt
    exact Model.read_of_steps (fun _ _ step => Model.readPlugin_respells step) respelt

/-- A node with an identifier in text, a truth in words and a field that is not its own. -/
def laxNodeData (pluginId : String) : Value :=
  .object
    [("id", .str "1_0"), (pluginId, .str "blur"), ("name", .str "Blur"), ("internal", .str "on"),
      ("colour", .str "red"),
      ("settings", .object [("inputs", .object [("z", .int 2), ("a", .null)])])]

def laxData (pluginId : String) : Value :=
  .object [("nodes", .list [laxNodeData pluginId]), ("links", .list [])]

def laxGraph : Graph where
  nodes := [⟨10, "blur", "Blur", true, some ⟨some ⟨[("z", .int 2), ("a", .null)]⟩, none⟩⟩]
  links := []

/-- A plugin with more in its user interface than a key. -/
def blurData (baseCommand : String) : Value :=
  .object
    [("pid", .str "blur"), (baseCommand, .list [.str "run"]),
      ("ui", .list [.object [("width", .int 3), ("key", .str "inputs.z"), ("help", .null)]])]

def blurPlugin : Plugin where
  id := "blur"
  name := ""
  version := none
  baseCommand := ["run"]
  container := ""
  inputs := []
  outputs := []
  ui := [⟨"inputs.z", none, ⟨[("width", .int 3), ("help", .null)]⟩⟩]

theorem records_stable_and_spelt_freely_lax :
    (Graph.read laxGraph.toValue = .ok laxGraph ∧ laxGraph.KeepsValues (laxData "pluginId")) ∧
      (Plugin.read blurPlugin.toValue = .ok blurPlugin ∧
        blurPlugin.KeepsExtras (blurData "baseCommand")) ∧
      Graph.read (laxData "plugin_id") = .ok laxGraph ∧
      Plugin.read (blurData "base_command") = .ok blurPlugin := by
  have graphRead : Graph.read (laxData "pluginId") = .ok laxGraph := by decide +kernel
  have pluginRead : Plugin.read (blurData "baseCommand") = .ok blurPlugin := by decide
  have node : Respells Node.spellings (laxNodeData "pluginId") (laxNodeData "plugin_id") :=
    .toPlain _ (List.mem_singleton.2 rfl) _ (by decide)
  have graphRespelt : Graph.Respelt (laxData "pluginId") (laxData "plugin_id") :=
    .single (.node [] [("links", .list [])] [] [] _ _ node)
  have pluginRespelt : Plugin.Respelt (blurData "baseCommand") (blurData "base_command") :=
    .single (.toPlain _ (List.mem_singleton.2 rfl) _ (by decide))
  obtain ⟨stable, pluginStable, graphs, plugins⟩ := records_stable_and_spelt_freely
  exact ⟨stable _ _ graphRead, pluginStable _ _ pluginRead,
    (graphs _ _ graphRespelt _).1 graphRead, (plugins _ _ pluginRespelt _).1 pluginRead⟩

end PipelineCompiler
