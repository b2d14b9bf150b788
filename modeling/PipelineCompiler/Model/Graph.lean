import PipelineCompiler.Model.Reading

set_option autoImplicit false

namespace PipelineCompiler

/-- A named, typed port of a plugin. -/
structure Binding where
  name : String
  type : String
  required : Bool
  deriving Repr, DecidableEq

/-- An element of a plugin's user interface; only its key has a meaning here. -/
structure UiEntry where
  key : String
  title : Option String
  extras : OrderedMap String Value
  deriving Repr, DecidableEq

structure Plugin where
  id : String
  name : String
  version : Option String
  baseCommand : List String
  container : String
  inputs : List Binding
  outputs : List Binding
  ui : List UiEntry
  deriving Repr, DecidableEq

/-- Values that a node holds, by port name. -/
structure NodeSettings where
  inputs : Option (OrderedMap String Value)
  outputs : Option (OrderedMap String Value)
  deriving Repr, DecidableEq

/-- A node of a pipeline. An internal node only holds values and never becomes a step. -/
structure Node where
  id : Int
  pluginId : String
  name : String
  internal : Bool
  settings : Option NodeSettings
  deriving Repr, DecidableEq

/-- A connection from an outlet of one node to an inlet of another; the indices count positions in
the order in which the editor shows the ports. -/
structure Link where
  source : Int
  target : Int
  outlet : Nat
  inlet : Nat
  deriving Repr, DecidableEq

structure Graph where
  nodes : List Node
  links : List Link
  deriving Repr, DecidableEq

/-- A plugin's ports in the order in which the editor shows them. -/
structure PortOrder where
  inputs : List Binding
  outputs : List Binding
  ui : List UiEntry
  deriving Repr, DecidableEq

/-- Whether an entry of the user interface has the key. -/
def PortOrder.exposes (order : PortOrder) (key : String) : Bool :=
  order.ui.any fun entry => entry.key = key

namespace Model

def readBinding : Value → Reading Binding :=
  readRecord "Binding" fun o =>
    (pair (required ["name"] readText o) (pair (optional ["type"] readText "string" o)
      (optional ["required"] readTruth false o))).map fun (name, type, isRequired) =>
        ⟨name, type, isRequired⟩

def readUiEntry : Value → Reading UiEntry :=
  readRecord "UiEntry" fun o =>
    (pair (required ["key"] readText o)
      (optional ["title"] (readOptional readText) none o)).map fun (key, title) =>
        ⟨key, title, ⟨o.filter fun e => e.1 ≠ "key" && e.1 ≠ "title"⟩⟩

def readPlugin : Value → Reading Plugin :=
  readRecord "Plugin" fun o =>
    (pair (required ["pid"] readText o)
      (pair (optional ["name"] readText "" o)
        (pair (optional ["version"] (readOptional readText) none o)
          (pair (optional ["baseCommand", "base_command"] (readList readText) [] o)
            (pair (optional ["container"] readText "" o)
              (pair (optional ["inputs"] (readList readBinding) [] o)
                (pair (optional ["outputs"] (readList readBinding) [] o)
                  (optional ["ui"] (readList readUiEntry) [] o)))))))).map
      fun (id, name, version, baseCommand, container, inputs, outputs, ui) =>
        ⟨id, name, version, baseCommand, container, inputs, outputs, ui⟩

def readNodeSettings : Value → Reading NodeSettings :=
  readRecord "NodeSettings" fun o =>
    (pair (optional ["inputs"] (readOptional readObject) none o)
      (optional ["outputs"] (readOptional readObject) none o)).map fun (inputs, outputs) =>
        ⟨inputs, outputs⟩

def readNode : Value → Reading Node :=
  readRecord "Node" fun o =>
    (pair (required ["id"] readInteger o)
      (pair (required ["pluginId", "plugin_id"] readText o)
        (pair (required ["name"] readText o)
          (pair (optional ["internal"] readTruth false o)
            (optional ["settings"] (readOptional readNodeSettings) none o))))).map
      fun (id, pluginId, name, internal, settings) => ⟨id, pluginId, name, internal, settings⟩

def readLink : Value → Reading Link :=
  readRecord "Link" fun o =>
    (pair (required ["sourceId", "source_id"] readInteger o)
      (pair (required ["targetId", "target_id"] readInteger o)
        (pair (optional ["outletIndex", "outlet_index"] readIndex 0 o)
          (optional ["inletIndex", "inlet_index"] readIndex 0 o)))).map
      fun (source, target, outlet, inlet) => ⟨source, target, outlet, inlet⟩

def readGraph : Value → Reading Graph :=
  readRecord "Graph" fun o =>
    (pair (optional ["nodes"] (readList readNode) [] o)
      (optional ["links"] (readList readLink) [] o)).map fun (nodes, links) => ⟨nodes, links⟩

def readPortOrder : Value → Reading PortOrder :=
  readRecord "NodeUiConfig" fun o =>
    (pair (optional ["inputs"] (readList readBinding) [] o)
      (pair (optional ["outputs"] (readList readBinding) [] o)
        (optional ["ui"] (readList readUiEntry) [] o))).map fun (inputs, outputs, ui) =>
          ⟨inputs, outputs, ui⟩

end Model

def Binding.read (v : Value) : Except Model.Report Binding :=
  Model.report "Binding" (Model.readBinding v)

def UiEntry.read (v : Value) : Except Model.Report UiEntry :=
  Model.report "UiEntry" (Model.readUiEntry v)

def Plugin.read (v : Value) : Except Model.Report Plugin :=
  Model.report "Plugin" (Model.readPlugin v)

def NodeSettings.read (v : Value) : Except Model.Report NodeSettings :=
  Model.report "NodeSettings" (Model.readNodeSettings v)

def Node.read (v : Value) : Except Model.Report Node := Model.report "Node" (Model.readNode v)

def Link.read (v : Value) : Except Model.Report Link := Model.report "Link" (Model.readLink v)

def Graph.read (v : Value) : Except Model.Report Graph := Model.report "Graph" (Model.readGraph v)

def PortOrder.read (v : Value) : Except Model.Report PortOrder :=
  Model.report "NodeUiConfig" (Model.readPortOrder v)

/-- A text, or nothing. -/
def Value.ofText? : Option String → Value
  | some s => .str s
  | none => .null

def Binding.toValue (b : Binding) : Value :=
  .object [("name", .str b.name), ("type", .str b.type), ("required", .bool b.required)]

def UiEntry.toValue (e : UiEntry) : Value :=
  .object (("key", .str e.key) :: ("title", .ofText? e.title) :: e.extras.entries)

def Plugin.toValue (p : Plugin) : Value :=
  .object
    [("pid", .str p.id), ("name", .str p.name), ("version", .ofText? p.version),
      ("base_command", .strings p.baseCommand), ("container", .str p.container),
      ("inputs", .list (p.inputs.map Binding.toValue)),
      ("outputs", .list (p.outputs.map Binding.toValue)), ("ui", .list (p.ui.map UiEntry.toValue))]

/-- The values of one direction, or nothing. -/
def Value.ofEntries? : Option (OrderedMap String Value) → Value
  | some d => .object d.entries
  | none => .null

def NodeSettings.toValue (s : NodeSettings) : Value :=
  .object [("inputs", .ofEntries? s.inputs), ("outputs", .ofEntries? s.outputs)]

def NodeSettings.toValue? : Option NodeSettings → Value
  | some s => s.toValue
  | none => .null

def Node.toValue (n : Node) : Value :=
  .object
    [("id", .int n.id), ("plugin_id", .str n.pluginId), ("name", .str n.name),
      ("internal", .bool n.internal), ("settings", NodeSettings.toValue? n.settings)]

def Link.toValue (l : Link) : Value :=
  .object
    [("source_id", .int l.source), ("target_id", .int l.target), ("outlet_index", .int l.outlet),
      ("inlet_index", .int l.inlet)]

def Graph.toValue (g : Graph) : Value :=
  .object [("nodes", .list (g.nodes.map Node.toValue)), ("links", .list (g.links.map Link.toValue))]

def PortOrder.toValue (o : PortOrder) : Value :=
  .object
    [("inputs", .list (o.inputs.map Binding.toValue)),
      ("outputs", .list (o.outputs.map Binding.toValue)), ("ui", .list (o.ui.map UiEntry.toValue))]

end PipelineCompiler
