import PipelineCompiler.Naming
import PipelineCompiler.Ordering
import PipelineCompiler.Port

set_option autoImplicit false

namespace PipelineCompiler

inductive LinkEnd where
  | outlet
  | inlet
  deriving Repr, DecidableEq

inductive CompileError where
  | order (e : OrderError)
  | incomplete (missing : List Int)
  | pluginNotFound (plugin : String) (node : Int)
  | naming (e : NamingError)
  /-- An index beyond the ports that a plugin shows. -/
  | invalidLink (place : LinkEnd) (link : Link) (plugin : String) (count : Nat)
  /-- A text on a node or a link would hold a number that has no numeral. -/
  | noNumeral
  deriving Repr, DecidableEq

def OrderError.message : OrderError → String
  | .noEntryPoint => "No start node found"
  | .endless => "The execution sequence has no end"
  | .noNumeral => digitLimitText ""

def CompileError.message : CompileError → String
  | .order e => e.message
  | .incomplete missing => leftOutText (", ".intercalate (missing.map toString))
  | .pluginNotFound plugin node => s!"Plugin {plugin} not found (referenced by node {node})"
  | .naming e => e.message
  | .invalidLink .outlet link plugin count =>
    s!"Link {link.source} -> {link.target} uses outlet {link.outlet}, but plugin '{plugin}' " ++
      s!"has {count} output(s)"
  | .invalidLink .inlet link plugin count =>
    s!"Link {link.source} -> {link.target} uses inlet {link.inlet}, but plugin '{plugin}' " ++
      s!"has {count} input(s)"
  | .noNumeral => digitLimitText ""

/-- Failures with an error of their own: all but a queue that never empties, a number beyond every
floating number and a number without a numeral. -/
def CompileError.isAnnounced : CompileError → Bool
  | .order .endless | .order .noNumeral | .naming .idTooLarge | .noNumeral => false
  | _ => true

/-- An error whose text holds the numbers. -/
def CompileError.showing (numbers : List Int) (e : CompileError) : CompileError :=
  if numbers.all hasNumeral then e else .noNumeral

/-- The plugins, of those with one id the last, and the two choices that compilation leaves open:
how names are sanitised and in which order ports are shown. -/
structure Catalog where
  plugins : List Plugin
  sanitize : Sanitizer
  order : Plugin → PortOrder

namespace Catalog

def ofPlugins (plugins : List Plugin) : Catalog := ⟨plugins, slug, Plugin.editorOrder⟩

def lastPlugin? (id : String) : List Plugin → Option Plugin
  | [] => none
  | p :: rest =>
    match lastPlugin? id rest with
    | some q => some q
    | none => if p.id = id then some p else none

def pluginOf (c : Catalog) (node : Node) : Except CompileError Plugin :=
  match lastPlugin? node.pluginId c.plugins with
  | some p => .ok p
  | none => .error (.showing [node.id] (.pluginNotFound node.pluginId node.id))

def portsOf (c : Catalog) (node : Node) : Except CompileError PortOrder :=
  (c.pluginOf node).map c.order

/-- The id of the step of a node with any name and id. -/
def stepIdOf (c : Catalog) (name : String) (id : Value) : Except CompileError String :=
  (stepId c.sanitize (c.sanitize name) id).mapError .naming

def stepId (c : Catalog) (node : Node) : Except CompileError String :=
  c.stepIdOf node.name (.int node.id)

def linkPorts (c : Catalog) (link : Link) (source target : Node) :
    Except CompileError (String × String) := do
  let outputs := (← c.portsOf source).outputs
  let inputs := (← c.portsOf target).inputs
  match outputs[link.outlet]? with
  | none => .error (.showing [link.source, link.target, link.outlet]
    (.invalidLink .outlet link source.pluginId outputs.length))
  | some outlet =>
    match inputs[link.inlet]? with
    | none => .error (.showing [link.source, link.target, link.inlet]
      (.invalidLink .inlet link target.pluginId inputs.length))
    | some inlet => .ok (outlet.name, inlet.name)

end Catalog

end PipelineCompiler
