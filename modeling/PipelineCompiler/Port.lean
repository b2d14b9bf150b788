import PipelineCompiler.Model.Graph
import PipelineCompiler.Text.Lowercase

set_option autoImplicit false

namespace PipelineCompiler

/-- Types with which a workflow declares its parameters. -/
inductive CwlType where
  | string
  | int
  | boolean
  | file
  | fileArray
  | directory
  deriving Repr, DecidableEq

namespace CwlType

def all : List CwlType := [.string, .int, .boolean, .file, .fileArray, .directory]

def text : CwlType → String
  | .string => "string"
  | .int => "int"
  | .boolean => "boolean"
  | .file => "File"
  | .fileArray => "File[]"
  | .directory => "Directory"

def optionalText (t : CwlType) : String := t.text ++ "?"

def ofText? (s : String) : Option CwlType := all.find? fun t => t.text = s

end CwlType

namespace Binding

def directoryTypes : List String := ["directory", "file", "path", "collection", "csvCollection"]

/-- Whether a port carries a location: by its declared type, or by its name in lower case. -/
def isDirectory (b : Binding) : Bool :=
  let name := Text.lowerFrom [] b.name.toList
  directoryTypes.contains b.type || name = "inpdir".toList || "path".toList.isSuffixOf name
    || "dir".toList.isSuffixOf name

/-- Types that are no location; what is unknown is a text. -/
def primitiveType (type : String) : CwlType :=
  if type = "number" then .int
  else if type = "boolean" then .boolean
  else if type = "file" then .file
  else if type = "file[]" then .fileArray
  else .string

def inputType (b : Binding) : CwlType :=
  if b.isDirectory then .directory else primitiveType b.type

/-- Outputs are passed as a location or as a name. -/
def outputType (b : Binding) : CwlType := if b.isDirectory then .directory else .string

end Binding

inductive Direction where
  | inputs
  | outputs
  deriving Repr, DecidableEq

def Direction.name : Direction → String
  | .inputs => "inputs"
  | .outputs => "outputs"

def Direction.key (d : Direction) (port : String) : String := d.name ++ "." ++ port

def dropStart? : List Char → List Char → Option (List Char)
  | [], s => some s
  | _ :: _, [] => none
  | c :: start, d :: s => if c = d then dropStart? start s else none

/-- The port that an entry names, if it names one of this direction. -/
def UiEntry.port? (d : Direction) (entry : UiEntry) : Option String :=
  (dropStart? (d.key "").toList entry.key.toList).map String.ofList

def Binding.lastNamed? (name : String) : List Binding → Option Binding
  | [] => none
  | b :: rest =>
    match lastNamed? name rest with
    | some c => some c
    | none => if b.name = name then some b else none

/-- Bindings named by the entries, each name once, and then the bindings named by none. -/
def orderBindings (named : List String) (bindings : List Binding) : List Binding :=
  named.eraseDups.filterMap (fun name => Binding.lastNamed? name bindings)
    ++ bindings.filter fun b => !named.contains b.name

def Plugin.editorOrder (p : Plugin) : PortOrder :=
  { inputs := orderBindings (p.ui.filterMap (UiEntry.port? .inputs)) p.inputs
    outputs := orderBindings (p.ui.filterMap (UiEntry.port? .outputs)) p.outputs
    ui := p.ui }

end PipelineCompiler
