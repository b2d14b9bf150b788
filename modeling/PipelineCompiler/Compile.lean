import PipelineCompiler.File.Path
import PipelineCompiler.Json.Encode
import PipelineCompiler.Schema.Validation
import PipelineCompiler.Workflow.Synthesis

set_option autoImplicit false

namespace PipelineCompiler

inductive PipelineError where
  | compile (e : CompileError)
  | invalid (v : Violation)
  deriving Repr, DecidableEq

/-- What is asked for explicitly; the rest is taken from the settings. -/
structure Overrides where
  strict : Option Bool
  validate : Option Bool
  deriving Repr, DecidableEq

def Overrides.isStrict (o : Overrides) (s : Settings) : Bool := o.strict.getD s.compiler.strict

def Overrides.validates (o : Overrides) (s : Settings) : Bool :=
  o.validate.getD s.compiler.validateOutput

/-- The workflow whose document is the result. -/
def compile (s : Settings) (o : Overrides) (plugins : List Plugin) (g : Graph) :
    Except PipelineError Workflow :=
  match toWorkflow (Catalog.ofPlugins plugins) s.document (o.isStrict s) g with
  | .error e => .error (.compile e)
  | .ok w =>
    if o.validates s then
      match Document.violation? w.document with
      | some v => .error (.invalid v)
      | none => .ok w
    else .ok w

def compileLog (s : Settings) (o : Overrides) (plugins : List Plugin) (g : Graph) : List LogLine :=
  workflowLog (Catalog.ofPlugins plugins) s.document (o.isStrict s) g

inductive Format where
  | json
  | yaml
  deriving Repr, DecidableEq

namespace Format

def name : Format → String
  | .json => "json"
  | .yaml => "yaml"

def ofName? (name : String) : Option Format :=
  if name = "json" then some .json else if name = "yaml" then some .yaml else none

def ofPath? (path : Path) : Option Format :=
  if [".yml", ".yaml", ".cwl"].contains path.suffix then some .yaml
  else if path.suffix = ".json" then some .json
  else none

end Format

/-- A document with its shared parts for YAML, and the same without for JSON. -/
def render (format : Format) (v : Value) (node : Yaml.Node) : String :=
  match format with
  | .json => Json.encodeIndented v ++ "\n"
  | .yaml => node.render

def renderValue (format : Format) (v : Value) : String := render format v (Yaml.Node.ofValue v)

end PipelineCompiler
