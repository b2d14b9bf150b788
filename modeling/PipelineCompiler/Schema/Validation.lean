import PipelineCompiler.Json.Decode
import PipelineCompiler.Schema.Workflow

set_option autoImplicit false

namespace PipelineCompiler

/-- A source that names a step and one of its outputs points nowhere. -/
inductive ReferenceFault where
  | unknownStep (reference step : String)
  | unknownOutput (reference step port : String)
  deriving Repr, DecidableEq

inductive Violation where
  | schema (d : Departed)
  | undeclaredPort (step port : String) (declared : List String)
  | stepSource (step port : String) (fault : ReferenceFault)
  | undeclaredInput (step port source : String)
  | outputSource (key : String) (fault : ReferenceFault)
  deriving Repr, DecidableEq

def quotedTexts (texts : List String) : String := ", ".intercalate (texts.map Text.quoted)

def Departure.message : Departure → String
  | .kind v allowed => v.quoted ++ " is not of type " ++ quotedTexts (allowed.map Kind.name)
  | .missing name => Text.quoted name ++ " is a required property"
  | .unexpected names =>
    "Additional properties are not allowed (" ++ quotedTexts names ++
      (if names.length = 1 then " was" else " were") ++ " unexpected)"
  | .otherConst text => Text.quoted text ++ " was expected"
  | .noMatch v form => v.quoted ++ " does not match " ++ Text.quoted form.text
  | .noAlternative v => v.quoted ++ " is not valid under any of the given schemas"
  | .repeated v => v.quoted ++ " has non-unique elements"

/-- One kind by its name, several as a quoted list. -/
def kindsText : List Kind → String
  | [k] => k.name
  | kinds => (Value.strings (kinds.map Kind.name)).quoted

def Departure.suggestion : Departure → String
  | .kind v allowed => s!"Change type from '{v.kindName}' to '{kindsText allowed}'"
  | .missing name => s!"Add the required field '{name}'"
  | .unexpected _ => "Remove unknown properties or check field names"
  | .noMatch _ .parameterType =>
    "Use one of: string, int, boolean, File, File[], Directory (optionally suffixed with '?')"
  | _ => ""

/-- Names with points between them, indices in brackets. -/
def pathText (isFirst : Bool) : List PathStep → String
  | [] => ""
  | .index i :: rest => s!"[{i}]" ++ pathText false rest
  | .field name :: rest => (if isFirst then name else "." ++ name) ++ pathText false rest

def ReferenceFault.message : ReferenceFault → String
  | .unknownStep reference step => s!"Reference '{reference}' points at unknown step '{step}'"
  | .unknownOutput reference step port =>
    s!"Reference '{reference}' points at '{port}', which step '{step}' does not produce"

namespace Violation

def path : Violation → String
  | .schema (steps, _) => if (pathText true steps).isEmpty then "root" else pathText true steps
  | .undeclaredPort step port _ => s!"steps.{step}.in.{port}"
  | .stepSource step port _ => s!"steps.{step}.in.{port}.source"
  | .undeclaredInput step port _ => s!"steps.{step}.in.{port}.source"
  | .outputSource key _ => s!"outputs.{key}.outputSource"

def detail : Violation → String
  | .schema (_, d) => d.message
  | .undeclaredPort _ port _ => s!"Step input '{port}' is not declared by the tool"
  | .stepSource _ _ fault => fault.message
  | .undeclaredInput _ _ source =>
    s!"Step input references undeclared workflow input '{source}'"
  | .outputSource _ fault => fault.message

def suggestion : Violation → String
  | .schema (_, d) => d.suggestion
  | .undeclaredPort _ _ declared =>
    "Declared tool inputs: " ++ (Value.strings (sorted declared)).quoted
  | .undeclaredInput _ _ _ => "Declare it under 'inputs' or link the port to another step"
  | _ => ""

def message (v : Violation) : String :=
  s!"Validation error at {v.path}: " ++ v.detail ++
    if v.suggestion.isEmpty then "" else "\n" ++ v.suggestion

end Violation

namespace Document

/-- The fields of an object; other values have none. -/
def fields : Value → List (String × Value)
  | .object entries => entries
  | _ => []

def field (v : Value) (name : String) : Value := (v.field? name).getD .null

def text : Value → String
  | .str s => s
  | _ => ""

def hasField (v : Value) (name : String) : Bool := (v.field? name).isSome

/-- What stands before and behind the first slash. -/
def splitReference (s : String) : String × String :=
  (String.ofList (s.toList.takeWhile (· ≠ '/')),
    String.ofList ((s.toList.dropWhile (· ≠ '/')).drop 1))

/-- Whether a step lists an output. -/
def produces (step : Value) (port : String) : Bool :=
  match field step "out" with
  | .list items => items.contains (.str port)
  | _ => false

def referenceFault? (steps : Value) (reference : String) : Option ReferenceFault :=
  let (step, port) := splitReference reference
  match steps.field? step with
  | none => some (.unknownStep reference step)
  | some s => if produces s port then none else some (.unknownOutput reference step port)

/-- The input of a step at a port. -/
def checkPort (document : Value) (step : String) (declared : Value) (port : String)
    (binding : Value) : Option Violation :=
  if !hasField declared port then
    some (.undeclaredPort step port ((fields declared).map Prod.fst))
  else
    let source := text (field binding "source")
    if source.toList.contains '/' then
      (referenceFault? (field document "steps") source).map (.stepSource step port)
    else if hasField (field document "inputs") source then none
    else some (.undeclaredInput step port source)

def checkStep (document : Value) (id : String) (step : Value) : Option Violation :=
  (fields (field step "in")).findSome? fun (port, binding) =>
    checkPort document id (field (field step "run") "inputs") port binding

def checkStepSources (document : Value) : Option Violation :=
  (fields (field document "steps")).findSome? fun (id, step) => checkStep document id step

def checkOutputSources (document : Value) : Option Violation :=
  (fields (field document "outputs")).findSome? fun (key, output) =>
    (referenceFault? (field document "steps") (text (field output "outputSource"))).map
      (.outputSource key)

def violation? (document : Value) : Option Violation :=
  match Schema.workflow.check document with
  | some d => some (.schema d)
  | none =>
    match checkStepSources document with
    | some v => some v
    | none => checkOutputSources document

def validate (document : Value) : Except Violation Unit :=
  match violation? document with
  | some v => .error v
  | none => .ok ()

end Document

inductive TextViolation where
  | json (failure : Json.Failure)
  | document (v : Violation)
  deriving Repr, DecidableEq

def TextViolation.message : TextViolation → String
  | .json failure =>
    if failure.fault.isLimit then failure.message else "Invalid JSON: " ++ failure.message
  | .document v => v.message

def Document.validateText [Json.Dialect] (text : String) : Except TextViolation Unit :=
  match Json.decode text with
  | .error failure => .error (.json failure)
  | .ok document => (Document.validate document).mapError .document

end PipelineCompiler
