import PipelineCompiler.Model.Reading
import PipelineCompiler.Text.Basic

set_option autoImplicit false

namespace PipelineCompiler

/-- Values written at the top of every workflow. -/
structure Header where
  name : String
  driver : String
  cwlVersion : String
  stepCwlVersion : String
  namespaces : OrderedMap String String
  schemas : List String
  deriving Repr, DecidableEq

structure CompilerOptions where
  /-- Fail when nodes are left out of the execution order. -/
  strict : Bool
  /-- Check the document against its schema. -/
  validateOutput : Bool
  deriving Repr, DecidableEq

structure Settings where
  version : String
  document : Header
  compiler : CompilerOptions
  deriving Repr, DecidableEq

def defaultNamespaces : OrderedMap String String := ⟨[("edam", "https://edamontology.org/")]⟩

def defaultSchemas : List String :=
  ["https://raw.githubusercontent.com/edamontology/edamontology/master/EDAM_dev.owl"]

def Header.default : Header := ⟨"", "", "v1.0", "v1.2", defaultNamespaces, defaultSchemas⟩

def CompilerOptions.default : CompilerOptions := ⟨false, true⟩

def Settings.default : Settings := ⟨"1.0.0", .default, .default⟩

namespace Model

def readVersion (v : Value) : Reading String :=
  match readText v with
  | .ok s => if isCwlVersion s then .ok s else fail (.badVersion s)
  | .error e => .error e

def readHeader : Value → Reading Header :=
  readRecord "DocumentSettings" fun o =>
    (pair (optional ["name"] readText "" o)
      (pair (optional ["driver"] readText "" o)
        (pair (optional ["cwl_version"] readVersion "v1.0" o)
          (pair (optional ["step_cwl_version"] readVersion "v1.2" o)
            (pair (optional ["namespaces"] readTexts defaultNamespaces o)
              (optional ["schemas"] (readList readText) defaultSchemas o)))))).map
      fun (name, driver, cwlVersion, stepCwlVersion, namespaces, schemas) =>
        ⟨name, driver, cwlVersion, stepCwlVersion, namespaces, schemas⟩

def readCompilerOptions : Value → Reading CompilerOptions :=
  readRecord "CompilerSettings" fun o =>
    (pair (optional ["strict"] readTruth false o)
      (optional ["validate_output"] readTruth true o)).map fun (strict, validateOutput) =>
        ⟨strict, validateOutput⟩

def readSettings : Value → Reading Settings :=
  readRecord "CwlflowSettings" fun o =>
    (pair (optional ["version"] readText "1.0.0" o)
      (pair (optional ["document"] readHeader .default o)
        (optional ["compiler"] readCompilerOptions .default o))).map
      fun (version, document, compiler) => ⟨version, document, compiler⟩

end Model

def Header.read (v : Value) : Except Model.Report Header :=
  Model.report "DocumentSettings" (Model.readHeader v)

def CompilerOptions.read (v : Value) : Except Model.Report CompilerOptions :=
  Model.report "CompilerSettings" (Model.readCompilerOptions v)

def Settings.read (v : Value) : Except Model.Report Settings :=
  Model.report "CwlflowSettings" (Model.readSettings v)

def Header.toValue (h : Header) : Value :=
  .object
    [("name", .str h.name), ("driver", .str h.driver), ("cwl_version", .str h.cwlVersion),
      ("step_cwl_version", .str h.stepCwlVersion),
      ("namespaces", .object (h.namespaces.entries.map fun e => (e.1, .str e.2))),
      ("schemas", .strings h.schemas)]

def CompilerOptions.toValue (o : CompilerOptions) : Value :=
  .object [("strict", .bool o.strict), ("validate_output", .bool o.validateOutput)]

def Settings.toValue (s : Settings) : Value :=
  .object
    [("version", .str s.version), ("document", s.document.toValue),
      ("compiler", s.compiler.toValue)]

end PipelineCompiler
