import PipelineCompiler.Report
import PipelineCompiler.Settings.Model
import PipelineCompiler.Text.Lowercase

set_option autoImplicit false

namespace PipelineCompiler

/-- What is set in the environment. -/
structure EnvironmentSettings where
  cwlVersion : Option String
  stepCwlVersion : Option String
  strict : Option String
  deriving Repr, DecidableEq

namespace EnvironmentSettings

def none : EnvironmentSettings := ⟨.none, .none, .none⟩

def cwlVersionName : String := "CWLFLOW_CWL_VERSION"

def stepCwlVersionName : String := "CWLFLOW_STEP_CWL_VERSION"

def strictName : String := "CWLFLOW_STRICT"

def ofVariables (valueOf : String → Option String) : EnvironmentSettings :=
  ⟨valueOf cwlVersionName, valueOf stepCwlVersionName, valueOf strictName⟩

/-- A version of the environment replaces another if it is one. -/
def version (given : Option String) (base : String) : String :=
  match given with
  | some v => if isCwlVersion v then v else base
  | .none => base

/-- The spellings that switch a setting on; all others switch it off. -/
def isOn (text : String) : Bool := ["true", "1", "yes"].contains (Text.lowercase text)

def apply (e : EnvironmentSettings) (s : Settings) : Settings :=
  { s with
    document := { s.document with
      cwlVersion := version e.cwlVersion s.document.cwlVersion
      stepCwlVersion := version e.stepCwlVersion s.document.stepCwlVersion }
    compiler := { s.compiler with
      strict := (e.strict.map isOn).getD s.compiler.strict } }

def versionWarning (name : String) (given : Option String) (base : String) : List LogLine :=
  match given with
  | some v =>
    if isCwlVersion v then [] else [⟨.warning, s!"Invalid {name}: {v}. Using default: {base}"⟩]
  | .none => []

def warnings (e : EnvironmentSettings) (s : Settings) : List LogLine :=
  versionWarning cwlVersionName e.cwlVersion s.document.cwlVersion ++
    versionWarning stepCwlVersionName e.stepCwlVersion s.document.stepCwlVersion

end EnvironmentSettings

end PipelineCompiler
