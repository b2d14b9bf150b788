import PipelineCompiler.Data.Value

set_option autoImplicit false

namespace PipelineCompiler

def isSlugChar (c : Char) : Bool :=
  ('A' ≤ c && c ≤ 'Z') || ('a' ≤ c && c ≤ 'z') || ('0' ≤ c && c ≤ '9')

/-- The maximal runs of ASCII letters and digits; `current` holds in reverse the run being read. -/
def slugWordsFrom (current : List Char) : List Char → List (List Char)
  | [] => if current.isEmpty then [] else [current.reverse]
  | c :: rest =>
    if isSlugChar c then slugWordsFrom (c :: current) rest
    else if current.isEmpty then slugWordsFrom [] rest
    else current.reverse :: slugWordsFrom [] rest

def slugWords (s : List Char) : List (List Char) := slugWordsFrom [] s

def joinWords : List (List Char) → List Char
  | [] => []
  | [w] => w
  | w :: rest => w ++ '_' :: joinWords rest

/-- An identifier made of the words of a display name; a name without any gives `node`. -/
def slug (name : String) : String :=
  match slugWords name.toList with
  | [] => "node"
  | words => String.ofList (joinWords words)

abbrev Sanitizer := String → String

inductive NamingError where
  | notCanonical (name : String)
  | invalidId (id : Value)
  /-- The number is beyond every finite floating number. -/
  | idTooLarge
  deriving Repr, DecidableEq

def NamingError.message : NamingError → String
  | .notCanonical name => s!"cleanName \"{name}\" is not clean"
  | .invalidId id => s!"id \"{id.plain}\" is not a number"
  | .idTooLarge => "int too large to convert to float"

/-- The text of a number that can be an id; whole floating numbers are written as integers. -/
def idText : Value → Except NamingError String
  | .int n => if Binary64.fitsInt n then .ok (toString n) else .error .idTooLarge
  | .float x =>
    if x.isFinite then
      match x.toInt? with
      | some n => .ok (toString n)
      | none => .ok x.toText
    else .error (.invalidId (.float x))
  | v => .error (.invalidId v)

def stepId (sanitize : Sanitizer) (cleanName : String) (id : Value) : Except NamingError String :=
  if sanitize cleanName ≠ cleanName then .error (.notCanonical cleanName)
  else (idText id).map fun text => cleanName ++ "_" ++ text

end PipelineCompiler
