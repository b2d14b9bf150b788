import PipelineCompiler.Port
import PipelineCompiler.Text.Basic

set_option autoImplicit false

namespace PipelineCompiler

inductive Kind where
  | object
  | array
  | string
  | number
  | boolean
  | null
  deriving Repr, DecidableEq

def Kind.name : Kind → String
  | .object => "object"
  | .array => "array"
  | .string => "string"
  | .number => "number"
  | .boolean => "boolean"
  | .null => "null"

/-- Truth values are no numbers. -/
def Kind.admits : Kind → Value → Bool
  | .object, .object _ => true
  | .array, .list _ => true
  | .string, .str _ => true
  | .number, .int _ => true
  | .number, .float _ => true
  | .boolean, .bool _ => true
  | .null, .null => true
  | _, _ => false

inductive Pattern where
  | parameterType
  | version
  | flag
  | stepOutput
  deriving Repr, DecidableEq

def Pattern.text : Pattern → String
  | .parameterType => "^(string|int|boolean|File|File\\[\\]|Directory)\\??$"
  | .version => "^v\\d+\\.\\d+"
  | .flag => "^--"
  | .stepOutput => "^[^/]+/[^/]+$"

/-- A final line feed does not count for the end of a text. -/
def dropFinalNewline (s : List Char) : List Char :=
  if s.getLast? = some '\n' then s.dropLast else s

/-- The names of types, each with and without a question mark. -/
def parameterTypeTexts : List String :=
  CwlType.all.map CwlType.text ++ CwlType.all.map CwlType.optionalText

def isParameterType (s : List Char) : Bool := parameterTypeTexts.any fun t => t.toList = s

def Pattern.matches : Pattern → String → Bool
  | .parameterType, s => isParameterType s.toList || isParameterType (dropFinalNewline s.toList)
  | .version, s => isCwlVersion s
  | .flag, s => "--".toList.isPrefixOf s.toList
  | .stepOutput, s =>
    let step := s.toList.takeWhile (· ≠ '/')
    match s.toList.dropWhile (· ≠ '/') with
    | '/' :: port => !step.isEmpty && !port.isEmpty && !port.contains '/'
    | _ => false

inductive Schema where
  | kinds (allowed : List Kind)
  | properties (fields : List (String × Schema))
  | required (names : List String)
  | additional (schema : Schema)
  /-- No fields but the known ones. -/
  | closed (known : List String)
  | items (schema : Schema)
  | const (text : String)
  | pattern (form : Pattern)
  | anyOf (schemas : List Schema)
  | unique
  | all (schemas : List Schema)
  deriving Repr, Inhabited

/-- How a value departs from a schema. -/
inductive Departure where
  | kind (v : Value) (allowed : List Kind)
  | missing (name : String)
  | unexpected (names : List String)
  | otherConst (text : String)
  | noMatch (v : Value) (form : Pattern)
  | noAlternative (v : Value)
  | repeated (v : Value)
  deriving Repr, DecidableEq

inductive PathStep where
  | field (name : String)
  | index (i : Nat)
  deriving Repr, DecidableEq

abbrev Departed := List PathStep × Departure

def Departed.below (step : PathStep) (d : Departed) : Departed := (step :: d.1, d.2)

def firstItem (check : Value → Option Departed) (index : Nat) : List Value → Option Departed
  | [] => none
  | v :: rest =>
    match check v with
    | some d => some (d.below (.index index))
    | none => firstItem check (index + 1) rest

def firstField (check : Value → Option Departed) : List (String × Value) → Option Departed
  | [] => none
  | (k, v) :: rest =>
    match check v with
    | some d => some (d.below (.field k))
    | none => firstField check rest

/-- Texts in the order of their code points. -/
def insertSorted (s : String) : List String → List String
  | [] => [s]
  | t :: rest => if s.toList ≤ t.toList then s :: t :: rest else t :: insertSorted s rest

def sorted : List String → List String
  | [] => []
  | s :: rest => insertSorted s (sorted rest)

def hasRepeats : List Value → Bool
  | [] => false
  | v :: rest => rest.contains v || hasRepeats rest

namespace Schema

mutual

def check : Schema → Value → Option Departed
  | .kinds allowed, v => if allowed.any (·.admits v) then none else some ([], .kind v allowed)
  | .properties fields, v =>
    match v with
    | .object entries => checkProperties fields entries
    | _ => none
  | .required names, v =>
    match v with
    | .object entries =>
      (names.find? fun name => (OrderedMap.lookup name entries).isNone).map fun name =>
        ([], .missing name)
    | _ => none
  | .additional schema, v =>
    match v with
    | .object entries => firstField (check schema) entries
    | _ => none
  | .closed known, v =>
    match v with
    | .object entries =>
      let extra := (entries.map Prod.fst).filter fun name => !known.contains name
      if extra.isEmpty then none else some ([], .unexpected (sorted extra))
    | _ => none
  | .items schema, v =>
    match v with
    | .list members => firstItem (check schema) 0 members
    | _ => none
  | .const text, v => if v = .str text then none else some ([], .otherConst text)
  | .pattern form, v =>
    match v with
    | .str s => if form.matches s then none else some ([], .noMatch v form)
    | _ => none
  | .anyOf schemas, v => if checkAny schemas v then none else some ([], .noAlternative v)
  | .unique, v =>
    match v with
    | .list members => if hasRepeats members then some ([], .repeated v) else none
    | _ => none
  | .all schemas, v => checkAll schemas v

def checkProperties : List (String × Schema) → List (String × Value) → Option Departed
  | [], _ => none
  | (name, schema) :: rest, entries =>
    match OrderedMap.lookup name entries with
    | none => checkProperties rest entries
    | some v =>
      match check schema v with
      | some d => some (d.below (.field name))
      | none => checkProperties rest entries

/-- Whether a value departs from none of some schema of the list. -/
def checkAny : List Schema → Value → Bool
  | [], _ => false
  | schema :: rest, v => (check schema v).isNone || checkAny rest v

def checkAll : List Schema → Value → Option Departed
  | [], _ => none
  | schema :: rest, v =>
    match check schema v with
    | some d => some d
    | none => checkAll rest v

end

end Schema

end PipelineCompiler
