import PipelineCompiler.CommandLine.Usage
import PipelineCompiler.Text.Similarity

set_option autoImplicit false

/- Telling options from other arguments. An option is known by its long name behind two dashes, with
its value behind an equals sign or as the next argument, or by one letter behind one dash, where
several letters may stand together and the last may have its value attached. Two dashes alone end
the options. -/
namespace PipelineCompiler.CommandLine

inductive Parameter where
  | help
  | verbose
  | graph
  | plugins
  | output
  | format
  | strict
  | validate
  | job
  deriving Repr, DecidableEq

/-- A value comes with an option, or the option itself says what is wanted. -/
inductive Taking where
  | value
  | switch (on : Bool)
  deriving Repr, DecidableEq

structure OptionForm where
  parameter : Parameter
  names : List String
  taking : Taking
  deriving Repr, DecidableEq

structure CommandForm where
  name : String
  pieces : String
  options : List OptionForm
  /-- Options may stand behind other arguments. -/
  mixed : Bool
  deriving Repr, DecidableEq

inductive Given where
  | text (s : String)
  | switch (on : Bool)
  deriving Repr, DecidableEq

/-- Arguments told apart: parameters in the order of their options, and all that is no option. -/
structure Arguments where
  given : List (Parameter × Given)
  operands : List String
  deriving Repr, DecidableEq

/-- What one argument says, with the option that waits for the next one. -/
structure Reading where
  given : List (Parameter × Given)
  awaiting : Option (Parameter × String)
  deriving Repr, DecidableEq

namespace CommandForm

def optionNames (c : CommandForm) : List String := c.options.flatMap OptionForm.names

/-- A long name has more than one dash or more than one letter. -/
def isLong (name : String) : Bool := name.toList.length ≠ 2

def longNames (c : CommandForm) : List String := c.optionNames.filter isLong

def find? (c : CommandForm) (name : String) : Option OptionForm :=
  c.options.find? fun o => o.names.contains name

def long? (c : CommandForm) (name : String) : Option OptionForm :=
  if isLong name then c.find? name else none

/-- Letters behind one dash. -/
def readLetters (c : CommandForm) : List Char → Except UsageError Reading
  | [] => .ok ⟨[], none⟩
  | letter :: rest =>
    let name := String.ofList ['-', letter]
    match c.find? name with
    | none => .error (.unknownOption name [])
    | some ⟨parameter, _, .switch on⟩ =>
      (c.readLetters rest).map fun r => { r with given := (parameter, .switch on) :: r.given }
    | some ⟨parameter, _, .value⟩ =>
      if rest = [] then .ok ⟨[], some (parameter, name)⟩
      else .ok ⟨[(parameter, .text (String.ofList rest))], none⟩

def splitAtEquals (argument : List Char) : List Char × Option (List Char) :=
  let name := argument.takeWhile (· ≠ '=')
  match argument.drop name.length with
  | [] => (name, none)
  | _ :: value => (name, some value)

/-- An argument that starts with a dash. -/
def readOption (c : CommandForm) (argument : List Char) : Except UsageError Reading :=
  let (chars, attached) := splitAtEquals argument
  let name := String.ofList chars
  match c.long? name with
  | some ⟨parameter, _, .value⟩ =>
    match attached with
    | some value => .ok ⟨[(parameter, .text (String.ofList value))], none⟩
    | none => .ok ⟨[], some (parameter, name)⟩
  | some ⟨parameter, _, .switch on⟩ =>
    match attached with
    | some _ => .error (.takesNoArgument name)
    | none => .ok ⟨[(parameter, .switch on)], none⟩
  | none =>
    match argument with
    | '-' :: '-' :: _ => .error (.unknownOption name (Text.closeTo name c.longNames))
    | _ => c.readLetters (argument.drop 1)

/-- One dash alone is no option. -/
def isOption (argument : String) : Bool :=
  match argument.toList with
  | '-' :: _ :: _ => true
  | _ => false

def read (c : CommandForm) : List String → Except UsageError Arguments
  | [] => .ok ⟨[], []⟩
  | argument :: rest =>
    if argument = "--" then .ok ⟨[], rest⟩
    else if isOption argument then
      match c.readOption argument.toList, rest with
      | .error e, _ => .error e
      | .ok ⟨given, none⟩, rest =>
        (c.read rest).map fun a => { a with given := given ++ a.given }
      | .ok ⟨_, some (_, name)⟩, [] => .error (.lacksArgument name)
      | .ok ⟨given, some (parameter, _)⟩, value :: rest =>
        (c.read rest).map fun a => { a with given := given ++ (parameter, .text value) :: a.given }
    else if c.mixed then (c.read rest).map fun a => { a with operands := argument :: a.operands }
    else .ok ⟨[], argument :: rest⟩

end CommandForm

namespace Arguments

def last? (a : Arguments) (p : Parameter) : Option Given :=
  (a.given.reverse.find? fun e => e.1 = p).map Prod.snd

def text? (a : Arguments) (p : Parameter) : Option String :=
  match a.last? p with
  | some (.text s) => some s
  | _ => none

def switch? (a : Arguments) (p : Parameter) : Option Bool :=
  match a.last? p with
  | some (.switch on) => some on
  | _ => none

def asksHelp (a : Arguments) : Bool := (a.last? .help).isSome

end Arguments

end PipelineCompiler.CommandLine
