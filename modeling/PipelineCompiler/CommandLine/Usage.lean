import PipelineCompiler.Text.Printable

set_option autoImplicit false

namespace PipelineCompiler.CommandLine

inductive UsageError where
  | unknownOption (name : String) (near : List String)
  /-- An option ends the line that should have an argument. -/
  | lacksArgument (name : String)
  | takesNoArgument (name : String)
  | lacksCommand
  | unknownCommand (name : String) (near : List String)
  | missingArgument (name : String)
  | missingOption (names : List String)
  | extraArguments (arguments : List String)
  | notOneOf (names : List String) (given : String) (choices : List String)
  | isFolder (names : List String) (given : String)
  deriving Repr, DecidableEq

namespace UsageError

def alternatives (names : List String) : String := " / ".intercalate (names.map fun n => s!"'{n}'")

def listed (texts : List String) : String := ", ".intercalate (texts.map Text.quoted)

def suggestion : List String → String
  | [] => ""
  | [name] => s!" Did you mean {Text.quoted name}?"
  | names => s!" (Did you mean one of: {listed names}?)"

def message : UsageError → String
  | unknownOption name near => s!"No such option {Text.quoted name}." ++ suggestion near
  | lacksArgument name => s!"Option {Text.quoted name} requires an argument."
  | takesNoArgument name => s!"Option {Text.quoted name} does not take a value."
  | lacksCommand => "Missing command."
  | unknownCommand name near => s!"No such command {Text.quoted name}." ++ suggestion near
  | missingArgument name => s!"Missing argument '{name}'."
  | missingOption names => s!"Missing option {alternatives names}."
  | extraArguments [argument] => s!"Got unexpected extra argument ({argument})"
  | extraArguments arguments =>
    "Got unexpected extra arguments (" ++ " ".intercalate arguments ++ ")"
  | notOneOf names given choices =>
    s!"Invalid value for {alternatives names}: {Text.quoted given} is not one of {listed choices}."
  | isFolder names given =>
    s!"Invalid value for {alternatives names}: File {Text.quoted given} is a directory."

/-- How a command is used is not shown where an option is wrong in itself. -/
def showsUsage : UsageError → Bool
  | lacksArgument _ | takesNoArgument _ => false
  | _ => true

end UsageError

end PipelineCompiler.CommandLine
