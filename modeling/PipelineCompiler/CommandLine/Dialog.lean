import PipelineCompiler.CommandLine.Request
import PipelineCompiler.Text.Lowercase

set_option autoImplicit false

namespace PipelineCompiler.CommandLine

def CommandForm.usage (c : CommandForm) : String := s!"Usage: {c.name} {c.pieces}\n"

def UsageError.report (form : CommandForm) (e : UsageError) : String :=
  (if e.showsUsage then form.usage ++ s!"Try '{form.name} --help' for help.\n\n" else "") ++
    s!"Error: {e.message}\n"

def CommandForm.purpose (c : CommandForm) : List String :=
  if c = compileForm then ["Compile GRAPH_PATH (editor state JSON) into a CWL workflow."]
  else if c = settingsForm then ["Manage cwlflow settings."]
  else if c = initForm then
    ["Initialize settings file with defaults.", "",
      "Creates ~/.cwlflow/settings.json with default configuration."]
  else if c = showForm then ["Show current settings, including environment overrides."]
  else ["Compile visual pipeline graphs into CWL workflows."]

def CommandForm.details (c : CommandForm) : List String :=
  if c = compileForm then
    ["Options:",
      "  -p, --plugins FILE          Plugin catalog (JSON list of plugins)  [required]",
      "  -o, --output FILE           Write the workflow here instead of stdout",
      "  --format [json|yaml]        Output format (default: from the output file",
      "                              extension, else json)",
      "  --strict / --no-strict      Fail if a cycle leaves nodes out of the workflow",
      "  --validate / --no-validate  Structurally validate the generated workflow",
      "  --job-file FILE             Also write the job input values to this file",
      "  --help                      Show this message and exit."]
  else if c = settingsForm then
    ["Options:", "  --help  Show this message and exit.", "", "Commands:",
      "  init  Initialize settings file with defaults.",
      "  show  Show current settings, including environment overrides."]
  else if c = programForm then
    ["Options:", "  -v, --verbose  Show detailed compiler output",
      "  --help         Show this message and exit.", "", "Commands:",
      "  compile   Compile GRAPH_PATH (editor state JSON) into a CWL workflow.",
      "  settings  Manage cwlflow settings."]
  else ["Options:", "  --help  Show this message and exit."]

def CommandForm.help (c : CommandForm) : String :=
  let indented := c.purpose.map fun line => if line = "" then line else "  " ++ line
  c.usage ++ "\n" ++ "\n".intercalate (indented ++ [""] ++ c.details) ++ "\n"

inductive Answer where
  | yes
  | no
  | unclear
  deriving Repr, DecidableEq

/-- An empty answer is a no. -/
def Answer.ofLine (line : String) : Answer :=
  let word := String.ofList (Text.trimBy Text.isBlank (Text.lowercase line).toList)
  if word = "y" ∨ word = "yes" then .yes
  else if word = "n" ∨ word = "no" ∨ word = "" then .no
  else .unclear

def linesOf (input : String) : List String :=
  (Text.linesOf (Text.unifyLineEnds input.toList)).map String.ofList

/-- Whether the answer is a yes, and what is shown meanwhile. A question without a clear answer is
asked again; the end of the input is a no. -/
def confirm (question : String) : List String → Bool × String
  | [] => (false, question)
  | line :: rest =>
    let shown := question ++ line ++ "\n"
    match Answer.ofLine line with
    | .yes => (true, shown)
    | .no => (false, shown)
    | .unclear =>
      let (agreed, more) := confirm question rest
      (agreed, shown ++ "Error: invalid input\n" ++ more)

end PipelineCompiler.CommandLine
