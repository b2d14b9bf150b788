import PipelineCompiler.Schema.Basic

set_option autoImplicit false

namespace PipelineCompiler.Schema

def text : Schema := .kinds [.string]

def textOf (form : Pattern) : Schema := .all [.kinds [.string], .pattern form]

def texts : Schema := .all [.kinds [.array], .items text]

/-- An object all of whose values have one schema. -/
def mapOf (schema : Schema) : Schema := .all [.kinds [.object], .additional schema]

/-- An object with fields of which some are required; others may stand beside them. -/
def record (fields : List (String × Schema)) (names : List String) : Schema :=
  .all [.kinds [.object], .properties fields, .required names]

/-- An object with no fields but these. -/
def closedRecord (fields : List (String × Schema)) (names : List String) : Schema :=
  .all [.kinds [.object], .properties fields, .required names, .closed (fields.map Prod.fst)]

def parameter : Schema := record [("type", textOf .parameterType)] ["type"]

def toolInput : Schema :=
  closedRecord
    [("inputBinding", record [("prefix", textOf .flag)] ["prefix"]),
      ("type", textOf .parameterType)]
    ["inputBinding", "type"]

def toolOutput : Schema :=
  closedRecord
    [("outputBinding", record [("glob", text)] ["glob"]), ("type", textOf .parameterType)]
    ["outputBinding", "type"]

def requirements : Schema :=
  record
    [("DockerRequirement", record [("dockerPull", text)] ["dockerPull"]),
      ("InitialWorkDirRequirement",
        record
          [("listing", .all
            [.kinds [.array],
              .items (record [("entry", text), ("writable", .kinds [.boolean])]
                ["entry", "writable"])])]
          ["listing"]),
      ("InlineJavascriptRequirement", .kinds [.object])]
    ["DockerRequirement", "InitialWorkDirRequirement"]

def tool : Schema :=
  record
    [("baseCommand", texts), ("class", .const "CommandLineTool"), ("cwlVersion", textOf .version),
      ("inputs", mapOf toolInput), ("outputs", mapOf toolOutput), ("requirements", requirements)]
    ["baseCommand", "class", "cwlVersion", "inputs", "outputs", "requirements"]

def step : Schema :=
  closedRecord
    [("in", mapOf (closedRecord [("source", text)] ["source"])), ("run", tool),
      ("out", .all [.kinds [.array], .items text, .unique])]
    ["in", "run", "out"]

/-- A directory, or any value that is no object. -/
def jobInput : Schema :=
  .anyOf
    [closedRecord [("class", .const "Directory"), ("location", .kinds [.string, .null])]
      ["class", "location"],
      .kinds [.string, .number, .boolean, .array, .null]]

def workflowOutput : Schema :=
  record [("type", textOf .parameterType), ("outputSource", textOf .stepOutput)]
    ["type", "outputSource"]

def workflow : Schema :=
  record
    [("name", text), ("cwlVersion", textOf .version), ("driver", text),
      ("class", .const "Workflow"), ("$namespaces", mapOf text), ("$schemas", texts),
      ("cwlJobInputs", mapOf jobInput), ("inputs", mapOf parameter),
      ("outputs", mapOf workflowOutput), ("steps", mapOf step)]
    ["cwlVersion", "class", "cwlJobInputs", "inputs", "outputs", "steps"]

end PipelineCompiler.Schema
