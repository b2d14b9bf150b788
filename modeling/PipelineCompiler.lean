import PipelineCompiler.Catalog
import PipelineCompiler.CommandLine.Argument
import PipelineCompiler.CommandLine.Dialog
import PipelineCompiler.CommandLine.Request
import PipelineCompiler.CommandLine.Run
import PipelineCompiler.CommandLine.Usage
import PipelineCompiler.Compile
import PipelineCompiler.Data.Binary64
import PipelineCompiler.Data.OrderedMap
import PipelineCompiler.Data.Value
import PipelineCompiler.Port
import PipelineCompiler.File.Content
import PipelineCompiler.File.Folder
import PipelineCompiler.File.Path
import PipelineCompiler.Filling
import PipelineCompiler.Json.Dialect
import PipelineCompiler.Json.Decode
import PipelineCompiler.Json.Encode
import PipelineCompiler.Load
import PipelineCompiler.Report
import PipelineCompiler.Main
import PipelineCompiler.Model.Graph
import PipelineCompiler.Model.Reading
import PipelineCompiler.Naming
import PipelineCompiler.Ordering
import PipelineCompiler.Schema.Basic
import PipelineCompiler.Schema.Validation
import PipelineCompiler.Schema.Workflow
import PipelineCompiler.Settings.Environment
import PipelineCompiler.Settings.Model
import PipelineCompiler.Settings.Store
import PipelineCompiler.Text.Basic
import PipelineCompiler.Text.Control
import PipelineCompiler.Text.Lowercase
import PipelineCompiler.Text.Printable
import PipelineCompiler.Text.Similarity
import PipelineCompiler.Text.Utf8
import PipelineCompiler.Workflow.Document
import PipelineCompiler.Workflow.Synthesis
import PipelineCompiler.Yaml.Node
import PipelineCompiler.Yaml.Pen
import PipelineCompiler.Yaml.Scalar
import PipelineCompiler.Proofs.Adjacency
import PipelineCompiler.Proofs.Sequence
import PipelineCompiler.Proofs.Except
import PipelineCompiler.Proofs.Naming
import PipelineCompiler.Proofs.OrderedMap
import PipelineCompiler.Proofs.Catalog
import PipelineCompiler.Proofs.Placeholder
import PipelineCompiler.Proofs.Inline
import PipelineCompiler.Proofs.Synthesis
import PipelineCompiler.Proofs.Document
import PipelineCompiler.Proofs.Conformance
import PipelineCompiler.Proofs.Validation
import PipelineCompiler.Proofs.JobInputs
import PipelineCompiler.Proofs.JobKeys
import PipelineCompiler.Proofs.Consistency
import PipelineCompiler.Proofs.Outcome
import PipelineCompiler.Proofs.Agreement
import PipelineCompiler.Proofs.Links
import PipelineCompiler.Proofs.Rearrangement
import PipelineCompiler.Proofs.Recompilation
import PipelineCompiler.Proofs.Dangling
import PipelineCompiler.Proofs.Pruning
import PipelineCompiler.Proofs.Draining
import PipelineCompiler.Proofs.RepeatedIds
import PipelineCompiler.Proofs.LargeIds
import PipelineCompiler.Proofs.Settings
import PipelineCompiler.Proofs.SettingsStore
import PipelineCompiler.Proofs.Folder
import PipelineCompiler.Proofs.Session
import PipelineCompiler.Proofs.Utf8
import PipelineCompiler.Proofs.JsonText
import PipelineCompiler.Proofs.JsonRoundTrip
import PipelineCompiler.Proofs.JsonKeys
import PipelineCompiler.Proofs.SettingsText
import PipelineCompiler.Proofs.Persistence
import PipelineCompiler.Proofs.FirstReady
import PipelineCompiler.Proofs.Passes
import PipelineCompiler.Proofs.Slug
import PipelineCompiler.Proofs.Locations
import PipelineCompiler.Proofs.SharedNames
import PipelineCompiler.Proofs.SchemaMeaning
import PipelineCompiler.Proofs.References
import PipelineCompiler.Proofs.EditorOrder
import PipelineCompiler.Proofs.Loading
import PipelineCompiler.Proofs.SavedSettings
import PipelineCompiler.Proofs.Records
import PipelineCompiler.Proofs.Spelling
import PipelineCompiler.Proofs.Expression
import PipelineCompiler.Proofs.Replacement
import PipelineCompiler.Proofs.ParameterTypes
