import PipelineCompiler.Text.Basic
import PipelineCompiler.Text.Printable
import PipelineCompiler.Text.Utf8

set_option autoImplicit false

namespace PipelineCompiler

inductive FileState where
  | absent
  | directory
  /-- A part of the path before its last is a file. -/
  | blocked
  /-- A name on the way, or the path as a whole, is longer than it can be. -/
  | tooLong
  | malformed
  | file (content : List UInt8)
  deriving Repr, DecidableEq

inductive OpenError where
  | absent
  | directory
  | blocked
  | tooLong
  | malformed
  deriving Repr, DecidableEq

def OpenError.message (path : String) : OpenError → String
  | .absent => "[Errno 2] No such file or directory: " ++ Text.quoted path
  | .directory => "[Errno 21] Is a directory: " ++ Text.quoted path
  | .blocked => "[Errno 20] Not a directory: " ++ Text.quoted path
  | .tooLong => "[Errno 36] File name too long: " ++ Text.quoted path
  | .malformed => "embedded null byte"

def FileState.contentOf : FileState → Except OpenError (List UInt8)
  | .absent => .error .absent
  | .directory => .error .directory
  | .blocked => .error .blocked
  | .tooLong => .error .tooLong
  | .malformed => .error .malformed
  | .file content => .ok content

inductive WriteError where
  | absent
  | directory
  | blocked
  | occupied
  | tooLong
  | malformed
  /-- A folder named by its place cannot be replaced. -/
  | busy
  deriving Repr, DecidableEq

/-- What can be found at all; a path that runs through a file leads nowhere. -/
def FileState.isPresent : FileState → Bool
  | .directory | .file _ => true
  | .absent | .blocked | .tooLong | .malformed => false

def FileState.replace (content : List UInt8) : FileState → Except WriteError FileState
  | .directory => .error .directory
  | .blocked => .error .blocked
  | .tooLong => .error .tooLong
  | .malformed => .error .malformed
  | .absent | .file _ => .ok (.file content)

/-- The text of a file's content, with line feeds for all line ends. -/
def textOfContent (content : List UInt8) : Except Text.Utf8.Fault String :=
  (Text.Utf8.decode content).map fun s => String.ofList (Text.unifyLineEnds s.toList)

end PipelineCompiler
