import PipelineCompiler.Data.OrderedMap
import PipelineCompiler.File.Content
import PipelineCompiler.File.Path

set_option autoImplicit false

namespace PipelineCompiler

namespace Path

/-- One folder up. Above a relative start there are further folders, above the root none. -/
def up (p : Path) : Path :=
  match p.names.getLast? with
  | none => if p.root = [] then { p with names := [['.', '.']] } else p
  | some ['.', '.'] => { p with names := p.names ++ [['.', '.']] }
  | some _ => p.parent

def step (p : Path) (name : List Char) : Path :=
  if name = ['.', '.'] then p.up else { p with names := p.names ++ [name] }

/-- The places that a walk from `start` along the names passes, its end included. -/
def placesFrom (start : Path) : List (List Char) → List Path
  | [] => []
  | name :: rest => start.step name :: placesFrom (start.step name) rest

def places (p : Path) : List Path := placesFrom ⟨p.root, []⟩ p.names

def isTop (p : Path) : Bool := p.names.all fun name => name = ['.', '.']

/-- Whether a path leads on to another. -/
def isAbove (p q : Path) : Bool := p.root = q.root && p.names.isPrefixOf q.names && p ≠ q

end Path

inductive Entry where
  | directory
  | file (content : List UInt8)
  deriving Repr, DecidableEq

/-- What stands at the places of the tree. A folder that holds something needs no entry. -/
structure Folder where
  start : Path
  entries : OrderedMap Path Entry
  deriving Repr, DecidableEq

namespace Folder

/-- What stands at one place, whatever leads there. -/
def standing (f : Folder) (p : Path) : FileState :=
  if p.hasLongName then .tooLong
  else
    match f.entries.get? p with
    | some (.file content) => .file content
    | some .directory => .directory
    | none => if p.isTop || f.entries.keys.any p.isAbove then .directory else .absent

/-- What is found at the end of a walk; every place before the end has to be a folder. -/
def stateAlong (f : Folder) : List Path → FileState
  | [] => .directory
  | [p] => f.standing p
  | p :: rest =>
    match f.standing p with
    | .directory => stateAlong f rest
    | .file _ => .blocked
    | s => s

/-- Whether a path can be one at all is seen before the walk. -/
def stateAt (f : Folder) (p : Path) : FileState :=
  if p.isMalformed then .malformed
  else if p.isTooLong then .tooLong
  else f.stateAlong p.places

def isDirectory (f : Folder) (p : Path) : Bool := f.stateAt p = .directory

def endOf (p : Path) : Path := p.places.getLast?.getD p

def fromRoot (f : Folder) (p : Path) : Path :=
  endOf (if p.root = [] then { f.start with names := f.start.names ++ p.names } else p)

def put (f : Folder) (p : Path) (e : Entry) : Folder :=
  { f with entries := f.entries.insert (endOf p) e }

def write (f : Folder) (p : Path) (content : List UInt8) : Except WriteError Folder :=
  match f.stateAt p with
  | .file _ => .ok (f.put p (.file content))
  | .directory => .error .directory
  | .blocked => .error .blocked
  | .tooLong => .error .tooLong
  | .malformed => .error .malformed
  | .absent =>
    if f.isDirectory p.parent then .ok (f.put p (.file content)) else .error .absent

/-- The folders of a walk, made where they are missing. Those made before a fault stay. -/
def makeFoldersAlong (f : Folder) : List Path → Folder × Option WriteError
  | [] => (f, none)
  | p :: rest =>
    match f.standing p with
    | .directory => makeFoldersAlong f rest
    | .file _ => (f, some (if rest = [] then .occupied else .blocked))
    | .tooLong => (f, some .tooLong)
    | _ => makeFoldersAlong { f with entries := f.entries.insert p .directory } rest

def makeFolders (f : Folder) (p : Path) : Folder × Option WriteError :=
  if p.isMalformed then (f, some .malformed)
  else if p.isTooLong then (f, some .tooLong)
  else f.makeFoldersAlong p.places

def files (f : Folder) : List (Path × List UInt8) :=
  f.entries.entries.filterMap fun
    | (p, .file content) => some (p, content)
    | (_, .directory) => none

def changedFiles (before after : Folder) : List (Path × List UInt8) :=
  after.files.filter fun (p, content) => before.entries.get? p ≠ some (.file content)

end Folder

end PipelineCompiler
