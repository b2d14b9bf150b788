import PipelineCompiler.File.Folder
import PipelineCompiler.Json.Decode
import PipelineCompiler.Json.Encode
import PipelineCompiler.Settings.Environment

set_option autoImplicit false

/- A store reads its file once and remembers the settings found there until it is told to read again
or has saved; what the environment says is applied to every answer and never remembered. Loading
fails only where a path is too long to look for a file there. -/
namespace PipelineCompiler

inductive SettingsFault where
  | unreadable (e : OpenError)
  | notText (fault : Text.Utf8.Fault)
  | notJson (failure : Json.Failure)
  | notObject (data : Value)
  | invalid (report : Model.Report)
  deriving Repr, DecidableEq

def SettingsFault.message (path : String) : SettingsFault → String
  | .unreadable e => e.message path
  | .notText fault => fault.message
  | .notJson failure => failure.message
  | .notObject data =>
    "cwlflow.core.settings.CwlflowSettings() argument after ** must be a mapping, not " ++
      data.kindName
  | .invalid report => report.message

def Settings.ofData (data : Value) : Except SettingsFault Settings :=
  match data with
  | .object _ => (Settings.read data).mapError .invalid
  | _ => .error (.notObject data)

section

variable [Json.Dialect]

def Settings.ofContent (content : List UInt8) : Except SettingsFault Settings :=
  match textOfContent content with
  | .error fault => .error (.notText fault)
  | .ok text =>
    match Json.decode text with
    | .error failure => .error (.notJson failure)
    | .ok data => Settings.ofData data

/-- The settings of a file. A missing file stands for the defaults. -/
def Settings.ofFile (file : FileState) : Except SettingsFault Settings :=
  if file.isPresent then
    match file.contentOf with
    | .error e => .error (.unreadable e)
    | .ok content => Settings.ofContent content
  else .ok .default

def settingsContent (data : Value) : List UInt8 := Text.Utf8.encode (Json.encodeIndented data)

end

structure SettingsStore where
  path : Path
  /-- What was last read from the file. -/
  remembered : Option Settings
  deriving Repr, DecidableEq

namespace SettingsStore

def new (path : Path) : SettingsStore := ⟨path, none⟩

def defaultPath (home : Path) : Path := (home.child ".cwlflow").child "settings.json"

/-- Settings files are for their owner only. -/
def permissions : Nat := 0o600

/-- Beside the file, where new settings are written before they take the place of the old. -/
def unfinished (path : Path) : Path := path.parent.child ".settings.halfdone.tmp"

def forget (store : SettingsStore) : SettingsStore := { store with remembered := none }

variable [Json.Dialect]

/-- A file that gives no settings counts as one with the defaults. -/
def found : FileState → Except OpenError Settings
  | .tooLong => .error .tooLong
  | file =>
    match Settings.ofFile file with
    | .ok s => .ok s
    | .error _ => .ok .default

/-- The settings before the environment has its say. -/
def base (store : SettingsStore) (file : FileState) : Except OpenError Settings :=
  match store.remembered with
  | some s => .ok s
  | none => found file

def load (store : SettingsStore) (file : FileState) (e : EnvironmentSettings) :
    Except OpenError (Settings × SettingsStore) :=
  (store.base file).map fun base => (e.apply base, { store with remembered := some base })

def readWarnings (store : SettingsStore) (file : FileState) : List LogLine :=
  match store.remembered, Settings.ofFile file with
  | none, .error fault =>
    let path := store.path.text
    let reason := fault.message path
    [⟨.warning, s!"Failed to load settings from {path} ({reason}); using defaults"⟩]
  | _, _ => []

def loadLog (store : SettingsStore) (file : FileState) (e : EnvironmentSettings) : List LogLine :=
  match store.base file with
  | .ok base => store.readWarnings file ++ e.warnings base
  | .error _ => []

def reload (store : SettingsStore) (file : FileState) (e : EnvironmentSettings) :
    Except OpenError (Settings × SettingsStore) :=
  store.forget.load file e

/-- The data becomes the content of the file, and is read afresh the next time. What cannot be
written changes nothing. -/
def saveData (store : SettingsStore) (file : FileState) (data : Value) :
    Except WriteError FileState × SettingsStore :=
  match file.replace (settingsContent data) with
  | .ok written => (.ok written, store.forget)
  | .error e => (.error e, store)

end SettingsStore

/-- What saving within a tree of files leaves, also where it has failed. -/
structure Saving where
  folder : Folder
  store : SettingsStore
  error : Option WriteError
  deriving Repr, DecidableEq

namespace SettingsStore

variable [Json.Dialect]

/-- A folder that the path names by its place is in use and not merely in the way. -/
def refusal (store : SettingsStore) : WriteError → WriteError
  | .directory => if store.path.endsInPoints then .busy else .directory
  | e => e

/-- Saving within a tree of files, whose folders are made first where they are missing. The
unfinished settings need a place as well, which is told from the root. -/
def saveIn (store : SettingsStore) (folder : Folder) (data : Value) : Saving :=
  match folder.makeFolders store.path.parent with
  | (folder, some e) => ⟨folder, store, some e⟩
  | (folder, none) =>
    if (folder.fromRoot (unfinished store.path)).isTooLong then ⟨folder, store, some .tooLong⟩
    else
      match store.saveData (folder.stateAt store.path) data with
      | (.ok (.file content), after) => ⟨folder.put store.path (.file content), after, none⟩
      | (.ok _, after) => ⟨folder, after, none⟩
      | (.error e, after) => ⟨folder, after, some (store.refusal e)⟩

def saveCurrentIn (store : SettingsStore) (folder : Folder) (e : EnvironmentSettings) : Saving :=
  match store.load (folder.stateAt store.path) e with
  | .ok (s, store) => store.saveIn folder s.toValue
  | .error _ => ⟨folder, store, some .tooLong⟩

end SettingsStore

end PipelineCompiler
