import PipelineCompiler.CommandLine.Run

set_option autoImplicit false

namespace PipelineCompiler.CommandLine

/-- What stands at a place; what cannot be read as a file counts as a folder. -/
def entryAt (p : Path) : IO (Option Entry) := do
  try
    let content ← IO.FS.readBinFile p.text
    return some (.file content.toList)
  catch
    | .noFileOrDirectory _ _ _ => return none
    | _ => return some .directory

def lookAt (start : Path) (paths : List Path) : IO Folder := do
  let mut entries : OrderedMap Path Entry := .empty
  for path in paths do
    for place in path.places do
      if let some entry ← entryAt place then
        entries := entries.insert place entry
  return ⟨start, entries⟩

def foundVariables : IO (OrderedMap String String) := do
  let mut found : OrderedMap String String := .empty
  for name in variableNames do
    if let some text ← IO.getEnv name then
      found := found.insert name text
  return found

/-- Asks until the answer is clear; without an answer it is a no. -/
partial def ask (question : String) : IO Bool := do
  let out ← IO.getStdout
  out.putStr question
  out.flush
  let line ← (← IO.getStdin).getLine
  if line.isEmpty then return false
  match Answer.ofLine line with
  | .yes => return true
  | .no => return false
  | .unclear =>
    out.putStrLn "Error: invalid input"
    ask question

/-- Settings are finished before they take the place of others, and are for their owner only. -/
def writeSettings (path : Path) (content : ByteArray) : IO Unit := do
  let unfinished := (SettingsStore.unfinished path).text
  IO.FS.createDirAll path.parent.text
  IO.FS.writeBinFile unfinished content
  IO.setAccessRights unfinished ⟨⟨true, true, false⟩, ⟨false, false, false⟩, ⟨false, false, false⟩⟩
  IO.FS.rename unfinished path.text

def writeChanges (settings : Option Path) (before after : Folder) : IO Unit := do
  for (path, content) in Folder.changedFiles before after do
    let bytes := ByteArray.mk content.toArray
    if some path = settings then writeSettings path bytes
    else IO.FS.writeBinFile path.text bytes

def finish (s : Surroundings) (o : Outcome) : IO UInt32 := do
  (← IO.getStdout).putStr o.output
  (← IO.getStderr).putStr (shownLog o.threshold o.log ++ o.messages)
  writeChanges (s.settingsStore?.map fun store => Folder.endOf store.path) s.folder o.folder
  if let some escape := o.escape then
    IO.eprintln escape.message
  return UInt32.ofNat o.exitCode

def runMain (arguments : List String) : IO UInt32 := do
  let start := Path.ofText (← IO.currentDir).toString
  let known : Surroundings := ⟨⟨start, .empty⟩, ← foundVariables, "/", ""⟩
  let settings := known.settingsStore?.map SettingsStore.path
  let folder ← lookAt start (settings.toList ++ mentionedPaths arguments)
  let s := { known with folder := folder }
  match prepare s arguments with
  | .error o => finish s o
  | .ok (o, command) =>
    let agreed ← match question? s command with
      | none => pure true
      | some question => ask question
    finish s (perform s o agreed command)

end PipelineCompiler.CommandLine

def main (arguments : List String) : IO UInt32 := PipelineCompiler.CommandLine.runMain arguments
