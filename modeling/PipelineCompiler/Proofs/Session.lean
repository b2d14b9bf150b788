import Mathlib.Data.List.Nodup
import PipelineCompiler.Proofs.Folder
import PipelineCompiler.Proofs.Naming
import PipelineCompiler.Proofs.SettingsStore

set_option autoImplicit false

/- Settings are loaded and saved while others rewrite the files and the environment changes. What
matters of the past is the first look at the file since the store was last reset; the environment
has its say anew in every answer. -/
namespace PipelineCompiler

structure Session where
  folder : Folder
  environment : EnvironmentSettings
  store : SettingsStore
  deriving Repr, DecidableEq

namespace Session

inductive Action where
  /-- A new store for the same file. -/
  | construct
  | load
  | reload
  | save (data : Value)
  | saveCurrent
  /-- Others write what they want. -/
  | rewrite (folder : Folder)
  | setEnvironment (e : EnvironmentSettings)
  deriving Repr, DecidableEq

inductive Event where
  | reset
  /-- Settings are loaded while this stands at the path. -/
  | load (file : FileState)
  deriving Repr, DecidableEq

/-- The file is the one that the first load since the last reset has seen. -/
def FirstLoad (past : List Event) (file : FileState) : Prop :=
  ∃ earlier later, past = earlier ++ .reset :: .load file :: later ∧ .reset ∉ later

theorem FirstLoad.unique {past : List Event} {file other : FileState} (first : FirstLoad past file)
    (second : FirstLoad past other) : other = file := by
  obtain ⟨earlier, later, rfl, none⟩ := first
  obtain ⟨earlier', later', same, none'⟩ := second
  have tails := (eq_of_append_separator Event.reset earlier earlier' (.load file :: later)
    (.load other :: later') (by simpa using none) (by simpa using none') same).2
  cases tails
  rfl

def start (path : Path) (folder : Folder) (e : EnvironmentSettings) : Session :=
  ⟨folder, e, .new path⟩

def file (s : Session) : FileState := s.folder.stateAt s.store.path

/-- A store that could not look at its file stays as it is. -/
def asked (s : Session) (r : Except OpenError (Settings × SettingsStore)) : Session :=
  match r with
  | .ok (_, store) => { s with store := store }
  | .error _ => s

def saved (s : Session) (done : Saving) : Session :=
  { s with folder := done.folder, store := done.store }

section

variable [Json.Dialect]

def step (s : Session) : Action → Session
  | .construct => { s with store := .new s.store.path }
  | .load => s.asked (s.store.load s.file s.environment)
  | .reload => asked { s with store := s.store.forget } (s.store.reload s.file s.environment)
  | .save data => s.saved (s.store.saveIn s.folder data)
  | .saveCurrent => s.saved (s.store.saveCurrentIn s.folder s.environment)
  | .rewrite folder => { s with folder := folder }
  | .setEnvironment e => { s with environment := e }

def run (s : Session) (actions : List Action) : Session := actions.foldl step s

def answer (s : Session) : Action → Option (Except OpenError Settings)
  | .load => some ((s.store.load s.file s.environment).map Prod.fst)
  | .reload => some ((s.store.reload s.file s.environment).map Prod.fst)
  | _ => none

/-- A save that succeeds is a reset. -/
def resets (done : Saving) : List Event := if done.error = none then [.reset] else []

/-- A reload is a reset and a load, and saving what loads now loads it first. -/
def events (s : Session) : Action → List Event
  | .construct => [.reset]
  | .load => [.load s.file]
  | .reload => [.reset, .load s.file]
  | .save data => resets (s.store.saveIn s.folder data)
  | .saveCurrent => .load s.file :: resets (s.store.saveCurrentIn s.folder s.environment)
  | .rewrite _ => []
  | .setEnvironment _ => []

def trace (s : Session) : List Action → List Event
  | [] => []
  | a :: rest => s.events a ++ (s.step a).trace rest

/-- A load remembers the base that it answers from. -/
theorem step_load (s : Session) (base : Settings) (found : s.store.base s.file = .ok base) :
    s.step .load = { s with store := { s.store with remembered := some base } } := by
  have looked := (s.store.load_eq_ok_iff s.file s.environment _ _).2 ⟨base, found, rfl, rfl⟩
  rw [step, looked]
  rfl

theorem answer_load (s : Session) (base : Settings) (found : s.store.base s.file = .ok base) :
    s.answer .load = some (.ok (s.environment.apply base)) := by
  have looked := (s.store.load_eq_ok_iff s.file s.environment _ _).2 ⟨base, found, rfl, rfl⟩
  rw [answer, looked]
  rfl

/-- After some events a store remembers what the file of the first load gives, or nothing if the
last event was a reset. -/
def Remembers (past : List Event) : Option Settings → Prop
  | none => ∃ earlier, past = earlier ++ [.reset]
  | some base => ∃ file, FirstLoad past file ∧ file.Gives base

theorem remembers_of_reset (past : List Event) : Remembers (past ++ [.reset]) none :=
  ⟨past, rfl⟩

theorem remembers_of_load {past : List Event} {store : SettingsStore} {file : FileState}
    {base : Settings} (before : Remembers past store.remembered)
    (found : store.base file = .ok base) :
    Remembers (past ++ [.load file]) (some base) := by
  rw [SettingsStore.base] at found
  -- Right after a reset this load is the first; any other leaves the first where it is.
  cases memory : store.remembered with
  | none =>
    rw [memory] at before found
    obtain ⟨earlier, rfl⟩ := before
    have given := ((SettingsStore.found_eq_ok_iff file base).1 found).2
    exact ⟨file, ⟨earlier, [], by simp, by simp⟩, given⟩
  | some s =>
    rw [memory] at before found
    cases found
    obtain ⟨seen, ⟨earlier, later, rfl, quiet⟩, given⟩ := before
    exact ⟨seen, ⟨earlier, later ++ [.load file], by simp, by simpa using quiet⟩, given⟩

/-- The store's memory is what its past says. -/
structure Tracked (path : Path) (past : List Event) (s : Session) : Prop where
  path : s.store.path = path
  memory : Remembers past s.store.remembered

section Run

variable {path : Path} {past : List Event} {s : Session}

theorem Tracked.exists_base (fits : path.Fits) (tracked : Tracked path past s) :
    ∃ base, s.store.base s.file = .ok base := by
  apply s.store.exists_base
  rw [file, tracked.path]
  exact s.folder.stateAt_ne_tooLong path fits

theorem tracked_start (path : Path) (folder : Folder) (e : EnvironmentSettings) :
    Tracked path [.reset] (start path folder e) :=
  ⟨rfl, remembers_of_reset []⟩

theorem remembers_of_saveIn {folder : Folder} {data : Value} {store : SettingsStore}
    (before : Remembers past store.remembered) :
    Remembers (past ++ resets (store.saveIn folder data))
      (store.saveIn folder data).store.remembered := by
  rcases store.saveIn_cases folder data with ⟨g, written, -, -, done⟩ | ⟨e, failed⟩
  · rw [done]
    exact remembers_of_reset past
  · rw [failed, resets, if_neg (Option.some_ne_none e), List.append_nil]
    exact before

theorem Tracked.construct (tracked : Tracked path past s) :
    Tracked path (past ++ [.reset]) (s.step .construct) :=
  ⟨tracked.path, remembers_of_reset past⟩

theorem Tracked.load (fits : path.Fits) (tracked : Tracked path past s) :
    Tracked path (past ++ [.load s.file]) (s.step .load) := by
  obtain ⟨base, found⟩ := tracked.exists_base fits
  rw [s.step_load base found]
  exact ⟨tracked.path, remembers_of_load tracked.memory found⟩

theorem Tracked.saveCurrent (fits : path.Fits) (tracked : Tracked path past s) :
    Tracked path (past ++ s.events .saveCurrent) (s.step .saveCurrent) := by
  obtain ⟨base, found⟩ := tracked.exists_base fits
  have saving := s.store.saveCurrentIn_of_base s.environment s.folder base found
  have before := remembers_of_load tracked.memory found
  rw [events, Session.step, saving, ← List.singleton_append, ← List.append_assoc]
  refine ⟨?_, remembers_of_saveIn before⟩
  rw [saved, SettingsStore.path_saveIn]
  exact tracked.path

theorem Tracked.reload (fits : path.Fits) (tracked : Tracked path past s) :
    Tracked path (past ++ s.events .reload) (s.step .reload) := by
  rw [events, ← List.singleton_append, ← List.append_assoc]
  exact tracked.construct.load fits

theorem Tracked.step (fits : path.Fits) (tracked : Tracked path past s) (a : Action) :
    Tracked path (past ++ s.events a) (s.step a) := by
  cases a with
  | construct => exact tracked.construct
  | load => exact tracked.load fits
  | reload => exact tracked.reload fits
  | save data =>
    refine ⟨?_, remembers_of_saveIn tracked.memory⟩
    rw [Session.step, saved, SettingsStore.path_saveIn]
    exact tracked.path
  | saveCurrent => exact tracked.saveCurrent fits
  | rewrite folder =>
    rw [events, List.append_nil]
    exact ⟨tracked.path, tracked.memory⟩
  | setEnvironment e =>
    rw [events, List.append_nil]
    exact ⟨tracked.path, tracked.memory⟩

theorem Tracked.run (fits : path.Fits) (tracked : Tracked path past s) (actions : List Action) :
    Tracked path (past ++ s.trace actions) (s.run actions) := by
  induction actions generalizing past s with
  | nil =>
    rw [trace, List.append_nil]
    exact tracked
  | cons a rest ih =>
    rw [trace, ← List.append_assoc]
    exact ih (tracked.step fits a)

/-- Whether a store loads or reloads, it answers with what it will remember, as the environment
governs it. -/
theorem answer_eq (fits : path.Fits) (tracked : Tracked path past s) (look : Action)
    (asks : look = .load ∨ look = .reload) :
    ∃ base, (s.step look).store.remembered = some base ∧
      s.answer look = some (.ok (s.environment.apply base)) := by
  rcases asks with rfl | rfl
  · obtain ⟨base, found⟩ := tracked.exists_base fits
    refine ⟨base, ?_, s.answer_load base found⟩
    rw [s.step_load base found]
  -- A reload loads as a new store would.
  · obtain ⟨base, found⟩ := tracked.construct.exists_base fits
    refine ⟨base, ?_, (s.step .construct).answer_load base found⟩
    exact congrArg (fun s => s.store.remembered) ((s.step .construct).step_load base found)

end Run

theorem trace_append (s : Session) (first second : List Action) :
    s.trace (first ++ second) = s.trace first ++ (s.run first).trace second := by
  induction first generalizing s with
  | nil => rfl
  | cons a rest ih =>
    rw [List.cons_append, trace, trace, ih, List.append_assoc]
    rfl

end

end Session

open Session in
/-- After any actions, a load or a reload answers with what the first load since the last reset has
found at the path, as the environment of the moment governs it. It does so with every reader of
JSON, whether or not lone surrogates are kept, and however deep values may be nested. -/
theorem answer_from_first_load [Json.Dialect] (path : Path) (fits : path.Fits) (folder : Folder)
    (environment : EnvironmentSettings) (actions : List Action) (look : Action)
    (asks : look = .load ∨ look = .reload) :
    ∃ file base answer,
      (∀ seen,
        FirstLoad (.reset :: (start path folder environment).trace (actions ++ [look])) seen ↔
          seen = file) ∧
      file.Gives base ∧
      ((start path folder environment).run actions).answer look = some (.ok answer) ∧
      ((start path folder environment).run actions).environment.Governs base answer ∧
      answer.document.Valid := by
  have tracked := (tracked_start path folder environment).run fits actions
  obtain ⟨base, memory, answered⟩ := answer_eq fits tracked look asks
  have after := (tracked.step fits look).memory
  rw [memory] at after
  obtain ⟨file, first, given⟩ := after
  have past : .reset :: (start path folder environment).trace (actions ++ [look]) =
      [.reset] ++ (start path folder environment).trace actions ++
        ((start path folder environment).run actions).events look := by
    rw [trace_append, trace, trace, List.append_nil, List.append_assoc, List.singleton_append]
  rw [← past] at first
  refine ⟨file, base, _, ?_, given, answered, EnvironmentSettings.governs_apply _ base,
    EnvironmentSettings.valid_apply _ base (Settings.valid_of_gives given)⟩
  intro seen
  constructor
  · exact first.unique
  · rintro rfl
    exact first

/-- Where a user's settings are, and settings there that switch strict mode on. -/
def homeSettings : Path := SettingsStore.defaultPath (.ofText "/home")

def bareFolder : Folder := ⟨.ofText "/", .empty⟩

def strictFolder : Folder :=
  bareFolder.put homeSettings
    (.file (Text.Utf8.encode "\x7b\"compiler\": \x7b\"strict\": true\x7d\x7d"))

def strictSettings : Settings := ⟨"1.0.0", .default, ⟨true, true⟩⟩

theorem homeSettings_fits : homeSettings.Fits := ⟨by decide +kernel, by decide +kernel⟩

/-- A store looks at its file; then the file is deleted, and the environment says nothing more. -/
def overtaken : List Session.Action :=
  [.setEnvironment ⟨some "v1.1", some "1.1", some "no"⟩, .load, .rewrite bareFolder,
    .setEnvironment .none]

theorem answer_from_first_load_overtaken :
    homeSettings.Fits ∧ ∃ file base,
      (∀ seen, Session.FirstLoad (.reset :: (Session.start homeSettings strictFolder .none).trace
        (overtaken ++ [.load])) seen ↔ seen = file) ∧
      file.Gives base ∧
      ((Session.start homeSettings strictFolder .none).run overtaken).answer .load =
        some (.ok strictSettings) := by
  obtain ⟨file, base, answer, first, given, answered, -, -⟩ :=
    answer_from_first_load homeSettings homeSettings_fits strictFolder .none overtaken .load
      (.inl rfl)
  have computed : ((Session.start homeSettings strictFolder .none).run overtaken).answer .load =
      some (.ok strictSettings) := by
    decide +kernel
  exact ⟨homeSettings_fits, file, base, first, given, computed⟩

end PipelineCompiler
