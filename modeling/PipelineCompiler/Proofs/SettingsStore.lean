import PipelineCompiler.Proofs.Settings
import PipelineCompiler.Settings.Store

set_option autoImplicit false

namespace PipelineCompiler

theorem Settings.ofData_eq_ok_iff (data : Value) (s : Settings) :
    ofData data = .ok s ↔ ∃ fields, data = .object fields ∧ read (.object fields) = .ok s := by
  cases data <;> simp [ofData, mapError_eq_ok]

section File

variable [Json.Dialect]

/-- The file is one, and its content is text, JSON, an object, and settings. -/
def FileState.Holds (file : FileState) (s : Settings) : Prop :=
  ∃ content text fields, file = .file content ∧ textOfContent content = .ok text ∧
    Json.decode text = .ok (.object fields) ∧ Settings.read (.object fields) = .ok s

/-- Of whatever stands at the path of a file: the settings that it holds, or else the defaults. -/
def FileState.Gives (file : FileState) (s : Settings) : Prop :=
  file.Holds s ∨ (∀ t, ¬ file.Holds t) ∧ s = .default

namespace Settings

theorem ofContent_eq_ok_iff (content : List UInt8) (s : Settings) :
    ofContent content = .ok s ↔ FileState.Holds (.file content) s := by
  rw [ofContent, FileState.Holds]
  cases read : textOfContent content with
  | error fault => simp [read]
  | ok text =>
    cases decoded : Json.decode text with
    | error failure => simp [read, decoded]
    | ok data => simp [read, decoded, ofData_eq_ok_iff]

theorem valid_of_gives {file : FileState} {s : Settings} (given : file.Gives s) :
    s.document.Valid := by
  rcases given with ⟨content, text, fields, -, -, -, made⟩ | ⟨-, rfl⟩
  · exact valid_of_read _ s made
  · exact Header.valid_default

end Settings

namespace FileState

theorem exists_content_of_holds {file : FileState} {s : Settings} (held : file.Holds s) :
    ∃ content, file = .file content ∧ Settings.ofContent content = .ok s := by
  obtain ⟨content, text, fields, rfl, rest⟩ := held
  exact ⟨content, rfl,
    (Settings.ofContent_eq_ok_iff content s).2 ⟨content, text, fields, rfl, rest⟩⟩

theorem gives_iff_of_no_file {file : FileState} (none : ∀ content, file ≠ .file content)
    (s : Settings) : file.Gives s ↔ s = .default := by
  have empty : ∀ t, ¬ file.Holds t := by
    intro t held
    obtain ⟨content, here, -⟩ := exists_content_of_holds held
    exact none content here
  constructor
  · rintro (held | ⟨-, same⟩)
    · exact absurd held (empty s)
    · exact same
  · exact fun same => .inr ⟨empty, same⟩

theorem file_gives_iff (content : List UInt8) (s : Settings) :
    Gives (.file content) s ↔ s = (Settings.ofContent content).toOption.getD .default := by
  simp only [Gives, ← Settings.ofContent_eq_ok_iff]
  cases Settings.ofContent content <;> simp [Except.toOption, eq_comm]

end FileState

end File

theorem FileState.eq_file_of_replace {content : List UInt8} {before after : FileState}
    (written : before.replace content = .ok after) : after = .file content := by
  cases before <;> cases written <;> rfl

namespace SettingsStore

variable [Json.Dialect]

theorem found_eq_ok_iff (file : FileState) (s : Settings) :
    found file = .ok s ↔ file ≠ .tooLong ∧ file.Gives s := by
  cases file with
  | file content =>
    rw [FileState.file_gives_iff]
    simp only [found, Settings.ofFile, FileState.isPresent, FileState.contentOf]
    cases Settings.ofContent content <;> simp [Except.toOption, eq_comm]
  | _ =>
    rw [FileState.gives_iff_of_no_file (by simp)]
    simp [found, Settings.ofFile, FileState.isPresent, FileState.contentOf, eq_comm]

variable (store : SettingsStore) (file : FileState) (e : EnvironmentSettings)

theorem exists_found (readable : file ≠ .tooLong) : ∃ s, found file = .ok s := by
  unfold found
  split
  · exact absurd rfl readable
  · split
    · exact ⟨_, rfl⟩
    · exact ⟨_, rfl⟩

theorem exists_base (readable : file ≠ .tooLong) : ∃ base, store.base file = .ok base := by
  unfold base
  split
  · exact ⟨_, rfl⟩
  · exact exists_found file readable

theorem load_eq_ok_iff (s : Settings) (after : SettingsStore) :
    store.load file e = .ok (s, after) ↔ ∃ base, store.base file = .ok base ∧
      e.apply base = s ∧ { store with remembered := some base } = after := by
  simp only [load, map_eq_ok, Prod.mk.injEq]

theorem saveCurrentIn_of_base (folder : Folder) (base : Settings)
    (found : store.base (folder.stateAt store.path) = .ok base) :
    store.saveCurrentIn folder e =
      saveIn { store with remembered := some base } folder (e.apply base).toValue := by
  rw [saveCurrentIn, (store.load_eq_ok_iff _ e _ _).2 ⟨base, found, rfl, rfl⟩]

/-- A save succeeds, puts the file where none was or another, and makes the store forget; or it
fails and leaves new folders at most. -/
theorem saveIn_cases (folder : Folder) (data : Value) :
    (∃ g written, folder.makeFolders store.path.parent = (g, none) ∧
      (g.stateAt store.path).replace (settingsContent data) = .ok written ∧
      store.saveIn folder data =
        ⟨g.put store.path (.file (settingsContent data)), store.forget, none⟩) ∨
    ∃ e, store.saveIn folder data =
      ⟨(folder.makeFolders store.path.parent).1, store, some e⟩ := by
  unfold saveIn
  split
  · rename_i g e made
    exact .inr ⟨e, by rw [made]⟩
  · rename_i g made
    split
    · exact .inr ⟨.tooLong, by rw [made]⟩
    · unfold saveData
      cases replaced : (g.stateAt store.path).replace (settingsContent data) with
      | error e => exact .inr ⟨store.refusal e, by rw [made]⟩
      | ok written =>
        obtain rfl := FileState.eq_file_of_replace replaced
        exact .inl ⟨g, _, made, replaced, rfl⟩

@[simp] theorem path_saveIn (folder : Folder) (data : Value) :
    (store.saveIn folder data).store.path = store.path := by
  rcases store.saveIn_cases folder data with ⟨g, written, -, -, done⟩ | ⟨e, failed⟩
  · rw [done]
    rfl
  · rw [failed]

end SettingsStore

/-- What the environment says wins where it counts, and nothing else changes. -/
structure EnvironmentSettings.Governs (e : EnvironmentSettings) (base s : Settings) : Prop where
  cwlVersion : s.document.cwlVersion =
    (e.cwlVersion.filter isCwlVersion).getD base.document.cwlVersion
  stepCwlVersion : s.document.stepCwlVersion =
    (e.stepCwlVersion.filter isCwlVersion).getD base.document.stepCwlVersion
  strict : s.compiler.strict = (e.strict.map isOn).getD base.compiler.strict
  rest : s = { base with
    document := { base.document with
      cwlVersion := s.document.cwlVersion
      stepCwlVersion := s.document.stepCwlVersion }
    compiler := { base.compiler with strict := s.compiler.strict } }

namespace EnvironmentSettings

theorem version_eq (given : Option String) (base : String) :
    version given base = (given.filter isCwlVersion).getD base := by
  cases given with
  | none => rfl
  | some v => by_cases counts : isCwlVersion v = true <;> simp [version, counts, Option.filter]

theorem isCwlVersion_version (given : Option String) (base : String)
    (valid : isCwlVersion base = true) : isCwlVersion (version given base) = true := by
  unfold version
  split
  · split
    · assumption
    · exact valid
  · exact valid

theorem governs_apply (e : EnvironmentSettings) (base : Settings) :
    e.Governs base (e.apply base) :=
  ⟨version_eq _ _, version_eq _ _, rfl, rfl⟩

theorem valid_apply (e : EnvironmentSettings) (base : Settings) (valid : base.document.Valid) :
    (e.apply base).document.Valid :=
  ⟨isCwlVersion_version _ _ valid.version, isCwlVersion_version _ _ valid.stepVersion⟩

end EnvironmentSettings

end PipelineCompiler
