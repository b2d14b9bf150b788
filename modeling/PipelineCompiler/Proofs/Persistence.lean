import PipelineCompiler.Proofs.Session
import PipelineCompiler.Proofs.SettingsText

set_option autoImplicit false

namespace PipelineCompiler

/-- Applied to these settings, what the environment says changes nothing. -/
structure EnvironmentSettings.Agrees (e : EnvironmentSettings) (s : Settings) : Prop where
  cwlVersion : ∀ v, e.cwlVersion = some v → isCwlVersion v = true → v = s.document.cwlVersion
  stepCwlVersion : ∀ v, e.stepCwlVersion = some v → isCwlVersion v = true →
    v = s.document.stepCwlVersion
  strict : ∀ text, e.strict = some text → isOn text = s.compiler.strict

namespace EnvironmentSettings

theorem version_eq_base_iff (given : Option String) (base : String) :
    version given base = base ↔ ∀ v, given = some v → isCwlVersion v = true → v = base := by
  cases given with
  | none => simp [version]
  | some v => by_cases counts : isCwlVersion v = true <;> simp [version, counts]

theorem apply_eq_self_iff (e : EnvironmentSettings) (s : Settings) :
    e.apply s = s ↔ e.Agrees s := by
  have strict : (e.strict.map isOn).getD s.compiler.strict = s.compiler.strict ↔
      ∀ text, e.strict = some text → isOn text = s.compiler.strict := by
    cases e.strict <;> simp
  constructor
  · intro same
    refine ⟨(version_eq_base_iff _ _).1 ?_, (version_eq_base_iff _ _).1 ?_, strict.1 ?_⟩
    · exact congrArg (fun s => s.document.cwlVersion) same
    · exact congrArg (fun s => s.document.stepCwlVersion) same
    · exact congrArg (fun s => s.compiler.strict) same
  · intro agrees
    rw [apply, (version_eq_base_iff _ _).2 agrees.cwlVersion,
      (version_eq_base_iff _ _).2 agrees.stepCwlVersion, strict.2 agrees.strict]

end EnvironmentSettings

namespace SettingsStore

variable (store : SettingsStore) (folder : Folder)

theorem stateAt_of_saveIn (data : Value) (done : (store.saveIn folder data).error = none) :
    (store.saveIn folder data).folder.stateAt store.path = .file (settingsContent data) := by
  rcases store.saveIn_cases folder data with ⟨g, written, made, replaced, saved⟩ | ⟨e, failed⟩
  · rw [saved]
    exact g.stateAt_put store.path _ written (folder.directories_of_makeFolders _ g made) replaced
  · rw [failed] at done
    cases done

/-- A save that fails may leave new folders, but no other files. -/
theorem files_of_saveIn_error (data : Value) (failed : (store.saveIn folder data).error ≠ none) :
    (store.saveIn folder data).folder.files = folder.files := by
  rcases store.saveIn_cases folder data with ⟨g, written, -, -, saved⟩ | ⟨e, same⟩
  · rw [saved] at failed
    exact absurd rfl failed
  · rw [same]
    exact folder.files_makeFolders store.path.parent

/-- Settings that are saved are found by every store that looks at the file then. -/
theorem found_of_saveIn (s : Settings) (sound : s.Sound)
    (done : (store.saveIn folder s.toValue).error = none) :
    found ((store.saveIn folder s.toValue).folder.stateAt store.path) = .ok s := by
  rw [stateAt_of_saveIn store folder _ done, found_eq_ok_iff]
  exact ⟨by simp, .inl sound.holds_settingsContent⟩

/-- A save of what loads now writes what a load with the same environment answers. -/
theorem load_of_saveCurrentIn (e : EnvironmentSettings) (base : Settings) (sound : base.Sound)
    (found : store.base (folder.stateAt store.path) = .ok base)
    (done : (store.saveCurrentIn folder e).error = none) :
    ((new store.path).load ((store.saveCurrentIn folder e).folder.stateAt store.path) .none).map
      Prod.fst = .ok (e.apply base) := by
  have saving := store.saveCurrentIn_of_base e folder base found
  rw [saving] at done ⊢
  have kept := found_of_saveIn _ folder _ (sound.apply e) done
  rw [((new store.path).load_eq_ok_iff _ .none _ _).2 ⟨_, kept, rfl, rfl⟩]
  rfl

theorem files_of_saveCurrentIn_error (e : EnvironmentSettings)
    (failed : (store.saveCurrentIn folder e).error ≠ none) :
    (store.saveCurrentIn folder e).folder.files = folder.files := by
  unfold saveCurrentIn at failed ⊢
  split
  · rename_i loaded
    rw [loaded] at failed
    exact files_of_saveIn_error _ folder _ failed
  · rfl

end SettingsStore

theorem Session.Remembers.sound {past : List Event} {s : Settings}
    (remembers : Remembers past (some s)) : s.Sound := by
  obtain ⟨file, -, given⟩ := remembers
  exact Settings.sound_of_gives given

theorem Session.Tracked.sound_base {path : Path} {past : List Event} {s : Session}
    (tracked : Tracked path past s) (base : Settings) (found : s.store.base s.file = .ok base) :
    base.Sound :=
  (remembers_of_load tracked.memory found).sound

open Session in
/-- After any actions, a save of what loads now leaves a new store without an environment not with
what the saving store would have found without one, but with that as the environment governs it.
Only a save that fails writes nothing, and only what the environment agrees with stays the same. -/
theorem saved_current_as_governed (path : Path) (fits : path.Fits) (folder : Folder)
    (environment : EnvironmentSettings) (actions : List Action) (s : Session)
    (reached : (start path folder environment).run actions = s) :
    ∃ base, (s.store.load s.file .none).map Prod.fst = .ok base ∧
      ((s.store.saveCurrentIn s.folder s.environment).error = none →
        ∃ kept,
          ((SettingsStore.new path).load
            ((s.store.saveCurrentIn s.folder s.environment).folder.stateAt path)
            .none).map Prod.fst = .ok kept ∧
          s.environment.Governs base kept ∧ (kept = base ↔ s.environment.Agrees base)) ∧
      ((s.store.saveCurrentIn s.folder s.environment).error ≠ none →
        (s.store.saveCurrentIn s.folder s.environment).folder.files = s.folder.files) := by
  have tracked := (tracked_start path folder environment).run fits actions
  rw [reached] at tracked
  obtain ⟨base, found⟩ := tracked.exists_base fits
  have sound := tracked.sound_base base found
  refine ⟨base, ?_, ?_, s.store.files_of_saveCurrentIn_error s.folder s.environment⟩
  · rw [(s.store.load_eq_ok_iff s.file .none _ _).2 ⟨base, found, rfl, rfl⟩]
    rfl
  · intro done
    obtain rfl := tracked.path
    exact ⟨s.environment.apply base,
      s.store.load_of_saveCurrentIn s.folder s.environment base sound found done,
      s.environment.governs_apply base, s.environment.apply_eq_self_iff base⟩

/-- The file of a user who asked for strict mode is saved anew, under an environment that switches
it off and has one version that is none. -/
def relaxedSession : Session :=
  (Session.start homeSettings strictFolder .none).run
    [.load, .setEnvironment ⟨some "v1.1", some "1.1", some "no"⟩]

theorem saved_current_as_governed_relaxed :
    homeSettings.Fits ∧ (relaxedSession.store.saveCurrentIn relaxedSession.folder
        relaxedSession.environment).error = none ∧
      ∃ kept,
        ((SettingsStore.new homeSettings).load
          ((relaxedSession.store.saveCurrentIn relaxedSession.folder
            relaxedSession.environment).folder.stateAt homeSettings)
          .none).map Prod.fst = .ok kept ∧
        kept.document.cwlVersion = "v1.1" ∧ kept.compiler.strict = false ∧
        kept ≠ strictSettings := by
  obtain ⟨base, -, saved, -⟩ :=
    saved_current_as_governed homeSettings homeSettings_fits strictFolder .none
      [.load, .setEnvironment ⟨some "v1.1", some "1.1", some "no"⟩] relaxedSession rfl
  have done : (relaxedSession.store.saveCurrentIn relaxedSession.folder
      relaxedSession.environment).error = none := by decide +kernel
  obtain ⟨kept, found, governs, -⟩ := saved done
  have version : kept.document.cwlVersion = "v1.1" := governs.cwlVersion
  have strict : kept.compiler.strict = false := governs.strict
  refine ⟨homeSettings_fits, done, kept, found, version, strict, ?_⟩
  rintro rfl
  cases strict

/-- The environment switches strict mode on while there is no file. -/
def strictSession : Session := Session.start homeSettings bareFolder ⟨none, none, some "true"⟩

/-- Saved, what the environment says stays for a new store without an environment. -/
theorem environment_persists :
    (strictSession.store.load strictSession.file .none).map Prod.fst = .ok .default ∧
      (strictSession.store.saveCurrentIn strictSession.folder strictSession.environment).error =
        none ∧
      ((SettingsStore.new homeSettings).load
        ((strictSession.store.saveCurrentIn strictSession.folder
          strictSession.environment).folder.stateAt homeSettings) .none).map Prod.fst =
            .ok strictSettings ∧
      strictSettings ≠ .default := by
  have done : (strictSession.store.saveCurrentIn strictSession.folder
      strictSession.environment).error = none := by decide +kernel
  have found : strictSession.store.base strictSession.file = .ok .default := by decide +kernel
  have strict : strictSession.environment.apply .default = strictSettings := by decide +kernel
  refine ⟨by decide +kernel, done, ?_, by decide⟩
  rw [← strict]
  exact strictSession.store.load_of_saveCurrentIn strictSession.folder strictSession.environment
    .default Settings.sound_default found done

end PipelineCompiler
