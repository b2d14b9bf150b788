import PipelineCompiler.Proofs.Persistence

set_option autoImplicit false

namespace PipelineCompiler

namespace Session

/-- Actions that write no files. -/
def Action.Harmless : Action → Prop
  | .construct | .load | .reload | .setEnvironment _ => True
  | .save _ | .saveCurrent | .rewrite _ => False

/-- The file holds the settings, and the store remembers them or nothing. -/
structure Keeps (s : Settings) (session : Session) : Prop where
  file : session.file.Holds s
  memory : ∀ t, session.store.remembered = some t → t = s

variable {s : Settings} {session : Session}

namespace Keeps

theorem base_eq (keeps : Keeps s session) : session.store.base session.file = .ok s := by
  rw [SettingsStore.base]
  cases memory : session.store.remembered with
  | some t => rw [keeps.memory t memory]
  | none =>
    obtain ⟨content, here, -⟩ := FileState.exists_content_of_holds keeps.file
    refine (SettingsStore.found_eq_ok_iff _ s).2 ⟨?_, .inl keeps.file⟩
    simp [here]

theorem construct (keeps : Keeps s session) : Keeps s (session.step .construct) := by
  refine ⟨keeps.file, ?_⟩
  intro t remembered
  cases remembered

theorem load (keeps : Keeps s session) : Keeps s (session.step .load) := by
  rw [session.step_load s keeps.base_eq]
  refine ⟨keeps.file, ?_⟩
  intro t remembered
  exact (Option.some.inj remembered).symm

theorem step (keeps : Keeps s session) (a : Action) (harmless : a.Harmless) :
    Keeps s (session.step a) := by
  cases a with
  | construct => exact keeps.construct
  | load => exact keeps.load
  -- A reload loads as a new store would.
  | reload => exact keeps.construct.load
  | setEnvironment e => exact ⟨keeps.file, keeps.memory⟩
  | _ => cases harmless

theorem run (keeps : Keeps s session) (actions : List Action)
    (harmless : ∀ a ∈ actions, a.Harmless) : Keeps s (session.run actions) := by
  induction actions generalizing session with
  | nil => exact keeps
  | cons a rest ih =>
    obtain ⟨here, later⟩ := List.forall_mem_cons.1 harmless
    exact ih (keeps.step a here) later

theorem answer_eq (keeps : Keeps s session) (look : Action)
    (asks : look = .load ∨ look = .reload) :
    session.answer look = some (.ok (session.environment.apply s)) := by
  rcases asks with rfl | rfl
  · exact session.answer_load s keeps.base_eq
  · exact (session.step .construct).answer_load s keeps.construct.base_eq

end Keeps

theorem keeps_save (sound : s.Sound)
    (done : (session.store.saveIn session.folder s.toValue).error = none) :
    Keeps s (session.step (.save s.toValue)) := by
  have written := SettingsStore.stateAt_of_saveIn session.store session.folder s.toValue done
  rcases session.store.saveIn_cases session.folder s.toValue with
    ⟨g, state, -, -, saved⟩ | ⟨e, failed⟩
  · refine ⟨?_, ?_⟩
    · rw [step, Session.saved, file, SettingsStore.path_saveIn, written]
      exact sound.holds_settingsContent
    · intro t remembered
      rw [step, Session.saved, saved] at remembered
      cases remembered
  · rw [failed] at done
    cases done

end Session

open Session in
/-- Settings that can be read from data and that a save has written are what every later load and
reload answers without an environment, if nothing but looking, new stores and changes of the
environment came between. -/
theorem saved_settings_return (data : Value) (keyed : data.WellKeyed) (s : Settings)
    (accepted : Settings.read data = .ok s) (session : Session)
    (done : (session.store.saveIn session.folder s.toValue).error = none)
    (actions : List Action) (harmless : ∀ a ∈ actions, a.Harmless)
    (quiet : ((session.step (.save s.toValue)).run actions).environment = .none) (look : Action)
    (asks : look = .load ∨ look = .reload) :
    ((session.step (.save s.toValue)).run actions).answer look = some (.ok s) := by
  have sound : s.Sound :=
    ⟨Settings.valid_of_read data s accepted,
      Settings.nodup_namespaces_of_read data keyed accepted⟩
  have keeps := (keeps_save sound done).run actions harmless
  rw [keeps.answer_eq look asks, quiet]
  rfl

/-- Settings with a name that has to be escaped, namespaces in an order of their own, and a word for
a truth value. -/
def labelledData : Value :=
  .object
    [("document", .object
      [("name", .str "\"σ\\\" \r\n😀"),
        ("namespaces", .object [("wf", .str "urn:wf"), ("", .str "é")]),
        ("schemas", .list [.str "b", .str "a"])]),
      ("compiler", .object [("strict", .str "ON")])]

def labelledSettings : Settings :=
  ⟨"1.0.0", ⟨"\"σ\\\" \r\n😀", "", "v1.0", "v1.2", ⟨[("wf", "urn:wf"), ("", "é")]⟩, ["b", "a"]⟩,
    ⟨true, true⟩⟩

theorem wellKeyed_labelledData : labelledData.WellKeyed := by
  have schemas : (Value.list [.str "b", .str "a"]).WellKeyed :=
    .list _ (by simp [Value.WellKeyed.str])
  have namespaces : (Value.object [("wf", .str "urn:wf"), ("", .str "é")]).WellKeyed :=
    .object _ (by decide) (by simp [Value.WellKeyed.str])
  have compiler : (Value.object [("strict", .str "ON")]).WellKeyed :=
    .object _ (by decide) (by simp [Value.WellKeyed.str])
  refine .object _ (by decide) ?_
  rw [List.forall_mem_cons, List.forall_mem_singleton]
  refine ⟨.object _ (by decide) ?_, compiler⟩
  simp only [List.forall_mem_cons]
  exact ⟨.str _, namespaces, schemas, by simp⟩

/-- A store that remembers the file of before saves, looks while the environment interferes, and
gives way to a new one. -/
theorem saved_settings_return_labelled :
    labelledData.WellKeyed ∧ Settings.read labelledData = .ok labelledSettings ∧
      (relaxedSession.store.saveIn relaxedSession.folder labelledSettings.toValue).error = none ∧
      ((relaxedSession.step (.save labelledSettings.toValue)).run
        [.load, .construct, .setEnvironment .none]).answer .load = some (.ok labelledSettings) := by
  have accepted : Settings.read labelledData = .ok labelledSettings := by decide +kernel
  have done : (relaxedSession.store.saveIn relaxedSession.folder
      labelledSettings.toValue).error = none := by decide +kernel
  refine ⟨wellKeyed_labelledData, accepted, done, ?_⟩
  refine saved_settings_return labelledData wellKeyed_labelledData labelledSettings accepted
    relaxedSession done _ ?_ ?_ .load (.inl rfl)
  · simp [Session.Action.Harmless]
  · decide +kernel

end PipelineCompiler
