import PipelineCompiler.Proofs.Reading
import PipelineCompiler.Settings.Model

set_option autoImplicit false

namespace PipelineCompiler

/-- A header with versions, as every header that is read from settings. -/
structure Header.Valid (h : Header) : Prop where
  version : isCwlVersion h.cwlVersion = true
  stepVersion : isCwlVersion h.stepCwlVersion = true

theorem Model.isCwlVersion_of_readVersion (v : Value) (s : String)
    (found : readVersion v = .ok s) : isCwlVersion s = true := by
  unfold readVersion at found
  split at found
  · split at found
    · rename_i accepted
      cases found
      exact accepted
    · cases found
  · cases found

/-- A header is read from the fields of an object, each on its own. -/
theorem Model.readHeader_eq_ok_iff (v : Value) (h : Header) :
    readHeader v = .ok h ↔ ∃ fields, v = .object fields ∧
      optional ["name"] readText "" fields = .ok h.name ∧
      optional ["driver"] readText "" fields = .ok h.driver ∧
      optional ["cwl_version"] readVersion "v1.0" fields = .ok h.cwlVersion ∧
      optional ["step_cwl_version"] readVersion "v1.2" fields = .ok h.stepCwlVersion ∧
      optional ["namespaces"] readTexts defaultNamespaces fields = .ok h.namespaces ∧
      optional ["schemas"] (readList readText) defaultSchemas fields = .ok h.schemas := by
  rw [readHeader, readRecord_map_eq_ok_iff _ _ _
    (fun h => (h.name, h.driver, h.cwlVersion, h.stepCwlVersion, h.namespaces, h.schemas))
    (fun _ => rfl) (fun _ => rfl)]
  simp only [pair_eq_ok_iff]

theorem Model.readSettings_eq_ok_iff (v : Value) (s : Settings) :
    readSettings v = .ok s ↔ ∃ fields, v = .object fields ∧
      optional ["version"] readText "1.0.0" fields = .ok s.version ∧
      optional ["document"] readHeader .default fields = .ok s.document ∧
      optional ["compiler"] readCompilerOptions .default fields = .ok s.compiler := by
  rw [readSettings, readRecord_map_eq_ok_iff _ _ _ (fun s => (s.version, s.document, s.compiler))
    (fun _ => rfl) (fun _ => rfl)]
  simp only [pair_eq_ok_iff]

theorem Settings.read_eq_ok_iff (v : Value) (s : Settings) :
    read v = .ok s ↔ Model.readSettings v = .ok s :=
  Model.report_eq_ok_iff _ _ s

theorem Header.valid_default : Header.default.Valid := ⟨by decide, by decide⟩

theorem Header.valid_of_readHeader (v : Value) (h : Header) (read : Model.readHeader v = .ok h) :
    h.Valid := by
  have versioned : ∀ names default fields s, isCwlVersion default = true →
      Model.optional names Model.readVersion default fields = .ok s → isCwlVersion s = true := by
    intro names default fields s standard found
    rcases Model.optional_eq_ok names _ default fields s found with ⟨e, -, read⟩ | rfl
    · exact Model.isCwlVersion_of_readVersion e.2 s read
    · exact standard
  obtain ⟨fields, rfl, -, -, version, stepVersion, -⟩ := (Model.readHeader_eq_ok_iff v h).1 read
  exact ⟨versioned _ _ _ _ (by decide) version, versioned _ _ _ _ (by decide) stepVersion⟩

theorem Header.valid_of_read (v : Value) (h : Header) (made : Header.read v = .ok h) :
    h.Valid :=
  valid_of_readHeader v h ((Model.report_eq_ok_iff _ _ h).1 made)

theorem Settings.valid_of_read (v : Value) (s : Settings) (made : Settings.read v = .ok s) :
    s.document.Valid := by
  obtain ⟨fields, rfl, -, header, -⟩ :=
    (Model.readSettings_eq_ok_iff v s).1 ((Settings.read_eq_ok_iff v s).1 made)
  rcases Model.optional_eq_ok _ _ _ _ _ header with ⟨e, -, read⟩ | same
  · exact Header.valid_of_readHeader e.2 s.document read
  · rw [same]
    exact Header.valid_default

end PipelineCompiler
