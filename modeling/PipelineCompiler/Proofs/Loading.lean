import PipelineCompiler.Load
import PipelineCompiler.Proofs.Utf8

set_option autoImplicit false

/- Every stage of a load reports its failures with the path of the file, except that bytes which are
no text, and texts beyond the limits of the reader, are reported without it. So a load ends with a
result or an error about its file just when the file is legible. -/
namespace PipelineCompiler

/-- The text of a file, with line feeds for all line ends. -/
def linesOf (text : String) : String := String.ofList (Text.unifyLineEnds text.toList)

theorem FileState.exists_text_iff (text : String) (P : String → Prop) :
    (∃ other, FileState.file (Text.Utf8.encode text) = .file (Text.Utf8.encode other) ∧ P other) ↔
      P text := by
  constructor
  · rintro ⟨other, same, holds⟩
    obtain rfl := Text.Utf8.encode_injective (FileState.file.inj same)
    exact holds
  · exact fun holds => ⟨text, rfl, holds⟩

theorem ne_encode_of_broken {content : List UInt8} {fault : Text.Utf8.Fault}
    (broken : Text.Utf8.decode content = .error fault) (text : String) :
    content ≠ Text.Utf8.encode text := by
  rintro rfl
  rw [Text.Utf8.decode_encode] at broken
  cases broken

section Load

variable [Json.Dialect]

namespace FileState

/-- What stands at a path can be looked at, and if it is a file it holds text with no number that is
too long, and nothing nested too deep. -/
def Legible : FileState → Prop
  | .file content => ∃ text, content = Text.Utf8.encode text ∧
    ∀ failure, Json.decode (linesOf text) = .error failure → failure.fault.isLimit = false
  | .malformed => False
  | _ => True

/-- The file holds JSON with this data. -/
def HoldsData (file : FileState) (data : Value) : Prop :=
  ∃ text, file = .file (Text.Utf8.encode text) ∧ Json.decode (linesOf text) = .ok data

def HoldsGraph (file : FileState) (g : Graph) : Prop :=
  ∃ data, file.HoldsData data ∧ Graph.read (graphData data) = .ok g

def HoldsCatalog (file : FileState) (plugins : List Plugin) : Prop :=
  ∃ data items, file.HoldsData data ∧ catalogData data = .list items ∧
    readPlugins items = .ok plugins

end FileState

/-- A load gives a result, or an error that says which file it is about. -/
def Reported {α : Type} (path : String) (r : Except LoadError α) : Prop :=
  (∃ a, r = .ok a) ∨ ∃ fault, r = .error (.failed path fault)

/-- A load is reported when the file is legible, fails without a path where its bytes are no text or
its text is beyond the limits, and gives the results that the file holds. -/
structure EndsAsLegible {α : Type} (path : String) (file : FileState) (r : Except LoadError α)
    (holds : α → Prop) : Prop where
  reported : Reported path r ↔ file.Legible
  notText : ∀ fault, r = .error (.notText fault) ↔
    ∃ content, file = .file content ∧ Text.Utf8.decode content = .error fault
  beyond : ∀ failure, r = .error (.beyond failure) ↔
    ∃ text, file = .file (Text.Utf8.encode text) ∧
      Json.decode (linesOf text) = .error failure ∧ failure.fault.isLimit = true
  result : ∀ a, r = .ok a ↔ holds a

/-- What reading the data of a file comes to, by the first stage that fails. -/
inductive DataReading (path : String) : FileState → Except LoadError Value → Prop where
  | malformed : DataReading path .malformed (.error .malformedPath)
  | unreadable (file : FileState) (e : OpenError) (closed : file.contentOf = .error e)
    (formed : file ≠ .malformed) :
    DataReading path file (.error (.failed path (.unreadable e)))
  | notText (content : List UInt8) (fault : Text.Utf8.Fault)
    (broken : Text.Utf8.decode content = .error fault) :
    DataReading path (.file content) (.error (.notText fault))
  | beyond (text : String) (failure : Json.Failure)
    (refused : Json.decode (linesOf text) = .error failure)
    (limit : failure.fault.isLimit = true) :
    DataReading path (.file (Text.Utf8.encode text)) (.error (.beyond failure))
  | notJson (text : String) (failure : Json.Failure)
    (refused : Json.decode (linesOf text) = .error failure)
    (ordinary : failure.fault.isLimit = false) :
    DataReading path (.file (Text.Utf8.encode text)) (.error (.failed path (.notJson failure)))
  | data (text : String) (data : Value) (decoded : Json.decode (linesOf text) = .ok data) :
    DataReading path (.file (Text.Utf8.encode text)) (.ok data)

theorem dataReading_file (path : String) (content : List UInt8) :
    DataReading path (.file content) (readData path (.file content)) := by
  simp only [readData, FileState.contentOf, textOfContent]
  cases read : Text.Utf8.decode content with
  | error fault => exact .notText content fault read
  | ok text =>
    obtain rfl := (Text.Utf8.decode_eq_ok_iff content text).1 read
    simp only [Except.map]
    cases decoded : Json.decode (linesOf text) with
    | error failure =>
      rw [linesOf] at decoded
      rw [decoded]
      cases limit : failure.fault.isLimit with
      | true => simpa [limit] using .beyond text failure decoded limit
      | false => simpa [limit] using .notJson text failure decoded limit
    | ok data =>
      rw [linesOf] at decoded
      rw [decoded]
      exact .data text data decoded

theorem dataReading (path : String) (file : FileState) :
    DataReading path file (readData path file) := by
  cases file with
  | malformed => exact .malformed
  | file content => exact dataReading_file path content
  | absent => exact .unreadable .absent .absent rfl (by simp)
  | directory => exact .unreadable .directory .directory rfl (by simp)
  | blocked => exact .unreadable .blocked .blocked rfl (by simp)
  | tooLong => exact .unreadable .tooLong .tooLong rfl (by simp)

namespace FileState

theorem legible_of_contentOf_error {file : FileState} {e : OpenError}
    (closed : file.contentOf = .error e) (formed : file ≠ .malformed) : file.Legible := by
  cases file with
  | malformed => exact absurd rfl formed
  | file content => cases closed
  | _ => trivial

theorem legible_encode_iff (text : String) : Legible (.file (Text.Utf8.encode text)) ↔
    ∀ failure, Json.decode (linesOf text) = .error failure → failure.fault.isLimit = false := by
  rw [← exists_text_iff text fun text =>
    ∀ failure, Json.decode (linesOf text) = .error failure → failure.fault.isLimit = false]
  simp only [Legible, FileState.file.injEq]

theorem not_legible_of_broken {content : List UInt8} {fault : Text.Utf8.Fault}
    (broken : Text.Utf8.decode content = .error fault) : ¬ Legible (.file content) := by
  rintro ⟨text, same, -⟩
  exact ne_encode_of_broken broken text same

end FileState

namespace DataReading

variable {path : String} {file : FileState} {r : Except LoadError Value}

theorem reported_iff (reading : DataReading path file r) : Reported path r ↔ file.Legible := by
  cases reading with
  | malformed => simp [Reported, FileState.Legible]
  | unreadable _ e closed formed =>
    simp [Reported, FileState.legible_of_contentOf_error closed formed]
  | notText content fault broken =>
    simp [Reported, FileState.not_legible_of_broken broken]
  | beyond text failure refused limit =>
    simp [Reported, FileState.legible_encode_iff, refused, limit]
  | notJson text failure refused ordinary =>
    simp [Reported, FileState.legible_encode_iff, refused, ordinary]
  | data text data decoded => simp [Reported, FileState.legible_encode_iff, decoded]

theorem notText_iff (reading : DataReading path file r) (fault : Text.Utf8.Fault) :
    r = .error (.notText fault) ↔
      ∃ content, file = .file content ∧ Text.Utf8.decode content = .error fault := by
  cases reading with
  | malformed => simp
  | unreadable _ e closed formed =>
    cases file with
    | file content => cases closed
    | _ => simp
  | notText content fault' broken => simp [broken]
  | beyond text failure refused limit => simp [Text.Utf8.decode_encode]
  | notJson text failure refused ordinary => simp [Text.Utf8.decode_encode]
  | data text data decoded => simp [Text.Utf8.decode_encode]

theorem beyond_iff (reading : DataReading path file r) (failure : Json.Failure) :
    r = .error (.beyond failure) ↔
      ∃ text, file = .file (Text.Utf8.encode text) ∧
        Json.decode (linesOf text) = .error failure ∧ failure.fault.isLimit = true := by
  cases reading with
  | malformed => simp
  | unreadable _ e closed formed =>
    cases file with
    | file content => cases closed
    | _ => simp
  | notText content fault broken => simp [ne_encode_of_broken broken]
  | beyond text failure' refused limit =>
    rw [FileState.exists_text_iff, refused]
    simp only [Except.error.injEq, LoadError.beyond.injEq, iff_self_and]
    rintro rfl
    exact limit
  | notJson text failure' refused ordinary =>
    rw [FileState.exists_text_iff, refused]
    simp only [Except.error.injEq, reduceCtorEq, false_iff, not_and, Bool.not_eq_true]
    rintro rfl
    exact ordinary
  | data text data decoded =>
    rw [FileState.exists_text_iff, decoded]
    simp

theorem result_iff (reading : DataReading path file r) (data : Value) :
    r = .ok data ↔ file.HoldsData data := by
  rw [FileState.HoldsData]
  cases reading with
  | malformed => simp
  | unreadable _ e closed formed =>
    cases file with
    | file content => cases closed
    | _ => simp
  | notText content fault broken => simp [ne_encode_of_broken broken]
  | beyond text failure refused limit =>
    rw [FileState.exists_text_iff, refused]
    simp
  | notJson text failure refused ordinary =>
    rw [FileState.exists_text_iff, refused]
    simp
  | data text data' decoded =>
    rw [FileState.exists_text_iff, decoded]
    simp

end DataReading

end Load

section Stage

variable {α : Type} (path : String) (stage : Value → Except LoadError α)
  (reports : ∀ data, Reported path (stage data))

include reports

/-- A stage that reports its own failures adds none without a path. -/
theorem bind_eq_error_of_reports (r : Except LoadError Value) (e : LoadError)
    (pathless : ∀ fault, e ≠ .failed path fault) : r >>= stage = .error e ↔ r = .error e := by
  rw [bind_eq_error, or_iff_left]
  rintro ⟨data, -, failed⟩
  rcases reports data with ⟨a, made⟩ | ⟨fault, made⟩
  · rw [made] at failed
    cases failed
  · rw [made] at failed
    exact pathless fault (Except.error.inj failed).symm

theorem reported_bind (r : Except LoadError Value) :
    Reported path (r >>= stage) ↔ Reported path r := by
  cases r with
  | error e => simp [Reported, bind, Except.bind]
  | ok data => simpa [Reported] using reports data

/-- A stage that reports its own failures ends as the data before it. -/
theorem endsAsLegible_bind [Json.Dialect] (file : FileState) :
    EndsAsLegible path file (readData path file >>= stage)
      fun a => ∃ data, file.HoldsData data ∧ stage data = .ok a := by
  have reading := dataReading path file
  refine ⟨?_, ?_, ?_, ?_⟩
  · rw [reported_bind path stage reports, reading.reported_iff]
  · intro fault
    rw [bind_eq_error_of_reports path stage reports _ _ (by simp), reading.notText_iff]
  · intro failure
    rw [bind_eq_error_of_reports path stage reports _ _ (by simp), reading.beyond_iff]
  · intro a
    simp only [bind_eq_ok, reading.result_iff]

end Stage

theorem reported_mapError {α ε : Type} (path : String) (r : Except ε α) (fault : ε → LoadFault) :
    Reported path (r.mapError fun e => .failed path (fault e)) := by
  cases r with
  | error e => exact .inr ⟨fault e, rfl⟩
  | ok a => exact .inl ⟨a, rfl⟩

theorem loadGraph_endsAsLegible [Json.Dialect] (path : String) (file : FileState) :
    EndsAsLegible path file (loadGraph path file) file.HoldsGraph := by
  have ends := endsAsLegible_bind path
    (fun data => (Graph.read (graphData data)).mapError fun report =>
      .failed path (.invalidGraph report))
    (fun _ => reported_mapError path _ _) file
  refine ⟨ends.reported, ends.notText, ends.beyond, fun g => (ends.result g).trans ?_⟩
  simp only [FileState.HoldsGraph, mapError_eq_ok]

def pluginsOfData (path : String) (data : Value) : Except LoadError (List Plugin) :=
  match catalogData data with
  | .list items => (readPlugins items).mapError fun report => .failed path (.invalidPlugin report)
  | _ => .error (.failed path .noCatalog)

theorem reported_pluginsOfData (path : String) (data : Value) :
    Reported path (pluginsOfData path data) := by
  unfold pluginsOfData
  split
  · exact reported_mapError path _ _
  · exact .inr ⟨.noCatalog, rfl⟩

theorem pluginsOfData_eq_ok_iff (path : String) (data : Value) (plugins : List Plugin) :
    pluginsOfData path data = .ok plugins ↔
      ∃ items, catalogData data = .list items ∧ readPlugins items = .ok plugins := by
  unfold pluginsOfData
  split
  · rename_i items listed
    simp [mapError_eq_ok, listed]
  · rename_i other
    constructor
    · intro made
      cases made
    · rintro ⟨items, listed, -⟩
      exact absurd listed (other items)

theorem loadPlugins_endsAsLegible [Json.Dialect] (path : String) (file : FileState) :
    EndsAsLegible path file (loadPlugins path file) file.HoldsCatalog := by
  have ends := endsAsLegible_bind path (pluginsOfData path) (reported_pluginsOfData path) file
  refine ⟨ends.reported, ends.notText, ends.beyond, fun plugins => (ends.result plugins).trans ?_⟩
  simp only [FileState.HoldsCatalog, pluginsOfData_eq_ok_iff, exists_and_left]

/-- Whatever stands at a path that can be looked at, the loading of a pipeline or of a catalog ends
with what the file holds or with an error that has the path, unless the file's bytes are no text or
its text is beyond the limits of the reader. -/
theorem loads_end_as_legible [Json.Dialect] (path : String) (file : FileState) :
    EndsAsLegible path file (loadGraph path file) file.HoldsGraph ∧
      EndsAsLegible path file (loadPlugins path file) file.HoldsCatalog :=
  ⟨loadGraph_endsAsLegible path file, loadPlugins_endsAsLegible path file⟩

/-- A byte that starts no character stops both without a word about the file. -/
theorem stray_byte_is_not_reported :
    loadGraph "input.json" (.file [0xFF]) = .error (.notText ⟨0xFF, 0, 1, .startByte⟩) ∧
      ¬ Reported "input.json" (loadGraph "input.json" (.file [0xFF])) ∧
      ¬ Reported "input.json" (loadPlugins "input.json" (.file [0xFF])) := by
  have graph : loadGraph "input.json" (.file [0xFF]) =
      .error (.notText ⟨0xFF, 0, 1, .startByte⟩) := rfl
  have plugins : loadPlugins "input.json" (.file [0xFF]) =
      .error (.notText ⟨0xFF, 0, 1, .startByte⟩) := rfl
  rw [graph, plugins]
  exact ⟨rfl, by simp [Reported], by simp [Reported]⟩

end PipelineCompiler
