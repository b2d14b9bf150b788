import PipelineCompiler.Proofs.JsonKeys
import PipelineCompiler.Proofs.JsonRoundTrip
import PipelineCompiler.Proofs.SettingsStore
import PipelineCompiler.Proofs.Utf8

set_option autoImplicit false

namespace PipelineCompiler

namespace Model

theorem readList_strings (texts : List String) : readList readText (.strings texts) = .ok texts :=
  readList_map readText .str texts fun _ _ => rfl

theorem readTexts_entries (texts : OrderedMap String String) :
    readTexts (.object (texts.entries.map fun e => (e.1, .str e.2))) = .ok texts := by
  have each : (texts.entries.map fun e => (e.1, Value.str e.2)).map
      (fun e => within e.1 ((readText e.2).map fun s => (e.1, s))) =
        texts.entries.map fun e => .ok e := by
    rw [List.map_map]
    rfl
  rw [readTexts, each, sequence_map_ok]
  rfl

theorem nodup_defaultNamespaces : defaultNamespaces.keys.Nodup := by decide

/-- Texts that are read keep their keys. -/
theorem keys_of_sequence (fields : List (String × Value)) (texts : List (String × String))
    (read : sequence (fields.map fun e => within e.1 ((readText e.2).map fun s => (e.1, s))) =
      .ok texts) : texts.map Prod.fst = fields.map Prod.fst := by
  rw [sequence_eq_ok_iff, List.forall₂_map_left_iff] at read
  refine map_eq_of_forall₂ Prod.fst Prod.fst ?_ read
  intro e entry made
  obtain ⟨text, -, rfl⟩ := (map_eq_ok _ _ entry).1 ((within_eq_ok_iff _ _ entry).1 made)
  rfl

theorem nodup_keys_of_readTexts (v : Value) (keyed : v.WellKeyed) (texts : OrderedMap String String)
    (read : readTexts v = .ok texts) : texts.keys.Nodup := by
  cases keyed with
  | object fields distinct each =>
    obtain ⟨entries, found, rfl⟩ := (map_eq_ok _ _ texts).1 read
    rw [OrderedMap.keys, keys_of_sequence fields entries found]
    exact distinct
  | _ => cases read

theorem nodup_namespaces_of_readHeader (v : Value) (keyed : v.WellKeyed) (h : Header)
    (read : readHeader v = .ok h) : h.namespaces.keys.Nodup := by
  obtain ⟨fields, rfl, -, -, -, -, given, -⟩ := (readHeader_eq_ok_iff v h).1 read
  rcases optional_eq_ok _ _ _ _ _ given with ⟨e, member, texts⟩ | same
  · cases keyed with
    | object _ _ each => exact nodup_keys_of_readTexts e.2 (each e member) h.namespaces texts
  · rw [same]
    exact nodup_defaultNamespaces

theorem readVersion_str (version : String) (valid : isCwlVersion version = true) :
    readVersion (.str version) = .ok version := by
  rw [readVersion, readText]
  exact if_pos valid

theorem readHeader_toValue (h : Header) (valid : h.Valid) : readHeader h.toValue = .ok h := by
  refine (readHeader_eq_ok_iff _ h).2 ⟨_, rfl, rfl, rfl, ?_, ?_, ?_, ?_⟩
  · exact congrArg (within _) (readVersion_str h.cwlVersion valid.version)
  · exact congrArg (within _) (readVersion_str h.stepCwlVersion valid.stepVersion)
  · exact congrArg (within _) (readTexts_entries h.namespaces)
  · exact congrArg (within _) (readList_strings h.schemas)

end Model

theorem Value.textual_strings (texts : List String) : (strings texts).Textual := by
  refine .list _ ?_
  rw [List.forall_mem_map]
  exact fun s _ => .str s

theorem Header.textual_toValue (h : Header) (distinct : h.namespaces.keys.Nodup) :
    h.toValue.Textual := by
  have namespaces :
      (Value.object (h.namespaces.entries.map fun e => (e.1, .str e.2))).Textual := by
    refine .object _ ?_ ?_
    · rw [List.map_map]
      exact distinct
    · rw [List.forall_mem_map]
      exact fun e _ => .str e.2
  refine .object _ (by simp) ?_
  simp only [List.forall_mem_cons]
  exact ⟨.str _, .str _, .str _, .str _, namespaces, Value.textual_strings _, by simp⟩

theorem CompilerOptions.textual_toValue (o : CompilerOptions) : o.toValue.Textual := by
  refine .object _ (by simp) ?_
  simp only [List.forall_mem_cons]
  exact ⟨.bool _, .bool _, by simp⟩

namespace Settings

/-- What every settings file that can be read leads to: versions, and namespaces with names of their
own. -/
structure Sound (s : Settings) : Prop where
  versions : s.document.Valid
  namespaces : s.document.namespaces.keys.Nodup

variable {s : Settings}

theorem read_toValue (versions : s.document.Valid) : read s.toValue = .ok s := by
  rw [read_eq_ok_iff, Model.readSettings_eq_ok_iff]
  refine ⟨_, rfl, rfl, ?_, rfl⟩
  exact congrArg (Model.within _) (Model.readHeader_toValue s.document versions)

theorem textual_toValue (distinct : s.document.namespaces.keys.Nodup) : s.toValue.Textual := by
  refine .object _ (by simp) ?_
  simp only [List.forall_mem_cons]
  exact ⟨.str _, s.document.textual_toValue distinct, s.compiler.textual_toValue, by simp⟩

/-- The content written for settings is a settings file that holds them. -/
theorem Sound.holds_settingsContent (sound : s.Sound) :
    FileState.Holds (.file (settingsContent s.toValue)) s := by
  have textual := textual_toValue sound.namespaces
  have plain : '\r' ∉ (Json.encodeIndented s.toValue).toList := by
    rw [Json.encodeIndented, String.toList_ofList]
    exact Json.return_not_mem_indented textual 0
  exact ⟨_, _, _, rfl, textOfContent_encode _ plain, Json.decode_encodeIndented textual,
    read_toValue sound.versions⟩

theorem sound_default : Settings.default.Sound :=
  ⟨Header.valid_default, Model.nodup_defaultNamespaces⟩

theorem nodup_namespaces_of_read (v : Value) (keyed : v.WellKeyed) (made : read v = .ok s) :
    s.document.namespaces.keys.Nodup := by
  obtain ⟨fields, rfl, -, header, -⟩ :=
    (Model.readSettings_eq_ok_iff v s).1 ((read_eq_ok_iff v s).1 made)
  rcases Model.optional_eq_ok _ _ _ _ _ header with ⟨e, member, found⟩ | same
  · cases keyed with
    | object _ _ each =>
      exact Model.nodup_namespaces_of_readHeader e.2 (each e member) s.document found
  · rw [same]
    exact sound_default.namespaces

theorem sound_of_gives {file : FileState} (given : file.Gives s) : s.Sound := by
  refine ⟨valid_of_gives given, ?_⟩
  rcases given with ⟨content, text, fields, -, -, decoded, made⟩ | ⟨-, rfl⟩
  · exact nodup_namespaces_of_read _ (Json.wellKeyed_of_decode text _ decoded) made
  · exact sound_default.namespaces

theorem Sound.apply (sound : s.Sound) (e : EnvironmentSettings) : (e.apply s).Sound :=
  ⟨EnvironmentSettings.valid_apply e s sound.versions, sound.namespaces⟩

end Settings

end PipelineCompiler
