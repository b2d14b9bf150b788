import PipelineCompiler.File.Folder
import PipelineCompiler.Proofs.OrderedMap

set_option autoImplicit false

namespace PipelineCompiler

/-- The path is short enough to look for something there, and so is every name on the way. -/
structure Path.Fits (p : Path) : Prop where
  whole : p.isTooLong = false
  names : ∀ place ∈ p.places, place.hasLongName = false

namespace Folder

variable (f : Folder)

theorem hasLongName_of_standing (p : Path) (long : f.standing p = .tooLong) :
    p.hasLongName = true := by
  unfold standing at long
  split at long
  · assumption
  · split at long
    · cases long
    · cases long
    · split at long <;> cases long

theorem stateAlong_ne_tooLong (places : List Path)
    (short : ∀ place ∈ places, place.hasLongName = false) : f.stateAlong places ≠ .tooLong := by
  induction places with
  | nil => simp [stateAlong]
  | cons p rest ih =>
    obtain ⟨first, others⟩ := List.forall_mem_cons.1 short
    have here : f.standing p ≠ .tooLong := by
      intro long
      rw [f.hasLongName_of_standing p long] at first
      cases first
    cases rest with
    | nil => exact here
    | cons q rest =>
      rw [stateAlong]
      · split
        · exact ih others
        · simp
        · exact here
      · simp

theorem stateAt_ne_tooLong (p : Path) (fits : p.Fits) : f.stateAt p ≠ .tooLong := by
  unfold stateAt
  split
  · simp
  · rw [fits.whole]
    exact f.stateAlong_ne_tooLong p.places fits.names

/-- Whatever is put at another place, a folder stays one. -/
theorem directory_of_insert (p q : Path) (e : Entry) (apart : q ≠ p)
    (directory : f.standing q = .directory) :
    standing { f with entries := f.entries.insert p e } q = .directory := by
  unfold standing at directory ⊢
  split at directory
  · cases directory
  · rename_i short
    rw [if_neg short, f.entries.get?_insert_of_ne p q e apart]
    split at directory
    · cases directory
    · rfl
    · split at directory
      · rename_i above
        have still : (q.isTop || (f.entries.insert p e).keys.any q.isAbove) = true := by
          simp only [Bool.or_eq_true, List.any_eq_true, OrderedMap.mem_keys_insert] at above ⊢
          rcases above with top | ⟨r, member, leads⟩
          · exact .inl top
          · exact .inr ⟨r, .inr member, leads⟩
        rw [if_pos still]
      · cases directory

theorem standing_insert_file (p : Path) (content : List UInt8) (short : p.hasLongName = false) :
    standing { f with entries := f.entries.insert p (.file content) } p = .file content := by
  simp [standing, short]

theorem standing_insert_directory (p : Path) (short : p.hasLongName = false) :
    standing { f with entries := f.entries.insert p .directory } p = .directory := by
  simp [standing, short]

theorem short_of_standing (p : Path) (seen : f.standing p ≠ .tooLong) : p.hasLongName = false := by
  by_contra long
  rw [Bool.not_eq_false] at long
  exact seen (by rw [standing, if_pos long])

/-- Behind folders a walk finds what stands at its end. -/
theorem stateAlong_of_directories (front : List Path) (last : Path)
    (directories : ∀ q ∈ front, f.standing q = .directory) :
    f.stateAlong (front ++ [last]) = f.standing last := by
  induction front with
  | nil => rfl
  | cons q front ih =>
    obtain ⟨here, others⟩ := List.forall_mem_cons.1 directories
    rw [List.cons_append, stateAlong, here]
    · exact ih others
    · simp

/-- Folders that are made where they are missing leave folders everywhere on the way. -/
theorem directories_of_makeFoldersAlong (places : List Path) (g : Folder)
    (made : f.makeFoldersAlong places = (g, none)) :
    (∀ q, f.standing q = .directory → g.standing q = .directory) ∧
      ∀ q ∈ places, g.standing q = .directory := by
  induction places generalizing f with
  | nil =>
    cases made
    exact ⟨fun q directory => directory, by simp⟩
  | cons p rest ih =>
    unfold makeFoldersAlong at made
    split at made
    · rename_i here
      obtain ⟨kept, others⟩ := ih f made
      exact ⟨kept, List.forall_mem_cons.2 ⟨kept p here, others⟩⟩
    · cases made
    · cases made
    · rename_i no_directory _ no_long
      obtain ⟨kept, others⟩ := ih _ made
      have here := f.standing_insert_directory p (f.short_of_standing p no_long)
      refine ⟨?_, List.forall_mem_cons.2 ⟨kept p here, others⟩⟩
      intro q directory
      have apart : q ≠ p := by
        rintro rfl
        exact no_directory directory
      exact kept q (f.directory_of_insert p q .directory apart directory)

theorem directories_of_makeFolders (p : Path) (g : Folder) (made : f.makeFolders p = (g, none)) :
    ∀ q ∈ p.places, g.standing q = .directory := by
  unfold makeFolders at made
  split at made
  · cases made
  · split at made
    · cases made
    · exact (f.directories_of_makeFoldersAlong p.places g made).2

/-- New folders are no files. -/
theorem files_makeFoldersAlong (places : List Path) :
    (f.makeFoldersAlong places).1.files = f.files := by
  induction places generalizing f with
  | nil => rfl
  | cons p rest ih =>
    unfold makeFoldersAlong
    split
    · exact ih f
    · rfl
    · rfl
    · rename_i no_directory no_file no_long
      have fresh : p ∉ f.entries.keys := by
        intro member
        rw [OrderedMap.mem_keys_iff_contains, OrderedMap.contains,
          Option.isSome_iff_exists] at member
        obtain ⟨e, found⟩ := member
        have short := f.short_of_standing p no_long
        cases e with
        | directory => exact no_directory (by simp [standing, short, found])
        | file content => exact no_file content (by simp [standing, short, found])
      rw [ih, files, OrderedMap.entries_insert_of_not_mem _ _ _ fresh, List.filterMap_append]
      exact List.append_nil _

theorem files_makeFolders (p : Path) : (f.makeFolders p).1.files = f.files := by
  unfold makeFolders
  split
  · rfl
  · split
    · rfl
    · exact f.files_makeFoldersAlong p.places

end Folder

namespace Path

theorem placesFrom_dropLast (start : Path) (names : List (List Char)) :
    placesFrom start names.dropLast = (placesFrom start names).dropLast := by
  induction names generalizing start with
  | nil => rfl
  | cons name rest ih =>
    cases rest with
    | nil => rfl
    | cons other rest =>
      rw [List.dropLast_cons_cons, placesFrom, ih]
      rfl

theorem places_parent (p : Path) : p.parent.places = p.places.dropLast :=
  placesFrom_dropLast _ _

end Path

namespace Folder

variable (f : Folder)

/-- A file put where the folders before it have been made is found there. -/
theorem stateAt_put (p : Path) (content : List UInt8) (written : FileState)
    (directories : ∀ q ∈ p.parent.places, f.standing q = .directory)
    (replaces : (f.stateAt p).replace content = .ok written) :
    (f.put p (.file content)).stateAt p = .file content := by
  unfold stateAt at replaces ⊢
  split at replaces
  · cases replaces
  split at replaces
  · cases replaces
  rename_i whole short
  rw [if_neg whole, if_neg short]
  rcases List.eq_nil_or_concat' p.places with none | ⟨front, last, split⟩
  · rw [none] at replaces
    cases replaces
  · have ends : endOf p = last := by simp [endOf, split]
    rw [Path.places_parent, split, List.dropLast_concat] at directories
    rw [split, f.stateAlong_of_directories front last directories] at replaces
    have free : f.standing last ≠ .directory := by
      intro here
      rw [here] at replaces
      cases replaces
    have room : f.standing last ≠ .tooLong := by
      intro here
      rw [here] at replaces
      cases replaces
    -- What is written to is no folder, and so none of the places on the way.
    rw [split, stateAlong_of_directories, put, ends]
    · exact f.standing_insert_file last content (f.short_of_standing last room)
    · intro q member
      rw [put, ends]
      apply f.directory_of_insert last q _ _ (directories q member)
      rintro rfl
      exact free (directories q member)

end Folder

end PipelineCompiler
