import Mathlib.Data.List.DropRight
import PipelineCompiler.Proofs.Naming

set_option autoImplicit false

namespace PipelineCompiler

/-- The maximal runs of ASCII letters and digits: what the other characters leave between them. -/
def slugRuns (s : List Char) : List (List Char) :=
  (s.splitOnP fun c => !isSlugChar c).filter fun run => !run.isEmpty

def IsWord (w : List Char) : Prop := w ≠ [] ∧ ∀ c ∈ w, isSlugChar c = true

/-- One or more words with single low lines between them. -/
def IsSlug (s : String) : Prop :=
  ∃ words, words ≠ [] ∧ (∀ w ∈ words, IsWord w) ∧ s.toList = ['_'].intercalate words

/-- Every run of other characters becomes one low line; `gap` says that one is being read. -/
def collapse (gap : Bool) : List Char → List Char
  | [] => []
  | c :: rest =>
    if isSlugChar c then c :: collapse false rest
    else if gap then collapse true rest
    else '_' :: collapse true rest

/-- A text without the low lines at its ends. -/
def trimLow (s : List Char) : List Char := (s.dropWhile (· = '_')).rdropWhile (· = '_')

theorem isSlugChar_low : isSlugChar '_' = false := by decide

theorem ne_low_of_isSlugChar {c : Char} (fits : isSlugChar c = true) : c ≠ '_' := by
  rintro rfl
  rw [isSlugChar_low] at fits
  cases fits

theorem joinWords_eq_intercalate (words : List (List Char)) :
    joinWords words = ['_'].intercalate words := by
  fun_induction joinWords words with
  | case1 => rfl
  | case2 w => rw [List.intercalate_singleton]
  | case3 w rest more ih =>
    obtain ⟨v, rest, rfl⟩ := List.exists_cons_of_ne_nil more
    rw [List.intercalate_cons_cons, ih, List.append_assoc, List.singleton_append]

section Runs

variable (s : List Char)

theorem slugWordsFrom_eq (current : List Char) :
    slugWordsFrom current s =
      (s.splitOnPPrepend (fun c => !isSlugChar c) current).filter fun run => !run.isEmpty := by
  induction s generalizing current with
  | nil =>
    rw [slugWordsFrom, List.splitOnPPrepend_nil]
    cases current <;> simp
  | cons c rest ih =>
    rw [slugWordsFrom]
    by_cases fits : isSlugChar c = true
    · rw [if_pos fits, ih, List.splitOnPPrepend_cons_neg (by simp [fits])]
    · rw [if_neg fits, ih, List.splitOnPPrepend_cons_pos (by simp [fits]),
        List.splitOnPPrepend_nil_right]
      cases current <;> simp

theorem slugWords_eq : slugWords s = slugRuns s := by
  rw [slugWords, slugWordsFrom_eq, List.splitOnPPrepend_nil_right, slugRuns]

theorem isWord_of_mem_slugRuns (w : List Char) (among : w ∈ slugRuns s) : IsWord w := by
  constructor
  · simpa using (List.mem_filter.1 among).2
  · rw [← slugWords_eq] at among
    exact isSlugChar_of_mem_slugWordsFrom [] s (by simp) w among

theorem flatten_slugRuns : (slugRuns s).flatten = s.filter isSlugChar := by
  rw [slugRuns, List.flatten_filter_not_isEmpty]
  induction s with
  | nil => rfl
  | cons c rest ih =>
    rw [List.splitOnP_cons_eq_if_modifyHead]
    by_cases fits : isSlugChar c = true
    · obtain ⟨run, runs, cut⟩ := List.exists_cons_of_ne_nil (List.splitOnP_ne_nil
        (fun c => !isSlugChar c) rest)
      rw [cut] at ih ⊢
      simpa [fits] using ih
    · simpa [fits] using ih

theorem slugRuns_eq_nil_iff : slugRuns s = [] ↔ ∀ c ∈ s, isSlugChar c = false := by
  have kept : s.filter isSlugChar = [] ↔ ∀ c ∈ s, isSlugChar c = false := by
    simp [List.filter_eq_nil_iff]
  rw [← kept, ← flatten_slugRuns]
  constructor
  · intro none
    rw [none, List.flatten_nil]
  · intro empty
    rw [List.eq_nil_iff_forall_not_mem]
    intro w among
    exact (isWord_of_mem_slugRuns s w among).1 (List.flatten_eq_nil_iff.1 empty w among)

end Runs

theorem slugRuns_joinWords (words : List (List Char)) (full : ∀ w ∈ words, IsWord w) :
    slugRuns (joinWords words) = words := by
  have plain : ∀ w, IsWord w → ∀ c ∈ w, (!isSlugChar c) = false := by
    intro w word c inside
    rw [word.2 c inside]
    rfl
  fun_induction joinWords words with
  | case1 => rfl
  | case2 w =>
    have word := full w List.mem_cons_self
    rw [slugRuns, List.splitOnP_eq_singleton (plain w word)]
    simp [word.1]
  | case3 w rest _ ih =>
    obtain ⟨word, others⟩ := List.forall_mem_cons.1 full
    have later := ih others
    rw [slugRuns] at later ⊢
    rw [List.splitOnP_append_cons_of_forall_mem (plain w word) '_' (by simp [isSlugChar_low]),
      List.filter_cons, later]
    simp [word.1]

theorem slug_of_runs (name : String) (some : slugRuns name.toList ≠ []) :
    slug name = String.ofList (joinWords (slugRuns name.toList)) := by
  rw [slug, slugWords_eq]
  split
  · exact absurd ‹_› some
  · rfl

theorem slug_of_no_runs (name : String) (none : slugRuns name.toList = []) :
    slug name = "node" := by
  rw [slug, slugWords_eq, none]

theorem isSlug_ofList (words : List (List Char)) (some : words ≠ [])
    (full : ∀ w ∈ words, IsWord w) : IsSlug (String.ofList (joinWords words)) :=
  ⟨words, some, full, by rw [String.toList_ofList, joinWords_eq_intercalate]⟩

theorem isSlug_slug (name : String) : IsSlug (slug name) := by
  by_cases none : slugRuns name.toList = []
  · rw [slug_of_no_runs name none]
    have letters : "node".toList.all isSlugChar = true := by decide
    have word : IsWord "node".toList := ⟨by decide, List.all_eq_true.1 letters⟩
    exact isSlug_ofList ["node".toList] (by simp) (by simpa using word)
  · rw [slug_of_runs name none]
    exact isSlug_ofList _ none (isWord_of_mem_slugRuns _)

theorem slug_of_isSlug (s : String) (clean : IsSlug s) : slug s = s := by
  obtain ⟨words, some, full, spelled⟩ := clean
  rw [← joinWords_eq_intercalate] at spelled
  have runs : slugRuns s.toList = words := by
    rw [spelled, slugRuns_joinWords words full]
  rw [slug_of_runs s (runs ▸ some), runs, ← spelled, String.ofList_toList]

theorem slug_slug (name : String) : slug (slug name) = slug name :=
  slug_of_isSlug _ (isSlug_slug name)

/-- Sanitising keeps the words of a name that has any. -/
theorem slugRuns_slug (name : String) (some : slugRuns name.toList ≠ []) :
    slugRuns (slug name).toList = slugRuns name.toList := by
  rw [slug_of_runs name some, String.toList_ofList, slugRuns_joinWords]
  exact isWord_of_mem_slugRuns _

/-- With its own sanitiser as judge, a sanitised name is canonical. -/
theorem Catalog.stepId_ne_notCanonical (c : Catalog) (slugged : c.sanitize = slug) (n : Node)
    (name : String) : c.stepId n ≠ .error (.naming (.notCanonical name)) := by
  rw [stepId_eq, slugged, if_pos (slug_slug n.name)]
  split <;> simp

section Collapse

/-- What is dropped at the end of a text is dropped at the end of its last part, unless nothing is
left of that. -/
theorem rdropWhile_append {α : Type} (p : α → Bool) (a b : List α) :
    (a ++ b).rdropWhile p =
      if b.rdropWhile p = [] then a.rdropWhile p else a ++ b.rdropWhile p := by
  simp only [List.rdropWhile, List.reverse_append, List.dropWhile_append, List.reverse_eq_nil_iff,
    List.isEmpty_iff]
  split <;> simp

theorem rdropWhile_word (w : List Char) (word : IsWord w) : w.rdropWhile (· = '_') = w := by
  rw [List.rdropWhile_eq_self_iff]
  intro filled
  simpa using ne_low_of_isSlugChar (word.2 _ (List.getLast_mem filled))

theorem dropWhile_collapse_true (s : List Char) :
    (collapse true s).dropWhile (· = '_') = collapse true s := by
  induction s with
  | nil => rfl
  | cons c rest ih =>
    rw [collapse]
    by_cases fits : isSlugChar c = true
    · rw [if_pos fits, List.dropWhile_cons_of_neg]
      simpa using ne_low_of_isSlugChar fits
    · rw [if_neg fits, if_pos rfl, ih]

/-- Without its leading low line a text reads as if it stood behind a gap. -/
theorem dropWhile_collapse (s : List Char) :
    (collapse false s).dropWhile (· = '_') = collapse true s := by
  cases s with
  | nil => rfl
  | cons c rest =>
    rw [collapse, collapse]
    by_cases fits : isSlugChar c = true
    · rw [if_pos fits, if_pos fits, List.dropWhile_cons_of_neg]
      simpa using ne_low_of_isSlugChar fits
    · rw [if_neg fits, if_neg fits, if_pos rfl]
      simpa using dropWhile_collapse_true rest

theorem joinWords_eq_nil_iff (words : List (List Char)) (full : ∀ w ∈ words, IsWord w) :
    joinWords words = [] ↔ words = [] := by
  fun_cases joinWords words with
  | case1 => simp
  | case2 w => simpa using (full w List.mem_cons_self).1
  | case3 w rest more => simp

/-- Behind a gap the words that follow are left, and inside a word it goes on first. -/
theorem rdropWhile_collapse (s : List Char) :
    (collapse true s).rdropWhile (· = '_') = joinWords (slugWordsFrom [] s) ∧
      ∀ current, IsWord current.reverse →
        (current.reverse ++ collapse false s).rdropWhile (· = '_') =
          joinWords (slugWordsFrom current s) := by
  induction s with
  | nil =>
    refine ⟨rfl, fun current word => ?_⟩
    have some : current.isEmpty = false := by simpa using word.1
    rw [collapse, List.append_nil, rdropWhile_word _ word, slugWordsFrom, if_neg (by simp [some]),
      joinWords]
  | cons c rest ih =>
    obtain ⟨gap, inside⟩ := ih
    by_cases fits : isSlugChar c = true
    · simp only [collapse, slugWordsFrom, fits, ↓reduceIte]
      constructor
      · exact inside [c] ⟨by simp, by simpa using fits⟩
      · intro current word
        have longer : IsWord (c :: current).reverse := by
          refine ⟨by simp, fun d among => ?_⟩
          rw [List.reverse_cons, List.mem_append, List.mem_singleton] at among
          rcases among with old | rfl
          · exact word.2 d old
          · exact fits
        simpa using inside (c :: current) longer
    · simp only [collapse, slugWordsFrom, fits, Bool.false_eq_true, ↓reduceIte]
      refine ⟨gap, fun current word => ?_⟩
      have some : current ≠ [] := by simpa using word.1
      have words := isWord_of_mem_slugRuns rest
      rw [← slugWords_eq, slugWords] at words
      rw [if_neg (by simpa using some), rdropWhile_append, ← List.singleton_append,
        rdropWhile_append, gap, rdropWhile_word _ word]
      by_cases last : slugWordsFrom [] rest = []
      · simp [last, joinWords, List.rdropWhile_singleton]
      · have left := (joinWords_eq_nil_iff _ words).not.2 last
        obtain ⟨v, more, cut⟩ := List.exists_cons_of_ne_nil last
        rw [if_neg left, if_neg (by simp), cut]
        rfl

/-- Sanitising is collapsing and trimming; where nothing is left, the name is `node`. -/
theorem slug_eq_trimmed (name : String) :
    slug name = if trimLow (collapse false name.toList) = [] then "node"
      else String.ofList (trimLow (collapse false name.toList)) := by
  have trimmed : trimLow (collapse false name.toList) = joinWords (slugRuns name.toList) := by
    rw [trimLow, dropWhile_collapse, (rdropWhile_collapse name.toList).1, ← slugWords_eq, slugWords]
  have empty := joinWords_eq_nil_iff _ (isWord_of_mem_slugRuns name.toList)
  rw [trimmed]
  by_cases none : slugRuns name.toList = []
  · rw [if_pos (empty.2 none), slug_of_no_runs name none]
  · rw [if_neg (empty.not.2 none), slug_of_runs name none]

end Collapse

/-- Sanitising collapses and trims. Its results are the slugs, which are also the names that stay as
they are. What a name becomes has the words of the name if that has any, and is `node` otherwise;
and no step fails over the name of its node. -/
theorem slug_maps_onto_slugs (name : String) :
    (slug name = if trimLow (collapse false name.toList) = [] then "node"
      else String.ofList (trimLow (collapse false name.toList))) ∧
      IsSlug (slug name) ∧
      (slug name = name ↔ IsSlug name) ∧
      slug (slug name) = slug name ∧
      ((∃ other, slug other = name) ↔ IsSlug name) ∧
      ((∃ c ∈ name.toList, isSlugChar c = true) →
        slugRuns (slug name).toList = slugRuns name.toList) ∧
      ((∀ c ∈ name.toList, isSlugChar c = false) → slug name = "node") ∧
      ∀ plugins order n clean,
        (Catalog.mk plugins slug order).stepId n ≠ .error (.naming (.notCanonical clean)) := by
  refine ⟨slug_eq_trimmed name, isSlug_slug name, ⟨?_, slug_of_isSlug name⟩, slug_slug name,
    ⟨?_, ?_⟩, ?_, ?_, ?_⟩
  · intro fixed
    rw [← fixed]
    exact isSlug_slug name
  · rintro ⟨other, rfl⟩
    exact isSlug_slug other
  · intro clean
    exact ⟨name, slug_of_isSlug name clean⟩
  · rintro ⟨c, inside, fits⟩
    apply slugRuns_slug
    intro none
    rw [(slugRuns_eq_nil_iff _).1 none c inside] at fits
    cases fits
  · intro bare
    exact slug_of_no_runs name ((slugRuns_eq_nil_iff _).2 bare)
  · intro plugins order n clean
    exact Catalog.stepId_ne_notCanonical _ rfl n clean

/-- A name with every kind of character: letters beyond ASCII and low lines end a word. -/
theorem slug_maps_onto_slugs_accented :
    slug "__Über-Tool 3.1_é" = "ber_Tool_3_1" ∧
      slugRuns "ber_Tool_3_1".toList = slugRuns "__Über-Tool 3.1_é".toList ∧
      slug "***" = "node" := by
  have spelled : slug "__Über-Tool 3.1_é" = "ber_Tool_3_1" := by decide +kernel
  obtain ⟨-, -, -, -, -, runs, -⟩ := slug_maps_onto_slugs "__Über-Tool 3.1_é"
  obtain ⟨-, -, -, -, -, -, none, -⟩ := slug_maps_onto_slugs "***"
  rw [spelled] at runs
  have bare : ("***".toList.all fun c => !isSlugChar c) = true := by decide
  exact ⟨spelled, runs ⟨'b', by decide, by decide⟩, none (by simpa using bare)⟩

end PipelineCompiler
