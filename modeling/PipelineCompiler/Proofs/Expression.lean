import PipelineCompiler.Proofs.References

set_option autoImplicit false

namespace PipelineCompiler

inductive Expression where
  | literal (text : String)
  /-- One decimal digit of any script. -/
  | digit
  /-- One character, but not this one. -/
  | otherThan (c : Char)
  /-- The start of the text. -/
  | start
  /-- The end of the text, or the place before a line feed that ends it. -/
  | finish
  | andThen (first second : Expression)
  | either (first second : Expression)
  | group (inner : Expression)
  | optional (inner : Expression)
  /-- Once or more often. -/
  | repeated (inner : Expression)
  deriving Repr, DecidableEq

namespace Expression

def isReserved (c : Char) : Bool :=
  ['\\', '.', '[', ']', '(', ')', '*', '+', '?', '^', '$', '|', '\x7b', '\x7d'].contains c

def escape (s : String) : String :=
  String.ofList (s.toList.flatMap fun c => if isReserved c then ['\\', c] else [c])

/-- How an expression is written. There are no brackets but those of groups. -/
def text : Expression → String
  | .literal s => escape s
  | .digit => "\\d"
  | .otherThan c => "[^" ++ String.singleton c ++ "]"
  | .start => "^"
  | .finish => "$"
  | .andThen first second => first.text ++ second.text
  | .either first second => first.text ++ "|" ++ second.text
  | .group inner => "(" ++ inner.text ++ ")"
  | .optional inner => inner.text ++ "?"
  | .repeated inner => inner.text ++ "+"

/-- An expression describes a part of a text, which stands between what is before and after it. -/
inductive Spans : Expression → List Char → List Char → List Char → Prop
  | literal {s : String} {before after : List Char} : Spans (.literal s) before s.toList after
  | digit {before after : List Char} (c : Char) (decimal : Text.isDecimalDigit c = true) :
      Spans .digit before [c] after
  | otherThan {c : Char} {before after : List Char} (d : Char) (apart : d ≠ c) :
      Spans (.otherThan c) before [d] after
  | start {after : List Char} : Spans .start [] [] after
  | finish {before after : List Char} (ends : after = [] ∨ after = ['\n']) :
      Spans .finish before [] after
  | andThen {first second : Expression} {before xs ys after : List Char}
      (one : Spans first before xs (ys ++ after)) (two : Spans second (before ++ xs) ys after) :
      Spans (.andThen first second) before (xs ++ ys) after
  | eitherLeft {first second : Expression} {before xs after : List Char}
      (one : Spans first before xs after) : Spans (.either first second) before xs after
  | eitherRight {first second : Expression} {before xs after : List Char}
      (two : Spans second before xs after) : Spans (.either first second) before xs after
  | group {inner : Expression} {before xs after : List Char} (spans : Spans inner before xs after) :
      Spans (.group inner) before xs after
  | optionalNone {inner : Expression} {before after : List Char} :
      Spans (.optional inner) before [] after
  | optionalSome {inner : Expression} {before xs after : List Char}
      (spans : Spans inner before xs after) : Spans (.optional inner) before xs after
  | repeatedOnce {inner : Expression} {before xs after : List Char}
      (spans : Spans inner before xs after) : Spans (.repeated inner) before xs after
  | repeatedMore {inner : Expression} {before xs ys after : List Char}
      (one : Spans inner before xs (ys ++ after))
      (more : Spans (.repeated inner) (before ++ xs) ys after) :
      Spans (.repeated inner) before (xs ++ ys) after

def FoundIn (e : Expression) (s : String) : Prop :=
  ∃ before found after, s.toList = before ++ found ++ after ∧ e.Spans before found after

section Spans

variable {first second inner : Expression} {before found after : List Char}

theorem spans_literal_iff (s : String) :
    (literal s).Spans before found after ↔ found = s.toList := by
  constructor
  · intro spans
    cases spans
    rfl
  · rintro rfl
    exact .literal

theorem spans_start_iff : start.Spans before found after ↔ before = [] ∧ found = [] := by
  constructor
  · intro spans
    cases spans
    exact ⟨rfl, rfl⟩
  · rintro ⟨rfl, rfl⟩
    exact .start

theorem spans_finish_iff :
    finish.Spans before found after ↔ found = [] ∧ (after = [] ∨ after = ['\n']) := by
  constructor
  · intro spans
    cases spans with
    | finish ends => exact ⟨rfl, ends⟩
  · rintro ⟨rfl, ends⟩
    exact .finish ends

theorem spans_andThen_iff : (first.andThen second).Spans before found after ↔
    ∃ xs ys, found = xs ++ ys ∧ first.Spans before xs (ys ++ after) ∧
      second.Spans (before ++ xs) ys after := by
  constructor
  · intro spans
    cases spans with
    | andThen one two => exact ⟨_, _, rfl, one, two⟩
  · rintro ⟨xs, ys, rfl, one, two⟩
    exact .andThen one two

theorem spans_either_iff : (first.either second).Spans before found after ↔
    first.Spans before found after ∨ second.Spans before found after := by
  constructor
  · intro spans
    cases spans with
    | eitherLeft one => exact .inl one
    | eitherRight two => exact .inr two
  · rintro (one | two)
    · exact .eitherLeft one
    · exact .eitherRight two

theorem spans_group_iff :
    (group inner).Spans before found after ↔ inner.Spans before found after := by
  constructor
  · intro spans
    cases spans with
    | group spans => exact spans
  · exact .group

theorem spans_optional_iff : (optional inner).Spans before found after ↔
    found = [] ∨ inner.Spans before found after := by
  constructor
  · intro spans
    cases spans with
    | optionalNone => exact .inl rfl
    | optionalSome spans => exact .inr spans
  · rintro (rfl | spans)
    · exact .optionalNone
    · exact .optionalSome spans

theorem spans_repeated_iff : (repeated inner).Spans before found after ↔
    inner.Spans before found after ∨ ∃ xs ys, found = xs ++ ys ∧
      inner.Spans before xs (ys ++ after) ∧ (repeated inner).Spans (before ++ xs) ys after := by
  constructor
  · intro spans
    cases spans with
    | repeatedOnce spans => exact .inl spans
    | repeatedMore one more => exact .inr ⟨_, _, rfl, one, more⟩
  · rintro (spans | ⟨xs, ys, rfl, one, more⟩)
    · exact .repeatedOnce spans
    · exact .repeatedMore one more

end Spans

/-- The expression describes single characters, wherever they stand. -/
def IsClass (e : Expression) (p : Char → Bool) : Prop :=
  ∀ before found after, e.Spans before found after ↔ ∃ c, found = [c] ∧ p c = true

theorem isClass_digit : digit.IsClass Text.isDecimalDigit := by
  intro before found after
  constructor
  · intro spans
    cases spans with
    | digit c decimal => exact ⟨c, rfl, decimal⟩
  · rintro ⟨c, rfl, decimal⟩
    exact .digit c decimal

theorem isClass_otherThan (c : Char) : (otherThan c).IsClass (· ≠ c) := by
  intro before found after
  constructor
  · intro spans
    cases spans with
    | otherThan d apart => exact ⟨d, rfl, decide_eq_true apart⟩
  · rintro ⟨d, rfl, apart⟩
    exact .otherThan d (of_decide_eq_true apart)

/-- Repeated, a class describes what is not empty and has no other characters. -/
theorem IsClass.spans_repeated_iff {e : Expression} {p : Char → Bool} (isClass : e.IsClass p)
    (before found after : List Char) :
    (repeated e).Spans before found after ↔ found ≠ [] ∧ ∀ c ∈ found, p c = true := by
  induction found generalizing before with
  | nil =>
    rw [Expression.spans_repeated_iff, isClass]
    constructor
    · rintro (⟨c, none, -⟩ | ⟨xs, ys, none, one, -⟩)
      · cases none
      · obtain ⟨c, rfl, -⟩ := (isClass _ _ _).1 one
        cases none
    · rintro ⟨full, -⟩
      exact absurd rfl full
  | cons c rest ih =>
    rw [Expression.spans_repeated_iff, isClass, List.forall_mem_cons]
    constructor
    · rintro (⟨d, same, fits⟩ | ⟨xs, ys, same, one, more⟩)
      · cases same
        exact ⟨List.cons_ne_nil _ _, fits, by simp⟩
      · obtain ⟨d, rfl, fits⟩ := (isClass _ _ _).1 one
        cases same
        exact ⟨List.cons_ne_nil _ _, fits, ((ih _).1 more).2⟩
    · rintro ⟨-, fits, others⟩
      cases rest with
      | nil => exact .inl ⟨c, rfl, fits⟩
      | cons d rest =>
        exact .inr ⟨[c], d :: rest, rfl, (isClass _ _ _).2 ⟨c, rfl, fits⟩,
          (ih _).2 ⟨List.cons_ne_nil _ _, others⟩⟩

theorem foundIn_start_iff (e : Expression) (s : String) : (start.andThen e).FoundIn s ↔
    ∃ found after, s.toList = found ++ after ∧ e.Spans [] found after := by
  unfold FoundIn
  constructor
  · rintro ⟨before, found, after, cut, spans⟩
    obtain ⟨xs, ys, rfl, begin, rest⟩ := spans_andThen_iff.1 spans
    obtain ⟨rfl, rfl⟩ := spans_start_iff.1 begin
    exact ⟨ys, after, cut, rest⟩
  · rintro ⟨found, after, cut, spans⟩
    exact ⟨[], found, after, cut, spans_andThen_iff.2 ⟨[], found, rfl, .start, spans⟩⟩

/-- What has to reach the end of the text can stop before a line feed there. -/
theorem foundIn_start_finish_iff (e : Expression) (s : String) :
    (start.andThen (e.andThen finish)).FoundIn s ↔
      ∃ found after, s.toList = found ++ after ∧ e.Spans [] found after ∧
        (after = [] ∨ after = ['\n']) := by
  rw [foundIn_start_iff]
  constructor
  · rintro ⟨found, after, cut, spans⟩
    obtain ⟨xs, ys, rfl, one, two⟩ := spans_andThen_iff.1 spans
    obtain ⟨rfl, ends⟩ := spans_finish_iff.1 two
    rw [List.append_nil] at cut
    exact ⟨xs, after, cut, one, ends⟩
  · rintro ⟨found, after, cut, spans, ends⟩
    refine ⟨found, after, cut, ?_⟩
    rw [← List.append_nil found]
    exact .andThen spans (.finish ends)

def oneOf (first : String) : List String → Expression
  | [] => literal first
  | next :: rest => (literal first).either (oneOf next rest)

theorem spans_oneOf_iff (first : String) (rest : List String) (before found after : List Char) :
    (oneOf first rest).Spans before found after ↔ ∃ s ∈ first :: rest, found = s.toList := by
  induction rest generalizing first with
  | nil => simp [oneOf, spans_literal_iff]
  | cons next rest ih =>
    rw [oneOf, spans_either_iff, spans_literal_iff, ih]
    simp

end Expression

/-- The name of a type, as it is or with a question mark. -/
def IsTypeName (s : String) : Prop := ∃ t : CwlType, s = t.text ∨ s = t.optionalText

theorem CwlType.mem_all (t : CwlType) : t ∈ all := by
  cases t <;> decide

theorem isParameterType_iff (cs : List Char) :
    isParameterType cs = true ↔ ∃ name, IsTypeName name ∧ cs = name.toList := by
  simp only [isParameterType, parameterTypeTexts, List.any_eq_true, decide_eq_true_eq,
    List.mem_append, List.mem_map, CwlType.mem_all, true_and]
  refine exists_congr fun name => ?_
  rw [eq_comm (a := cs)]
  refine and_congr_left fun _ => ?_
  constructor
  · rintro (⟨t, rfl⟩ | ⟨t, rfl⟩)
    · exact ⟨t, .inl rfl⟩
    · exact ⟨t, .inr rfl⟩
  · rintro ⟨t, rfl | rfl⟩
    · exact .inl ⟨t, rfl⟩
    · exact .inr ⟨t, rfl⟩

theorem dropFinalNewline_append (cs : List Char) : dropFinalNewline (cs ++ ['\n']) = cs := by
  simp [dropFinalNewline]

theorem eq_dropFinalNewline_or_append (cs : List Char) :
    cs = dropFinalNewline cs ∨ cs = dropFinalNewline cs ++ ['\n'] := by
  unfold dropFinalNewline
  split
  · rename_i ends
    obtain ⟨rest, rfl⟩ := List.getLast?_eq_some_iff.1 ends
    exact .inr (by rw [List.dropLast_concat])
  · exact .inl rfl

namespace Pattern

open Expression

/-- A name of a type in the words of the expression. -/
def typeName : Expression :=
  (group (oneOf "string" ["int", "boolean", "File", "File[]", "Directory"])).andThen
    (optional (literal "?"))

/-- The expression of a form, part by part. -/
def expression : Pattern → Expression
  | .parameterType => start.andThen (typeName.andThen finish)
  | .version =>
    start.andThen ((literal "v").andThen
      ((repeated digit).andThen ((literal ".").andThen (repeated digit))))
  | .flag => start.andThen (literal "--")
  | .stepOutput =>
    start.andThen (((repeated (otherThan '/')).andThen
      ((literal "/").andThen (repeated (otherThan '/')))).andThen finish)

theorem text_expression (form : Pattern) : form.expression.text = form.text := by
  cases form <;> decide +kernel

theorem spans_typeName_iff (before found after : List Char) :
    typeName.Spans before found after ↔ ∃ name, IsTypeName name ∧ found = name.toList := by
  have listed : "string" :: ["int", "boolean", "File", "File[]", "Directory"] =
      CwlType.all.map CwlType.text := rfl
  have optionalText (t : CwlType) : t.optionalText.toList = t.text.toList ++ ['?'] :=
    String.toList_append
  rw [typeName, spans_andThen_iff]
  simp only [spans_group_iff, spans_oneOf_iff, spans_optional_iff, spans_literal_iff, listed,
    List.mem_map, CwlType.mem_all, true_and]
  constructor
  · rintro ⟨xs, ys, rfl, ⟨_, ⟨t, rfl⟩, rfl⟩, rfl | rfl⟩
    · exact ⟨t.text, ⟨t, .inl rfl⟩, List.append_nil _⟩
    · exact ⟨t.optionalText, ⟨t, .inr rfl⟩, (optionalText t).symm⟩
  · rintro ⟨name, ⟨t, rfl | rfl⟩, rfl⟩
    · exact ⟨t.text.toList, [], (List.append_nil _).symm, ⟨t.text, ⟨t, rfl⟩, rfl⟩, .inl rfl⟩
    · exact ⟨t.text.toList, ['?'], optionalText t, ⟨t.text, ⟨t, rfl⟩, rfl⟩, .inr rfl⟩

theorem matches_parameterType_iff (s : String) : parameterType.matches s = true ↔
    IsTypeName s ∨ ∃ name, IsTypeName name ∧ s = name ++ "\n" := by
  rw [Pattern.matches, Bool.or_eq_true, isParameterType_iff, isParameterType_iff]
  constructor
  · rintro (⟨name, named, same⟩ | ⟨name, named, same⟩)
    · exact .inl (String.toList_injective same ▸ named)
    · rcases eq_dropFinalNewline_or_append s.toList with plain | ended
      · exact .inl (String.toList_injective (plain.trans same) ▸ named)
      · refine .inr ⟨name, named, String.toList_injective ?_⟩
        rw [ended, same, String.toList_append]
        rfl
  · rintro (named | ⟨name, named, rfl⟩)
    · exact .inl ⟨s, named, rfl⟩
    · refine .inr ⟨name, named, ?_⟩
      rw [String.toList_append]
      exact dropFinalNewline_append name.toList

theorem foundIn_parameterType_iff (s : String) : parameterType.expression.FoundIn s ↔
    IsTypeName s ∨ ∃ name, IsTypeName name ∧ s = name ++ "\n" := by
  have fed (name : String) : (name ++ "\n").toList = name.toList ++ ['\n'] := String.toList_append
  rw [expression, foundIn_start_finish_iff]
  simp only [spans_typeName_iff]
  constructor
  · rintro ⟨_, after, cut, ⟨name, named, rfl⟩, rfl | rfl⟩
    · rw [List.append_nil] at cut
      exact .inl (String.toList_injective cut ▸ named)
    · exact .inr ⟨name, named, String.toList_injective (cut.trans (fed name).symm)⟩
  · rintro (named | ⟨name, named, rfl⟩)
    · exact ⟨s.toList, [], (List.append_nil _).symm, ⟨s, named, rfl⟩, .inl rfl⟩
    · exact ⟨name.toList, ['\n'], fed name, ⟨name, named, rfl⟩, .inr rfl⟩

theorem matches_version_iff (s : String) : version.matches s = true ↔
    ∃ major minor after, s.toList = 'v' :: (major ++ '.' :: (minor ++ after)) ∧
      (major ≠ [] ∧ ∀ c ∈ major, Text.isDecimalDigit c = true) ∧
      (minor ≠ [] ∧ ∀ c ∈ minor, Text.isDecimalDigit c = true) := by
  have point : Text.isDecimalDigit '.' = false := by decide
  change isVersionChars s.toList = true ↔ _
  constructor
  · intro fits
    unfold isVersionChars at fits
    split at fits
    · rename_i d rest here
      rw [Bool.and_eq_true] at fits
      obtain ⟨first, fits⟩ := fits
      split at fits
      · rename_i e after there
        refine ⟨d :: rest.takeWhile Text.isDecimalDigit, [e], after, ?_, ⟨by simp, ?_⟩, by simp,
          by simpa using fits⟩
        · rw [here, List.cons_append, List.cons_append, List.nil_append, ← there,
            List.takeWhile_append_dropWhile]
        · rw [List.forall_mem_cons]
          exact ⟨first, fun c among => List.mem_takeWhile_imp among⟩
      · cases fits
    · cases fits
  · rintro ⟨major, minor, after, cut, ⟨full, decimal⟩, full', decimal'⟩
    obtain ⟨d, ds, rfl⟩ := List.exists_cons_of_ne_nil full
    obtain ⟨e, es, rfl⟩ := List.exists_cons_of_ne_nil full'
    rw [List.forall_mem_cons] at decimal decimal'
    rw [cut, List.cons_append, isVersionChars, List.dropWhile_append_of_pos decimal.2]
    simp [point, decimal.1, decimal'.1]

theorem matches_stepOutput_iff (s : String) : stepOutput.matches s = true ↔
    ∃ step port, s.toList = step ++ '/' :: port ∧ (step ≠ [] ∧ '/' ∉ step) ∧
      (port ≠ [] ∧ '/' ∉ port) := by
  constructor
  · intro fits
    obtain ⟨step, port, rfl, plain⟩ := exists_outputRef s (slash_mem_of_matches s fits)
    unfold Pattern.matches at fits
    simp only [takeWhile_outputRef step port plain, dropWhile_outputRef step port plain,
      Bool.and_eq_true, Bool.not_eq_true', List.isEmpty_eq_false_iff] at fits
    obtain ⟨⟨named, portNamed⟩, portPlain⟩ := fits
    exact ⟨step.toList, port.toList, toList_outputRef step port, ⟨named, plain⟩, portNamed,
      by simpa using portPlain⟩
  · rintro ⟨step, port, cut, ⟨named, plain⟩, portNamed, portPlain⟩
    obtain rfl : s = outputRef (String.ofList step) (String.ofList port) := by
      apply String.toList_injective
      rw [toList_outputRef, String.toList_ofList, String.toList_ofList, cut]
    apply matches_outputRef
    · rwa [String.toList_ofList]
    · simpa using named
    · rwa [String.toList_ofList]
    · simpa using portNamed

theorem foundIn_version_iff (s : String) : version.expression.FoundIn s ↔
    ∃ major minor after, s.toList = 'v' :: (major ++ '.' :: (minor ++ after)) ∧
      (major ≠ [] ∧ ∀ c ∈ major, Text.isDecimalDigit c = true) ∧
      (minor ≠ [] ∧ ∀ c ∈ minor, Text.isDecimalDigit c = true) := by
  rw [expression, foundIn_start_iff]
  simp only [spans_andThen_iff, spans_literal_iff, isClass_digit.spans_repeated_iff]
  constructor
  · rintro ⟨_, after, cut, _, _, rfl, rfl, major, _, rfl, decimal, _, minor, rfl, rfl, decimal'⟩
    exact ⟨major, minor, after, by simpa using cut, decimal, decimal'⟩
  · rintro ⟨major, minor, after, cut, decimal, decimal'⟩
    exact ⟨'v' :: (major ++ '.' :: minor), after, by simp [cut], _, _, rfl, rfl, major,
      '.' :: minor, rfl, decimal, _, minor, rfl, rfl, decimal'⟩

theorem foundIn_flag_iff (s : String) :
    flag.expression.FoundIn s ↔ "--".toList <+: s.toList := by
  rw [expression, foundIn_start_iff]
  simp only [spans_literal_iff]
  constructor
  · rintro ⟨_, after, cut, rfl⟩
    exact ⟨after, cut.symm⟩
  · rintro ⟨after, cut⟩
    exact ⟨"--".toList, after, cut.symm, rfl⟩

/-- A line feed that ends the text is no slash and counts for the port. -/
theorem foundIn_stepOutput_iff (s : String) : stepOutput.expression.FoundIn s ↔
    ∃ step port, s.toList = step ++ '/' :: port ∧ (step ≠ [] ∧ '/' ∉ step) ∧
      (port ≠ [] ∧ '/' ∉ port) := by
  have slashFree (cs : List Char) : (∀ c ∈ cs, decide (c ≠ '/') = true) ↔ '/' ∉ cs :=
    ⟨fun others among => of_decide_eq_true (others _ among) rfl, ne_slash_of_mem cs⟩
  rw [expression, foundIn_start_finish_iff]
  simp only [spans_andThen_iff, spans_literal_iff, (isClass_otherThan '/').spans_repeated_iff,
    slashFree]
  constructor
  · rintro ⟨_, after, cut, ⟨step, _, rfl, named, _, port, rfl, rfl, full, plain⟩, ends⟩
    have plainAfter : '/' ∉ after := by rcases ends with rfl | rfl <;> decide
    refine ⟨step, port ++ after, by simpa using cut, named, by simp [full], ?_⟩
    rw [List.mem_append, not_or]
    exact ⟨plain, plainAfter⟩
  · rintro ⟨step, port, cut, named, portNamed⟩
    exact ⟨step ++ '/' :: port, [], by simpa using cut,
      ⟨step, '/' :: port, rfl, named, _, port, rfl, rfl, portNamed⟩, .inl rfl⟩

/-- The test of a form succeeds exactly where the expression of the form is found. -/
theorem matches_iff_foundIn (form : Pattern) (s : String) :
    form.matches s = true ↔ form.expression.FoundIn s := by
  cases form with
  | parameterType => rw [matches_parameterType_iff, foundIn_parameterType_iff]
  | version => rw [matches_version_iff, foundIn_version_iff]
  | flag => rw [Pattern.matches, List.isPrefixOf_iff_prefix, foundIn_flag_iff]
  | stepOutput => rw [matches_stepOutput_iff, foundIn_stepOutput_iff]

end Pattern

end PipelineCompiler
