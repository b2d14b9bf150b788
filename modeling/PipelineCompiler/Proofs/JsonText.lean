import PipelineCompiler.Json.Decode
import PipelineCompiler.Json.Encode

set_option autoImplicit false

/- JSON texts are read back as they were written, since every character is spelled in a way that
gives it back. No spelling has a carriage return in it. -/
namespace PipelineCompiler.Json

section Kept

theorem toNat_surrogateChar (i : Fin 0x800) : (surrogateChar i).toNat = 0x100000 + i.val := by
  have valid : (0x100000 + i.val).isValidChar := by
    right
    omega
  rw [surrogateChar, Char.ofNat, dif_pos valid]
  rfl

theorem marked_surrogateChar (i : Fin 0x800) :
    CodePoint.marked (surrogateChar i) = .surrogate i := by
  have code := toNat_surrogateChar i
  rw [CodePoint.marked, dif_pos (by omega)]
  simp [code]

variable [Dialect] (keeps : Dialect.keepsSurrogates = true)

include keeps

theorem pointsFrom_held (p : CodePoint) (rest : List Char) :
    pointsFrom (p.held ++ rest) = p :: pointsFrom rest := by
  cases p with
  | char c =>
    by_cases same : c = mark
    · simp [CodePoint.held, pointsFrom, keeps, same]
      decide
    · rw [CodePoint.held, if_neg (by simp [same]), List.singleton_append, pointsFrom.eq_def]
      simp [same]
  | surrogate i => simp [CodePoint.held, pointsFrom, keeps, marked_surrogateChar]

/-- Where surrogates are kept, texts hold all that was read. -/
theorem points_hold (ps : List CodePoint) : points (hold ps) = ps := by
  rw [points, hold, String.toList_ofList]
  induction ps with
  | nil => rfl
  | cons p ps ih => rw [List.flatMap_cons, pointsFrom_held keeps, ih]

end Kept

/-- Two texts that only a reader which keeps surrogates tells apart. -/
example :
    letI : Dialect := ⟨true, some 1⟩
    (decode "[\"\\ud800\", \"\\udc00\"]").toOption =
      some (.list [.str (hold [.surrogate 0]), .str (hold [.surrogate 0x400])]) := by
  decide +kernel

section Plain

theorem hold_map_char (s : List Char) : hold (s.map .char) = String.ofList s := by
  rw [hold, List.flatMap_map]
  exact congrArg String.ofList (List.flatMap_singleton' s)

theorem points_eq (s : String) : points s = s.toList.map .char := by
  rw [points]
  induction s.toList with
  | nil => rfl
  | cons c s ih =>
    rw [pointsFrom.eq_def]
    exact congrArg (.char c :: ·) ih

theorem encodeText_eq (s : String) :
    encodeText s = '"' :: s.toList.flatMap encodeChar ++ ['"'] := by
  rw [encodeText, points_eq, List.flatMap_map]
  rfl

end Plain

theorem hexValue?_hexDigit : ∀ d < 16, Text.hexValue? (Text.hexDigit d) = some d := by decide

theorem hexDigits_four (n : Nat) :
    Text.hexDigits 4 n = [Text.hexDigit (n / 4096 % 16), Text.hexDigit (n / 256 % 16),
      Text.hexDigit (n / 16 % 16), Text.hexDigit (n % 16)] := by
  simp [Text.hexDigits, Nat.div_div_eq_div_mul]

theorem codeUnit?_hexDigits (n : Nat) (small : n < 0x10000) (tail : List Char)
    (more : tail ≠ []) : codeUnit? (Text.hexDigits 4 n ++ tail) = some n := by
  obtain ⟨c, rest, rfl⟩ := List.exists_cons_of_ne_nil more
  have digit : ∀ m, Text.hexValue? (Text.hexDigit (m % 16)) = some (m % 16) :=
    fun m => hexValue?_hexDigit (m % 16) (Nat.mod_lt m (by decide))
  have sum : ((n / 4096 % 16 * 16 + n / 256 % 16) * 16 + n / 16 % 16) * 16 + n % 16 = n := by
    omega
  simp [hexDigits_four, codeUnit?, digit, sum]

theorem readText_skip (opening skipped tail : List Char) :
    readText opening skipped.length (skipped ++ tail) = readText opening 0 tail := by
  induction skipped with
  | nil => rfl
  | cons c skipped ih => exact ih

/-- A reader of texts puts the code point of an escape in front of what follows. -/
theorem readText_escape (opening escape tail : List Char) (p : CodePoint)
    (escaped : readEscape opening (escape ++ tail) = .ok (p, escape.length)) :
    readText opening 0 ('\\' :: escape ++ tail) =
      (readText opening 0 tail).map fun r => (p :: r.1, r.2) := by
  rw [List.cons_append, readText, if_neg (by decide), if_pos rfl, escaped]
  dsimp only
  rw [readText_skip]

theorem readEscape_unit (opening tail : List Char) (c : Char) (small : c.toNat < 0x10000)
    (more : tail ≠ []) :
    readEscape opening ('u' :: Text.hexDigits 4 c.toNat ++ tail) = .ok (.char c, 5) := by
  have valid : c.toNat < 0xD800 ∨ 0xDFFF < c.toNat ∧ c.toNat < 0x110000 := c.valid
  have whole : CodePoint.ofUnit c.toNat = .char c := by
    rw [CodePoint.ofUnit, dif_neg (by omega), Char.ofNat_toNat]
  rw [List.cons_append, readEscape, codeUnit?_hexDigits _ small tail more]
  dsimp only
  rw [if_neg (by omega), whole]

theorem readEscape_plain (opening tail : List Char) (e c : Char) (apart : e ≠ 'u')
    (means : plainEscape? e = some c) : readEscape opening (e :: tail) = .ok (.char c, 1) := by
  unfold readEscape
  split
  · contradiction
  · rename_i same
    exact absurd (List.cons.inj same).1 apart
  · rename_i same
    obtain ⟨rfl, -⟩ := List.cons.inj same
    rw [means]

theorem joinSurrogates?_pair (c : Char) (large : 0x10000 ≤ c.toNat) :
    joinSurrogates? (0xD800 + (c.toNat - 0x10000) / 0x400) (0xDC00 + (c.toNat - 0x10000) % 0x400) =
      some c := by
  have valid : c.toNat < 0xD800 ∨ 0xDFFF < c.toNat ∧ c.toNat < 0x110000 := c.valid
  have code : 0x10000 + (0xD800 + (c.toNat - 0x10000) / 0x400 - 0xD800) * 0x400 +
      (0xDC00 + (c.toNat - 0x10000) % 0x400 - 0xDC00) = c.toNat := by omega
  rw [joinSurrogates?, if_pos (by omega), code, Char.ofNat_toNat]

theorem readEscape_pair (opening tail : List Char) (c : Char) (high low : Nat)
    (first : 0xD800 ≤ high ∧ high < 0xDC00) (second : low < 0x10000)
    (joined : joinSurrogates? high low = some c) (more : tail ≠ []) :
    readEscape opening ('u' :: Text.hexDigits 4 high ++ unitEscape low ++ tail) =
      .ok (.char c, 11) := by
  have behind : (Text.hexDigits 4 high ++ (unitEscape low ++ tail)).drop 4 =
      '\\' :: 'u' :: (Text.hexDigits 4 low ++ tail) := by
    simp [hexDigits_four, unitEscape]
  have unit := codeUnit?_hexDigits high (by omega) (unitEscape low ++ tail) (by simp [unitEscape])
  have other := codeUnit?_hexDigits low second tail more
  rw [List.cons_append, List.cons_append, List.append_assoc, readEscape, unit]
  dsimp only
  rw [if_pos first, behind]
  simp only [other, joined]

/-- How a character is written: as it is, or as an escape of one letter, of one code unit, or of
two. -/
inductive Spelling (c : Char) : List Char → Prop where
  | itself (quote : c ≠ '"') (backslash : c ≠ '\\') (printable : ¬ c < ' ') : Spelling c [c]
  | letter (e : Char) (apart : e ≠ 'u') (means : plainEscape? e = some c) :
    Spelling c ['\\', e]
  | unit (small : c.toNat < 0x10000) : Spelling c (unitEscape c.toNat)
  | pair (large : 0x10000 ≤ c.toNat) :
    Spelling c (unitEscape (0xD800 + (c.toNat - 0x10000) / 0x400) ++
      unitEscape (0xDC00 + (c.toNat - 0x10000) % 0x400))

theorem spelling_encodeChar (c : Char) : Spelling c (encodeChar c) := by
  unfold encodeChar
  split
  · rename_i same
    exact .letter '"' (by decide) (by rw [same]; rfl)
  split
  · rename_i same
    exact .letter '\\' (by decide) (by rw [same]; rfl)
  split
  · rename_i same
    exact .letter 'n' (by decide) (by rw [same]; rfl)
  split
  · rename_i same
    exact .letter 'r' (by decide) (by rw [same]; rfl)
  split
  · rename_i same
    exact .letter 't' (by decide) (by rw [same]; rfl)
  split
  · rename_i same
    exact .letter 'b' (by decide) (by rw [same]; rfl)
  split
  · rename_i same
    exact .letter 'f' (by decide) (by rw [same]; rfl)
  split
  · rename_i quote backslash _ _ _ _ _ printable
    refine .itself quote backslash ?_
    intro below
    have code : c.toNat < 0x20 := below
    omega
  split
  · rename_i small
    exact .unit small
  · rename_i large
    exact .pair (Nat.le_of_not_lt large)

theorem readText_spelling (opening spelled tail : List Char) (c : Char) (more : tail ≠ [])
    (spelling : Spelling c spelled) :
    readText opening 0 (spelled ++ tail) =
      (readText opening 0 tail).map fun r => (.char c :: r.1, r.2) := by
  cases spelling with
  | itself quote backslash printable =>
    rw [List.singleton_append, readText, if_neg quote, if_neg backslash, if_neg printable]
  | letter e apart means =>
    exact readText_escape opening [e] tail (.char c) (readEscape_plain opening tail e c apart means)
  | unit small =>
    exact readText_escape opening ('u' :: Text.hexDigits 4 c.toNat) tail (.char c)
      (readEscape_unit opening tail c small more)
  | pair large =>
    have valid : c.toNat < 0xD800 ∨ 0xDFFF < c.toNat ∧ c.toNat < 0x110000 := c.valid
    exact readText_escape opening ('u' :: Text.hexDigits 4 (0xD800 + (c.toNat - 0x10000) / 0x400) ++
      unitEscape (0xDC00 + (c.toNat - 0x10000) % 0x400)) tail (.char c)
      (readEscape_pair opening tail c _ _ (by omega) (by omega) (joinSurrogates?_pair c large) more)

theorem readText_flatMap_encodeChar (opening s rest : List Char) :
    readText opening 0 (s.flatMap encodeChar ++ '"' :: rest) = .ok (s.map .char, rest) := by
  induction s with
  | nil => rfl
  | cons c s ih =>
    rw [List.flatMap_cons, List.append_assoc,
      readText_spelling _ _ _ c (by simp) (spelling_encodeChar c), ih]
    rfl

theorem hexDigit_ne_return : ∀ d < 16, Text.hexDigit d ≠ '\r' := by decide

theorem return_not_mem_unitEscape (unit : Nat) : '\r' ∉ unitEscape unit := by
  have digit : ∀ m, '\r' ≠ Text.hexDigit (m % 16) :=
    fun m => (hexDigit_ne_return (m % 16) (Nat.mod_lt m (by decide))).symm
  simp [unitEscape, hexDigits_four, digit]

theorem return_not_mem_of_spelling {c : Char} {spelled : List Char}
    (spelling : Spelling c spelled) : '\r' ∉ spelled := by
  cases spelling with
  | itself quote backslash printable =>
    rw [List.mem_singleton]
    rintro rfl
    exact printable (by decide)
  | letter e apart means =>
    have known : e ≠ '\r' := by
      rintro rfl
      cases means
    simp [known.symm]
  | unit small => exact return_not_mem_unitEscape c.toNat
  | pair large => simp [return_not_mem_unitEscape]

theorem return_not_mem_encodeText (s : String) : '\r' ∉ encodeText s := by
  have spelled : ∀ c ∈ s.toList, '\r' ∉ encodeChar c :=
    fun c _ => return_not_mem_of_spelling (spelling_encodeChar c)
  simpa [encodeText_eq] using spelled

end PipelineCompiler.Json
