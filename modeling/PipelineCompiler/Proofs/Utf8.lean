import Mathlib.Tactic.SplitIfs
import PipelineCompiler.File.Content
import PipelineCompiler.Proofs.Except

set_option autoImplicit false

namespace PipelineCompiler

namespace Text.Utf8

/-- The first byte announces the others, and all together make up the code point. -/
def Spells (lead : UInt8) (tail : List UInt8) (code : Nat) : Prop :=
  ∃ low high bits, announced lead.toNat = some (tail.length, low, high, bits) ∧
    ∀ rest, following tail.length low high bits 1 (tail ++ rest) = .ok code

theorem toNat_ofNat_of_lt (n : Nat) (small : n < 256) : (UInt8.ofNat n).toNat = n := by
  rw [UInt8.toNat_ofNat']
  exact Nat.mod_eq_of_lt small

theorem following_cons (owed low high bits width n : Nat) (rest : List UInt8)
    (lower : low ≤ 0x80 + n % 64) (upper : 0x80 + n % 64 ≤ high) :
    following (owed + 1) low high bits width (UInt8.ofNat (0x80 + n % 64) :: rest) =
      following owed 0x80 0xBF (bits * 64 + n % 64) (width + 1) rest := by
  have byte := toNat_ofNat_of_lt (0x80 + n % 64) (by omega)
  rw [following, byte, if_pos ⟨lower, upper⟩, Nat.add_sub_cancel_left]

theorem spells_one (n : Nat) (small : n < 0x80) : Spells (UInt8.ofNat n) [] n := by
  have lead := toNat_ofNat_of_lt n (by omega)
  refine ⟨0x80, 0xBF, n, ?_, fun rest => rfl⟩
  rw [lead, announced, if_pos small]
  rfl

theorem spells_two (n : Nat) (large : 0x80 ≤ n) (small : n < 0x800) :
    Spells (UInt8.ofNat (0xC0 + n / 64)) [UInt8.ofNat (0x80 + n % 64)] n := by
  have lead := toNat_ofNat_of_lt (0xC0 + n / 64) (by omega)
  refine ⟨0x80, 0xBF, n / 64, ?_, ?_⟩
  · rw [lead, announced, if_neg (by omega), if_pos (by omega), Nat.add_sub_cancel_left]
    rfl
  · intro rest
    refine (following_cons 0 _ _ _ 1 n rest (by omega) (by omega)).trans ?_
    rw [following, Nat.div_add_mod']

/-- The bounds of the second byte keep out numbers with a shorter spelling and surrogates. -/
theorem announced_of_three (n : Nat) (large : 0x800 ≤ n) (small : n < 0x10000)
    (valid : n < 0xD800 ∨ 0xDFFF < n) :
    ∃ low high, announced (0xE0 + n / 4096) = some (2, low, high, n / 4096) ∧
      low ≤ 0x80 + n / 64 % 64 ∧ 0x80 + n / 64 % 64 ≤ high := by
  unfold announced
  rw [if_neg (by omega), if_neg (by omega)]
  by_cases least : n / 4096 = 0
  · exact ⟨0xA0, 0xBF, by simp [least], by omega, by omega⟩
  · by_cases before : n / 4096 = 0xD
    · exact ⟨0x80, 0x9F, by simp [before], by omega, by omega⟩
    · refine ⟨0x80, 0xBF, ?_, by omega, by omega⟩
      rw [if_neg (by omega), if_neg (by omega), if_pos (by omega), Nat.add_sub_cancel_left]

theorem announced_of_four (n : Nat) (large : 0x10000 ≤ n) (small : n < 0x110000) :
    ∃ low high, announced (0xF0 + n / 262144) = some (3, low, high, n / 262144) ∧
      low ≤ 0x80 + n / 4096 % 64 ∧ 0x80 + n / 4096 % 64 ≤ high := by
  unfold announced
  rw [if_neg (by omega), if_neg (by omega), if_neg (by omega), if_neg (by omega), if_neg (by omega)]
  by_cases least : n / 262144 = 0
  · exact ⟨0x90, 0xBF, by simp [least], by omega, by omega⟩
  · by_cases most : n / 262144 = 4
    · exact ⟨0x80, 0x8F, by simp [most], by omega, by omega⟩
    · refine ⟨0x80, 0xBF, ?_, by omega, by omega⟩
      rw [if_neg (by omega), if_neg (by omega), if_pos (by omega), Nat.add_sub_cancel_left]

theorem spells_three (n : Nat) (large : 0x800 ≤ n) (small : n < 0x10000)
    (valid : n < 0xD800 ∨ 0xDFFF < n) :
    Spells (UInt8.ofNat (0xE0 + n / 4096))
      [UInt8.ofNat (0x80 + n / 64 % 64), UInt8.ofNat (0x80 + n % 64)] n := by
  have lead := toNat_ofNat_of_lt (0xE0 + n / 4096) (by omega)
  obtain ⟨low, high, announces, lower, upper⟩ := announced_of_three n large small valid
  refine ⟨low, high, n / 4096, ?_, ?_⟩
  · rw [lead]
    exact announces
  · intro rest
    refine (following_cons 1 _ _ _ 1 (n / 64) _ lower upper).trans ?_
    refine (following_cons 0 _ _ _ 2 n rest (by omega) (by omega)).trans ?_
    rw [following]
    congr 1
    omega

theorem spells_four (n : Nat) (large : 0x10000 ≤ n) (small : n < 0x110000) :
    Spells (UInt8.ofNat (0xF0 + n / 262144))
      [UInt8.ofNat (0x80 + n / 4096 % 64), UInt8.ofNat (0x80 + n / 64 % 64),
        UInt8.ofNat (0x80 + n % 64)] n := by
  have lead := toNat_ofNat_of_lt (0xF0 + n / 262144) (by omega)
  obtain ⟨low, high, announces, lower, upper⟩ := announced_of_four n large small
  refine ⟨low, high, n / 262144, ?_, ?_⟩
  · rw [lead]
    exact announces
  · intro rest
    refine (following_cons 2 _ _ _ 1 (n / 4096) _ lower upper).trans ?_
    refine (following_cons 1 _ _ _ 2 (n / 64) _ (by omega) (by omega)).trans ?_
    refine (following_cons 0 _ _ _ 3 n rest (by omega) (by omega)).trans ?_
    rw [following]
    congr 1
    omega

theorem exists_spells (c : Char) :
    ∃ lead tail, encodeChar c = lead :: tail ∧ Spells lead tail c.toNat := by
  -- No character is a surrogate, and none is beyond the last plane.
  have valid : c.toNat < 0xD800 ∨ 0xDFFF < c.toNat ∧ c.toNat < 0x110000 := c.valid
  unfold encodeChar
  dsimp only
  by_cases one : c.toNat < 0x80
  · rw [if_pos one]
    exact ⟨_, _, rfl, spells_one _ one⟩
  by_cases two : c.toNat < 0x800
  · rw [if_neg one, if_pos two]
    exact ⟨_, _, rfl, spells_two _ (by omega) two⟩
  by_cases three : c.toNat < 0x10000
  · rw [if_neg one, if_neg two, if_pos three]
    exact ⟨_, _, rfl, spells_three _ (by omega) three (by omega)⟩
  · rw [if_neg one, if_neg two, if_neg three]
    exact ⟨_, _, rfl, spells_four _ (by omega) (by omega)⟩

theorem decodeFrom_skip (offset : Nat) (skipped rest : List UInt8) :
    decodeFrom offset skipped.length (skipped ++ rest) =
      decodeFrom (offset + skipped.length) 0 rest := by
  induction skipped generalizing offset with
  | nil => rfl
  | cons b skipped ih =>
    rw [List.length_cons, List.cons_append, decodeFrom, ih, Nat.add_assoc, Nat.add_comm 1]

theorem decodeFrom_encodeChar (offset : Nat) (c : Char) (rest : List UInt8) :
    ∃ later, decodeFrom offset 0 (encodeChar c ++ rest) =
      (decodeFrom later 0 rest).map (c :: ·) := by
  obtain ⟨lead, tail, spelled, low, high, bits, announces, adds⟩ := exists_spells c
  refine ⟨offset + 1 + tail.length, ?_⟩
  rw [spelled, List.cons_append, decodeFrom, announces]
  dsimp only
  rw [adds, decodeFrom_skip]
  dsimp only
  rw [Char.ofNat_toNat]

theorem decodeFrom_encode (offset : Nat) (s : List Char) :
    decodeFrom offset 0 (s.flatMap encodeChar) = .ok s := by
  induction s generalizing offset with
  | nil => rfl
  | cons c rest ih =>
    obtain ⟨later, read⟩ := decodeFrom_encodeChar offset c (rest.flatMap encodeChar)
    rw [List.flatMap_cons, read, ih]
    rfl

theorem decode_encode (text : String) : decode (encode text) = .ok text := by
  rw [decode, encode, decodeFrom_encode]
  exact congrArg Except.ok String.ofList_toList

/-- What a first byte announces: itself, or how many bytes follow and which of them would spell a
number that has a shorter spelling, a surrogate, or one beyond the last plane. -/
theorem announced_cases (b owed low high bits : Nat)
    (announces : announced b = some (owed, low, high, bits)) :
    (owed = 0 ∧ b < 0x80 ∧ bits = b) ∨
      (owed = 1 ∧ b = 0xC0 + bits ∧ 2 ≤ bits ∧ bits < 0x20 ∧ low = 0x80 ∧ high = 0xBF) ∨
      (owed = 2 ∧ b = 0xE0 + bits ∧ bits < 0x10 ∧ 0x80 ≤ low ∧ high ≤ 0xBF ∧
        (bits = 0 → 0xA0 ≤ low) ∧ (bits = 0xD → high ≤ 0x9F)) ∨
      (owed = 3 ∧ b = 0xF0 + bits ∧ bits < 5 ∧ 0x80 ≤ low ∧ high ≤ 0xBF ∧
        (bits = 0 → 0x90 ≤ low) ∧ (bits = 4 → high ≤ 0x8F)) := by
  unfold announced at announces
  split_ifs at announces
  all_goals obtain ⟨rfl, rfl, rfl, rfl⟩ := by simpa using announces
  · exact .inl ⟨rfl, by assumption, rfl⟩
  · exact .inr (.inl (by omega))
  · exact .inr (.inr (.inl (by omega)))
  · exact .inr (.inr (.inl (by omega)))
  · exact .inr (.inr (.inl (by omega)))
  · exact .inr (.inr (.inr (by omega)))
  · exact .inr (.inr (.inr (by omega)))
  · exact .inr (.inr (.inr (by omega)))

theorem following_succ_eq_ok (owed low high bits width n : Nat) (bytes : List UInt8)
    (adds : following (owed + 1) low high bits width bytes = .ok n) :
    ∃ b rest, bytes = b :: rest ∧ low ≤ b.toNat ∧ b.toNat ≤ high ∧
      following owed 0x80 0xBF (bits * 64 + (b.toNat - 0x80)) (width + 1) rest = .ok n := by
  cases bytes with
  | nil => cases adds
  | cons b rest =>
    rw [following] at adds
    split at adds
    · rename_i bounds
      exact ⟨b, rest, rfl, bounds.1, bounds.2, adds⟩
    · cases adds

theorem ofNat_eq_of_toNat (b : UInt8) (n : Nat) (same : n = b.toNat) : UInt8.ofNat n = b := by
  rw [same]
  exact UInt8.ofNat_toNat

/-- All numbers but surrogates, up to the last plane, are code points. -/
theorem toNat_charOfNat (n : Nat) (valid : n.isValidChar) : (Char.ofNat n).toNat = n := by
  rw [Char.ofNat, dif_pos valid]
  rfl

/-- What is read as a character is how that character is written. -/
theorem encodeChar_of_following (b : UInt8) (rest : List UInt8) (owed low high bits n : Nat)
    (announces : announced b.toNat = some (owed, low, high, bits))
    (adds : following owed low high bits 1 rest = .ok n) :
    ∃ tail later, rest = tail ++ later ∧ tail.length = owed ∧
      encodeChar (Char.ofNat n) = b :: tail := by
  rcases announced_cases b.toNat owed low high bits announces with
    ⟨rfl, small, rfl⟩ | ⟨rfl, lead, least, most, rfl, rfl⟩ |
    ⟨rfl, lead, most, lower, upper, least, before⟩ | ⟨rfl, lead, most, lower, upper, least, last⟩
  · obtain rfl := Except.ok.inj adds
    have code := toNat_charOfNat b.toNat (.inl (by omega))
    refine ⟨[], rest, rfl, rfl, ?_⟩
    rw [encodeChar, code, if_pos small, ofNat_eq_of_toNat b _ rfl]
  · obtain ⟨c, later, rfl, lower, upper, adds⟩ := following_succ_eq_ok _ _ _ _ _ _ _ adds
    obtain rfl := Except.ok.inj adds
    have code := toNat_charOfNat (bits * 64 + (c.toNat - 0x80)) (.inl (by omega))
    refine ⟨[c], later, rfl, rfl, ?_⟩
    rw [encodeChar, code, if_neg (by omega), if_pos (by omega),
      ofNat_eq_of_toNat b _ (by omega), ofNat_eq_of_toNat c _ (by omega)]
  · obtain ⟨c, rest, rfl, lowerC, upperC, adds⟩ := following_succ_eq_ok _ _ _ _ _ _ _ adds
    obtain ⟨d, later, rfl, lowerD, upperD, adds⟩ := following_succ_eq_ok _ _ _ _ _ _ _ adds
    obtain rfl := Except.ok.inj adds
    have code := toNat_charOfNat ((bits * 64 + (c.toNat - 0x80)) * 64 + (d.toNat - 0x80))
      (by unfold Nat.isValidChar; omega)
    refine ⟨[c, d], later, rfl, rfl, ?_⟩
    rw [encodeChar, code, if_neg (by omega), if_neg (by omega), if_pos (by omega),
      ofNat_eq_of_toNat b _ (by omega), ofNat_eq_of_toNat c _ (by omega),
      ofNat_eq_of_toNat d _ (by omega)]
  · obtain ⟨c, rest, rfl, lowerC, upperC, adds⟩ := following_succ_eq_ok _ _ _ _ _ _ _ adds
    obtain ⟨d, rest, rfl, lowerD, upperD, adds⟩ := following_succ_eq_ok _ _ _ _ _ _ _ adds
    obtain ⟨e, later, rfl, lowerE, upperE, adds⟩ := following_succ_eq_ok _ _ _ _ _ _ _ adds
    obtain rfl := Except.ok.inj adds
    have code := toNat_charOfNat
      (((bits * 64 + (c.toNat - 0x80)) * 64 + (d.toNat - 0x80)) * 64 + (e.toNat - 0x80))
      (.inr (by omega))
    refine ⟨[c, d, e], later, rfl, rfl, ?_⟩
    rw [encodeChar, code, if_neg (by omega), if_neg (by omega), if_neg (by omega),
      ofNat_eq_of_toNat b _ (by omega), ofNat_eq_of_toNat c _ (by omega),
      ofNat_eq_of_toNat d _ (by omega), ofNat_eq_of_toNat e _ (by omega)]

theorem flatMap_of_decodeFrom (offset skip : Nat) (bytes : List UInt8) (s : List Char)
    (read : decodeFrom offset skip bytes = .ok s) :
    s.flatMap encodeChar = bytes.drop skip := by
  induction bytes generalizing offset skip s with
  | nil =>
    rw [decodeFrom] at read
    cases read
    rw [List.drop_nil]
    rfl
  | cons b rest ih =>
    cases skip with
    | succ skip =>
      rw [decodeFrom] at read
      exact ih _ _ _ read
    | zero =>
      rw [decodeFrom] at read
      split at read
      · cases read
      · rename_i owed low high bits announces
        split at read
        · cases read
        · rename_i n adds
          obtain ⟨more, others, rfl⟩ := (map_eq_ok _ _ s).1 read
          obtain ⟨tail, later, rfl, rfl, spelled⟩ :=
            encodeChar_of_following b _ _ _ _ _ n announces adds
          rw [List.flatMap_cons, spelled, ih _ _ _ others, List.drop_left, List.drop_zero,
            List.cons_append]

/-- Bytes are read as a text exactly when they are how the text is written. -/
theorem decode_eq_ok_iff (bytes : List UInt8) (text : String) :
    decode bytes = .ok text ↔ bytes = encode text := by
  constructor
  · intro read
    obtain ⟨s, found, rfl⟩ := (map_eq_ok _ _ text).1 read
    rw [encode, String.toList_ofList, flatMap_of_decodeFrom 0 0 bytes s found, List.drop_zero]
  · rintro rfl
    exact decode_encode text

theorem encode_injective {text other : String} (same : encode text = encode other) :
    text = other := by
  have read := decode_encode other
  rw [← same, decode_encode] at read
  exact Except.ok.inj read

end Text.Utf8

theorem Text.unifyLineEnds_of_not_mem (s : List Char) (none : '\r' ∉ s) : unifyLineEnds s = s := by
  induction s with
  | nil => rfl
  | cons c rest ih =>
    rw [List.mem_cons, not_or] at none
    obtain ⟨apart, later⟩ := none
    unfold unifyLineEnds
    split
    · contradiction
    · rename_i same
      exact absurd (List.cons.inj same).1.symm apart
    · rename_i same
      exact absurd (List.cons.inj same).1.symm apart
    · rename_i same
      obtain ⟨rfl, rfl⟩ := List.cons.inj same
      rw [ih later]

theorem textOfContent_encode (text : String) (none : '\r' ∉ text.toList) :
    textOfContent (Text.Utf8.encode text) = .ok text := by
  rw [textOfContent, Text.Utf8.decode_encode]
  change Except.ok (String.ofList (Text.unifyLineEnds text.toList)) = _
  rw [Text.unifyLineEnds_of_not_mem _ none, String.ofList_toList]

end PipelineCompiler
