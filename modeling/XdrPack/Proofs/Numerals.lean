import Mathlib.Computability.RegularExpressions
import XdrPack.Token.Lexing

/-!
# Numerals as a regular language

A regular expression for numerals: an optional minus sign, and then a hexadecimal
number behind `0x` or `0X`, an octal number behind `0`, or a decimal number that
starts with another digit. The texts that the lexer takes for numerals are exactly
those that the expression matches.
-/

namespace XdrPack.Numeral

open RegularExpression

/-! ## The expression -/

/-- The characters from one to another, in the order of their codes. -/
def charsFrom (first last : Char) : List Char :=
  (List.range' first.toNat (last.toNat + 1 - first.toNat)).map Char.ofNat

/-- Any one of the characters. -/
def oneOf (chars : List Char) : RegularExpression Char :=
  chars.foldr (fun c others => char c + others) 0

/-- The hexadecimal digits of either case. -/
def hexDigits : List Char := charsFrom '0' '9' ++ charsFrom 'a' 'f' ++ charsFrom 'A' 'F'

/-- A hexadecimal number. -/
def hexadecimal : RegularExpression Char :=
  char '0' * (oneOf ['x', 'X'] * (oneOf hexDigits * (oneOf hexDigits).star))

/-- An octal number, or zero. -/
def octal : RegularExpression Char := char '0' * (oneOf (charsFrom '0' '7')).star

/-- A decimal number. -/
def decimal : RegularExpression Char :=
  oneOf (charsFrom '1' '9') * (oneOf (charsFrom '0' '9')).star

/-- A numeral: an optional minus sign and a number. -/
def pattern : RegularExpression Char := (1 + char '-') * (hexadecimal + octal + decimal)

/-! ## Classes of characters -/

/-- A range holds the characters between its ends. The codes below the gap that no
character has are all those of characters. -/
theorem mem_charsFrom {first last c : Char} (belowGap : last.toNat < 0xD800) :
    c ∈ charsFrom first last ↔ first <= c ∧ c <= last := by
  have compared : forall left right : Char, left <= right ↔ left.toNat <= right.toNat := by
    intro left right
    rw [Char.le_def, UInt32.le_iff_toNat_le]
    rfl
  simp only [charsFrom, List.mem_map, List.mem_range'_1, compared]
  constructor
  · rintro ⟨code, ⟨above, below⟩, rfl⟩
    have valid : code.isValidChar := .inl (by omega)
    have sameCode : (Char.ofNat code).toNat = code := by
      rw [Char.ofNat, dif_pos valid]
      rfl
    omega
  · rintro ⟨above, below⟩
    exact ⟨c.toNat, by omega, Char.ofNat_toNat c⟩

/-- The decimal digits are listed. -/
theorem mem_digits {c : Char} : c ∈ charsFrom '0' '9' ↔ c.isDigit = true := by
  rw [mem_charsFrom (by decide)]
  simp only [Char.isDigit, Bool.and_eq_true, decide_eq_true_eq, ge_iff_le, Char.le_def]

/-- The octal digits are listed. -/
theorem mem_octalDigits {c : Char} : c ∈ charsFrom '0' '7' ↔ isOctalDigit c = true := by
  rw [mem_charsFrom (by decide)]
  simp only [isOctalDigit, Bool.and_eq_true, decide_eq_true_eq]

/-- The hexadecimal digits are listed. -/
theorem mem_hexDigits {c : Char} : c ∈ hexDigits ↔ isHexDigit c = true := by
  rw [hexDigits, List.mem_append, List.mem_append, mem_digits, mem_charsFrom (by decide),
    mem_charsFrom (by decide)]
  simp only [isHexDigit, Bool.and_eq_true, Bool.or_eq_true, decide_eq_true_eq]

/-- The digits that a decimal number starts with are those other than zero. -/
theorem mem_leadingDigits {c : Char} : c ∈ charsFrom '1' '9' ↔ c.isDigit = true ∧ c ≠ '0' := by
  rw [<- mem_digits, mem_charsFrom (by decide), mem_charsFrom (by decide)]
  simp only [Char.le_def, UInt32.le_iff_toNat_le, Ne, Char.ext_iff, UInt32.toNat_inj.symm]
  have zero : '0'.val.toNat = 48 := by decide
  have one : '1'.val.toNat = 49 := by decide
  omega

/-! ## Matching -/

/-- One of some characters is matched by that character alone. -/
theorem mem_oneOf {chars text : List Char} :
    text ∈ (oneOf chars).matches' ↔ ∃ c, c ∈ chars ∧ text = [c] := by
  induction chars with
  | nil => simp [oneOf, Language.notMem_zero]
  | cons c others inductionHypothesis =>
      have split : text ∈ (oneOf (c :: others)).matches' ↔
          text = [c] ∨ text ∈ (oneOf others).matches' := Iff.rfl
      rw [split, inductionHypothesis]
      simp

/-- Any number of characters of a class. -/
theorem mem_star_oneOf {chars text : List Char} :
    text ∈ (oneOf chars).star.matches' ↔ forall c, c ∈ text -> c ∈ chars := by
  rw [matches'_star, Language.mem_kstar]
  constructor
  · rintro ⟨pieces, rfl, each⟩ c listed
    obtain ⟨piece, member, inside⟩ := List.mem_flatten.mp listed
    obtain ⟨only, allowed, rfl⟩ := mem_oneOf.mp (each piece member)
    rwa [List.mem_singleton.mp inside]
  · intro each
    refine ⟨text.map fun c => [c], by rw [<- List.flatMap_def, List.flatMap_singleton'], ?_⟩
    intro piece member
    obtain ⟨c, listed, rfl⟩ := List.mem_map.mp member
    exact mem_oneOf.mpr ⟨c, each c listed, rfl⟩

/-- One character of a class and then what another expression matches. -/
theorem mem_oneOf_mul {chars text : List Char} {expression : RegularExpression Char} :
    text ∈ (oneOf chars * expression).matches' ↔
      ∃ first others, text = first :: others ∧ first ∈ chars ∧ others ∈ expression.matches' := by
  rw [matches'_mul, Language.mem_mul]
  constructor
  · rintro ⟨front, isFront, others, isRest, rfl⟩
    obtain ⟨first, allowed, rfl⟩ := mem_oneOf.mp isFront
    exact ⟨first, others, rfl, allowed, isRest⟩
  · rintro ⟨first, others, rfl, allowed, isRest⟩
    exact ⟨[first], mem_oneOf.mpr ⟨first, allowed, rfl⟩, others, isRest, rfl⟩

/-- A sign and then what another expression matches. -/
theorem mem_char_mul {sign : Char} {expression : RegularExpression Char} {text : List Char} :
    text ∈ (char sign * expression).matches' ↔
      ∃ others, text = sign :: others ∧ others ∈ expression.matches' := by
  rw [matches'_mul, Language.mem_mul]
  constructor
  · rintro ⟨front, isFront, others, isRest, rfl⟩
    obtain rfl : front = [sign] := isFront
    exact ⟨others, rfl, isRest⟩
  · rintro ⟨others, rfl, isRest⟩
    exact ⟨[sign], rfl, others, isRest, rfl⟩

/-! ## Numerals -/

/-- Hexadecimal numerals have a mark and at least one digit behind a zero. -/
theorem mem_hexadecimal {text : List Char} :
    text ∈ hexadecimal.matches' ↔
      ∃ mark digits, text = '0' :: mark :: digits ∧ (mark = 'x' ∨ mark = 'X') ∧ digits ≠ [] ∧
        digits.all isHexDigit = true := by
  simp only [hexadecimal, mem_char_mul, mem_oneOf_mul, mem_star_oneOf, mem_hexDigits]
  constructor
  · rintro ⟨_, rfl, mark, _, rfl, isMark, first, others, rfl, isFirst, each⟩
    refine ⟨mark, first :: others, rfl, by simpa using isMark, by simp, ?_⟩
    rw [List.all_cons, isFirst, Bool.true_and, List.all_eq_true]
    exact each
  · rintro ⟨mark, digits, rfl, isMark, nonempty, each⟩
    obtain ⟨first, others, rfl⟩ := List.exists_cons_of_ne_nil nonempty
    obtain ⟨isFirst, each⟩ := Bool.and_eq_true_iff.mp each
    exact ⟨_, rfl, mark, _, rfl, by simpa using isMark, first, others, rfl, isFirst,
      List.all_eq_true.mp each⟩

/-- Octal numerals have octal digits behind a zero. -/
theorem mem_octal {text : List Char} :
    text ∈ octal.matches' ↔ ∃ digits, text = '0' :: digits ∧ digits.all isOctalDigit = true := by
  simp only [octal, mem_char_mul, mem_star_oneOf, mem_octalDigits, List.all_eq_true]

/-- Decimal numerals start with a digit other than zero. -/
theorem mem_decimal {text : List Char} :
    text ∈ decimal.matches' ↔
      ∃ first digits, text = first :: digits ∧ (first.isDigit = true ∧ first ≠ '0') ∧
        digits.all Char.isDigit = true := by
  simp only [decimal, mem_oneOf_mul, mem_star_oneOf, mem_leadingDigits, mem_digits,
    List.all_eq_true]

/-- A number without a sign is one of the three forms. -/
theorem isUnsigned_iff {text : List Char} :
    isUnsigned text = true ↔
      text ∈ hexadecimal.matches' ∨ text ∈ octal.matches' ∨ text ∈ decimal.matches' := by
  rw [mem_hexadecimal, mem_octal, mem_decimal]
  constructor
  · intro isNumber
    unfold isUnsigned at isNumber
    split at isNumber
    · cases isNumber
    · next digits =>
        obtain ⟨nonempty, each⟩ := Bool.and_eq_true_iff.mp isNumber
        exact .inl ⟨'x', digits, rfl, .inl rfl, by simpa using nonempty, each⟩
    · next digits =>
        obtain ⟨nonempty, each⟩ := Bool.and_eq_true_iff.mp isNumber
        exact .inl ⟨'X', digits, rfl, .inr rfl, by simpa using nonempty, each⟩
    · next digits _ _ => exact .inr (.inl ⟨digits, rfl, isNumber⟩)
    · next first digits _ _ notZero =>
        obtain ⟨isFirst, each⟩ := Bool.and_eq_true_iff.mp isNumber
        exact .inr (.inr ⟨first, digits, rfl, ⟨isFirst, notZero⟩, each⟩)
  · rintro (⟨mark, digits, rfl, rfl | rfl, nonempty, each⟩ | ⟨digits, rfl, each⟩ |
      ⟨first, digits, rfl, ⟨isFirst, notZero⟩, each⟩)
    · simpa [isUnsigned, nonempty] using each
    · simpa [isUnsigned, nonempty] using each
    · -- An octal digit is neither of the letters that mark a hexadecimal number.
      cases digits with
      | nil => rfl
      | cons next others =>
          have isOctal := (Bool.and_eq_true_iff.mp each).1
          rw [isUnsigned]
          · exact each
          · rintro others' ⟨⟩
            cases isOctal
          · rintro others' ⟨⟩
            cases isOctal
    · rw [isUnsigned]
      · rw [isFirst, each, Bool.and_self]
      all_goals simp [notZero]

/-- The numerals of the lexer are those of the expression. -/
theorem isNumeral_iff {text : List Char} :
    isNumeral text = true ↔ text ∈ pattern.matches' := by
  have matched : forall digits,
      digits ∈ (hexadecimal + octal + decimal).matches' ↔ isUnsigned digits = true := by
    intro digits
    rw [isUnsigned_iff, <- or_assoc]
    rfl
  have signed : text ∈ pattern.matches' ↔
      isUnsigned text = true ∨ ∃ digits, text = '-' :: digits ∧ isUnsigned digits = true := by
    rw [pattern, matches'_mul, matches'_add, add_mul, Language.mem_add, matches'_epsilon,
      one_mul, matched, <- matches'_mul, mem_char_mul]
    simp only [matched]
  rw [signed]
  unfold isNumeral
  split
  · next digits => simp [isUnsigned]
  · next other notSigned =>
      refine ⟨.inl, ?_⟩
      rintro (isNumber | ⟨digits, rfl, isNumber⟩)
      · exact isNumber
      · exact absurd rfl (notSigned digits)

end XdrPack.Numeral
