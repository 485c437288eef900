import Mathlib.Data.Nat.Digits.Defs
import XdrPack.Proofs.Numerals
import XdrPack.Proofs.Spelling
import XdrPack.Python.Statement

/-!
# The values of integer literals

A numeral of the interface language has the value that C gives it: behind `0x` it is
hexadecimal, behind any other leading zero it is octal, else it is decimal, and a minus
sign negates it. Python reads integer literals by rules of its own. The literal that is
generated for a numeral is one of Python, and both readings give the same value.
-/

namespace XdrPack

/-! ## Numerals that are returned -/

/-- The lexer returns a text as a number, for some source, exactly if it is a numeral. -/
theorem Lexing.number_mem_iff {text : String} :
    (∃ source, .number text ∈ (ofText source).tokens.map (·.kind)) ↔
      text.toList ∈ Numeral.pattern.matches' := by
  rw [<- Numeral.isNumeral_iff]
  constructor
  · rintro ⟨source, returned⟩
    obtain ⟨token, listed, isNumber⟩ := List.mem_map.mp returned
    have isLexical := isLexical_of_mem listed
    rwa [isNumber] at isLexical
  · intro isNumeral
    obtain ⟨-, kinds⟩ := (Spells.number isNumeral).lexing (by simp [EndsWord])
    exact ⟨text, by simp [kinds]⟩

/-! ## Values in the interface language -/

namespace Numeral

/-- The value of a digit of any base up to sixteen, in either case. What is no digit has
no smaller value than sixteen. -/
def digitValue (c : Char) : Nat :=
  ['0', '1', '2', '3', '4', '5', '6', '7', '8', '9', 'a', 'b', 'c', 'd', 'e', 'f'].idxOf c.toLower

/-- The value of digits in a base, where the last digit counts ones. -/
def positional (base : Nat) (digits : List Char) : Nat :=
  Nat.ofDigits base (digits.reverse.map digitValue)

/-- The value of a number without a sign. Any leading zero but that of `0x` and `0X` makes it
octal. -/
def magnitude : List Char -> Nat
  | '0' :: 'x' :: digits => positional 16 digits
  | '0' :: 'X' :: digits => positional 16 digits
  | '0' :: digits => positional 8 digits
  | digits => positional 10 digits

/-- The value of a numeral. -/
def value : List Char -> Int
  | '-' :: digits => -(magnitude digits : Int)
  | digits => magnitude digits

/-- The first digit counts the highest power of the base. -/
theorem positional_cons (base : Nat) (c : Char) (rest : List Char) :
    positional base (c :: rest) = digitValue c * base ^ rest.length + positional base rest := by
  rw [positional, List.reverse_cons, List.map_append, Nat.ofDigits_append, positional]
  simp
  ring

/-- Digits of a class are digits of a base, if the characters of the class are. -/
theorem digitValue_lt_of_all {isOne : Char -> Bool} {chars digits : List Char} {base : Nat}
    (members : forall {c}, c ∈ chars ↔ isOne c = true)
    (known : chars.all (fun c => digitValue c < base) = true) (each : digits.all isOne = true) :
    forall c, c ∈ digits -> digitValue c < base := by
  intro c listed
  have isMember : c ∈ chars := members.mpr (List.all_eq_true.mp each c listed)
  exact of_decide_eq_true (List.all_eq_true.mp known c isMember)

end Numeral

/-! ## Values in Python -/

namespace Python

open Numeral

/-- Reads digits of a base behind others that have the given value. Each digit may have
one underscore before it. -/
def readDigits? (base value : Nat) : List Char -> Option Nat
  | [] => some value
  | '_' :: c :: rest =>
      if digitValue c < base then readDigits? base (value * base + digitValue c) rest else none
  | c :: rest =>
      if digitValue c < base then readDigits? base (value * base + digitValue c) rest else none

/-- The base that a letter behind a leading zero stands for. -/
def markedBase? (mark : Char) : Option Nat :=
  if mark = 'x' ∨ mark = 'X' then some 16
  else if mark = 'o' ∨ mark = 'O' then some 8
  else if mark = 'b' ∨ mark = 'B' then some 2
  else none

/-- The value of an integer literal, if the text is one. A literal that starts with zero
is marked by a letter and has a digit behind it, or it consists of zeros. -/
def integer? : List Char -> Option Nat
  | [] => none
  | ['0'] => some 0
  | '0' :: mark :: rest =>
      match markedBase? mark with
      | some base => if rest.isEmpty then none else readDigits? base 0 rest
      -- Zero is the only digit of the base one.
      | none => readDigits? 1 0 (mark :: rest)
  | first :: rest => if first.isDigit then readDigits? 10 (digitValue first) rest else none

/-- The value of an integer literal behind an optional minus sign. -/
def signedInteger? : List Char -> Option Int
  | '-' :: digits => (integer? digits).map fun magnitude : Nat => -(magnitude : Int)
  | digits => (integer? digits).map fun magnitude : Nat => (magnitude : Int)

/-- A decimal number that starts with a zero which it could do without. -/
def HasSpareZero (text : List Char) : Prop :=
  ∃ sign c rest, text = sign ++ '0' :: c :: rest ∧ (sign = [] ∨ sign = ['-']) ∧ c.isDigit = true

/-! ## Reading digits -/

/-- No digit is an underscore. -/
theorem ne_underscore_of_digitValue_lt {base : Nat} {c : Char} (known : base <= 16)
    (digit : digitValue c < base) : c ≠ '_' := by
  rintro rfl
  have noDigit : digitValue '_' = 16 := by decide
  omega

/-- A digit of the base is added to the value of those before it. -/
theorem readDigits?_cons {base value : Nat} {c : Char} (known : base <= 16)
    (digit : digitValue c < base) (rest : List Char) :
    readDigits? base value (c :: rest) = readDigits? base (value * base + digitValue c) rest := by
  rw [readDigits?]
  · exact if_pos digit
  · rintro next others rfl
    exact absurd rfl (ne_underscore_of_digitValue_lt known digit)

/-- Digits without underscores are read as they count by their positions. -/
theorem readDigits?_eq_positional {base : Nat} {digits : List Char} (known : base <= 16)
    (each : forall c, c ∈ digits -> digitValue c < base) (value : Nat) :
    readDigits? base value digits =
      some (value * base ^ digits.length + positional base digits) := by
  induction digits generalizing value with
  | nil => simp [readDigits?, positional]
  | cons c rest inductionHypothesis =>
      obtain ⟨digit, others⟩ := List.forall_mem_cons.mp each
      rw [readDigits?_cons known digit, inductionHypothesis others, positional_cons,
        List.length_cons, pow_succ]
      congr 1
      ring

/-! ## Literals of numerals -/

/-- The literal of a hexadecimal number is the number itself. -/
theorem integer?_hexadecimal {mark : Char} {digits : List Char} (isMark : mark = 'x' ∨ mark = 'X')
    (nonempty : digits ≠ []) (each : digits.all isHexDigit = true) :
    unsignedLiteral ('0' :: mark :: digits) = '0' :: mark :: digits ∧
      integer? ('0' :: mark :: digits) = some (magnitude ('0' :: mark :: digits)) := by
  have read := readDigits?_eq_positional (le_refl 16)
    (digitValue_lt_of_all mem_hexDigits (by decide) each) 0
  have notEmpty : digits.isEmpty = false := by simpa using nonempty
  rcases isMark with rfl | rfl
  all_goals
    refine ⟨rfl, ?_⟩
    simp [integer?, markedBase?, notEmpty, read, magnitude]

/-- The literal of an octal number is marked as such. -/
theorem integer?_octal {c : Char} {rest : List Char} (each : (c :: rest).all isOctalDigit = true) :
    unsignedLiteral ('0' :: c :: rest) = '0' :: 'o' :: c :: rest ∧
      integer? ('0' :: 'o' :: c :: rest) = some (magnitude ('0' :: c :: rest)) := by
  have isOctal := (Bool.and_eq_true_iff.mp each).1
  have notX : c ≠ 'x' ∧ c ≠ 'X' := by
    constructor <;>
      · rintro rfl
        cases isOctal
  have read := readDigits?_eq_positional (by decide : 8 <= 16)
    (digitValue_lt_of_all mem_octalDigits (by decide) each) 0
  have octal : magnitude ('0' :: c :: rest) = positional 8 (c :: rest) := by
    rw [magnitude]
    · rintro digits ⟨⟩
      exact absurd rfl notX.1
    · rintro digits ⟨⟩
      exact absurd rfl notX.2
  constructor
  · simp [unsignedLiteral, notX]
  · rw [octal]
    simpa [integer?, markedBase?] using read

/-- The literal of a decimal number is the number itself. -/
theorem integer?_decimal {first : Char} {digits : List Char} (isFirst : first.isDigit = true)
    (notZero : first ≠ '0') (each : digits.all Char.isDigit = true) :
    unsignedLiteral (first :: digits) = first :: digits ∧
      integer? (first :: digits) = some (magnitude (first :: digits)) := by
  have read := readDigits?_eq_positional (by decide : 10 <= 16)
    (digitValue_lt_of_all mem_digits (by decide) each) (digitValue first)
  constructor
  · unfold unsignedLiteral
    split
    · next same => exact absurd (List.cons.inj same).1 notZero
    · rfl
  · rw [integer?, if_pos isFirst, read, magnitude, positional_cons]
    all_goals simp [notZero]

/-- The literal of a number without a sign has the value of the number, and it is no
decimal number with a zero in front. -/
theorem integer?_unsignedLiteral {text : List Char} (isNumber : isUnsigned text = true) :
    integer? (unsignedLiteral text) = some (magnitude text) ∧
      forall c rest, unsignedLiteral text = '0' :: c :: rest -> c.isDigit = false := by
  rcases isUnsigned_iff.mp isNumber with isHex | isOctal | isDecimal
  · obtain ⟨mark, digits, rfl, isMark, nonempty, each⟩ := mem_hexadecimal.mp isHex
    obtain ⟨same, read⟩ := integer?_hexadecimal isMark nonempty each
    rw [same]
    refine ⟨read, ?_⟩
    rintro c rest ⟨⟩
    rcases isMark with rfl | rfl <;> rfl
  · obtain ⟨digits, rfl, each⟩ := mem_octal.mp isOctal
    cases digits with
    | nil => exact ⟨rfl, by simp [unsignedLiteral]⟩
    | cons first others =>
        obtain ⟨marked, read⟩ := integer?_octal each
        rw [marked]
        refine ⟨read, ?_⟩
        rintro c rest ⟨⟩
        rfl
  · obtain ⟨first, digits, rfl, ⟨isFirst, notZero⟩, each⟩ := mem_decimal.mp isDecimal
    obtain ⟨same, read⟩ := integer?_decimal isFirst notZero each
    rw [same]
    refine ⟨read, ?_⟩
    rintro c rest ⟨⟩
    exact absurd rfl notZero

example : integer? "007".toList = none ∧ integer? (unsignedLiteral "007".toList) = some 7 := by
  decide

/-- An integer literal has no sign. -/
theorem signedInteger?_of_integer? {text : List Char} {magnitude : Nat}
    (valid : integer? text = some magnitude) : signedInteger? text = some (magnitude : Int) := by
  unfold signedInteger?
  split
  · have noDigit : '-'.isDigit = false := by decide
    simp [integer?, noDigit] at valid
  · rw [valid, Option.map_some]

/-- The literal of a numeral has the value of the numeral, and it is no decimal number with
a zero in front. -/
theorem signedInteger?_numberLiteral {text : List Char} (isNumber : isNumeral text = true) :
    signedInteger? (numberLiteral text) = some (value text) ∧
      ¬ HasSpareZero (numberLiteral text) := by
  unfold isNumeral at isNumber
  split at isNumber
  · next digits =>
      obtain ⟨read, unpadded⟩ := integer?_unsignedLiteral isNumber
      rw [numberLiteral, value]
      refine ⟨by rw [signedInteger?, read, Option.map_some], ?_⟩
      rintro ⟨sign, c, rest, same, rfl | rfl, isDigit⟩
      · cases same
      · rw [unpadded c rest (List.cons.inj same).2] at isDigit
        cases isDigit
  · next digits notSigned =>
      obtain ⟨read, unpadded⟩ := integer?_unsignedLiteral isNumber
      have signed := signedInteger?_of_integer? read
      rw [numberLiteral, value]
      · refine ⟨signed, ?_⟩
        rintro ⟨sign, c, rest, same, rfl | rfl, isDigit⟩
        · rw [unpadded c rest same] at isDigit
          cases isDigit
        · -- A literal with a sign is no integer literal.
          rw [same] at read
          cases read
      all_goals exact notSigned

/-- The literal of a number that the lexer returns is an integer literal of Python behind an
optional minus sign. It has the value of the number, and it is no decimal number with a zero
in front. -/
theorem signedInteger?_literal (text : String)
    (returned : ∃ source, .number text ∈ (Lexing.ofText source).tokens.map (·.kind)) :
    signedInteger? (literal (.number text)).toList = some (value text.toList) ∧
      ¬ HasSpareZero (literal (.number text)).toList := by
  have isNumber := isNumeral_iff.mpr (Lexing.number_mem_iff.mp returned)
  rw [literal, String.toList_ofList]
  exact signedInteger?_numberLiteral isNumber

/-- A negative octal number is marked behind its sign, and zeros alone are octal too. -/
theorem signedInteger?_literal_octal :
    literal (.number "-0170") = "-0o170" ∧ signedInteger? "-0o170".toList = some (-120) ∧
      ¬ HasSpareZero "-0o170".toList ∧
      literal (.number "00") = "0o0" ∧ signedInteger? "0o0".toList = some 0 ∧
      ¬ HasSpareZero "0o0".toList := by
  have negative : literal (.number "-0170") = "-0o170" := by decide
  have zeros : literal (.number "00") = "0o0" := by decide
  have readNegative := signedInteger?_literal "-0170" ⟨"const A = -0170;", by decide +kernel⟩
  have readZeros := signedInteger?_literal "00" ⟨"[00]", by decide +kernel⟩
  rw [negative] at readNegative
  rw [zeros] at readZeros
  exact ⟨negative, readNegative.1, readNegative.2, zeros, readZeros.1, readZeros.2⟩

end Python

end XdrPack
