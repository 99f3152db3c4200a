import Tenure.Json
import Tenure.Json.Token

/-!
# Numbers in documents

The grammar of numbers, part by part. Each part is read as far as it goes: what follows
cannot prolong it, since the parts are told apart by their first characters. A whole number
is written by its digits and read as the number they make.
-/

set_option autoImplicit false

namespace Tenure.Json

open Tenure.Decimal

/-- Decimal digits, at least one. -/
structure Digits (chars : List Char) : Prop where
  nonempty : chars ≠ []
  digits : ∀ character ∈ chars, (digit? character).isSome = true

/-- Zero, or digits that do not start with zero. -/
inductive Whole : List Char → Prop where
  | zero : Whole ['0']
  | digits {chars : List Char} : Digits chars → chars.head? ≠ some '0' → Whole chars

inductive Fraction : List Char → Prop where
  | none : Fraction []
  | digits {chars : List Char} : Digits chars → Fraction ('.' :: chars)

inductive Power : List Char → Prop where
  | none : Power []
  | digits {letter : Char} {sign chars : List Char} : letter = 'e' ∨ letter = 'E' →
      sign = [] ∨ sign = ['+'] ∨ sign = ['-'] → Digits chars → Power (letter :: (sign ++ chars))

inductive Unsigned : List Char → Prop where
  | parts {whole fraction power : List Char} : Whole whole → Fraction fraction → Power power →
      Unsigned (whole ++ fraction ++ power)

/-- A number as it may stand in a document. -/
inductive IsNumber : List Char → Prop where
  | plain {chars : List Char} : Unsigned chars → IsNumber chars
  | minus {chars : List Char} : Unsigned chars → IsNumber ('-' :: chars)

/-- A text that does not go on with digits. -/
def NoDigit (rest : List Char) : Prop := ∀ character ∈ rest.head?, digit? character = none

/-- A text that cannot prolong a number in front of it. -/
structure EndsNumber (rest : List Char) : Prop where
  noDigit : NoDigit rest
  noPoint : rest.head? ≠ some '.'
  noPower : rest.head? ≠ some 'e' ∧ rest.head? ≠ some 'E'

theorem isSome_digit?_iff {character : Char} :
    (digit? character).isSome = true ↔ character.isDigit = true := by
  unfold digit? Char.isDigit
  split
  · rename_i within
    simpa [Char.le_def] using within
  · rename_i outside
    simpa [Char.le_def] using outside

theorem toList_pushn (text : String) (character : Char) (count : Nat) :
    (text.pushn character count).toList = text.toList ++ List.replicate count character := by
  rw [String.pushn_eq_repeat_push]
  induction count with
  | zero => simp [Nat.repeat]
  | succ count ih =>
      rw [Nat.repeat, String.toList_push, ih, List.replicate_succ', List.append_assoc]

theorem Digits.exists_first {chars : List Char} (isDigits : Digits chars) :
    ∃ first others, chars = first :: others ∧ (digit? first).isSome = true := by
  obtain ⟨first, others, rfl⟩ := List.exists_cons_of_ne_nil isDigits.nonempty
  exact ⟨first, others, rfl, isDigits.digits first List.mem_cons_self⟩

theorem Digits.cons {first : Char} {rest : List Char} (digit : (digit? first).isSome = true)
    (others : ∀ character ∈ rest, (digit? character).isSome = true) : Digits (first :: rest) where
  nonempty := List.cons_ne_nil first rest
  digits := List.forall_mem_cons.mpr ⟨digit, others⟩

theorem isSome_digit?_of_zeros (count : Nat) :
    ∀ character ∈ List.replicate count '0', (digit? character).isSome = true := by
  intro character member
  rw [List.eq_of_mem_replicate member]
  rfl

theorem Digits.pad {chars : List Char} (isDigits : Digits chars) (count : Nat) :
    Digits (chars ++ List.replicate count '0') where
  nonempty := List.append_ne_nil_of_left_ne_nil isDigits.nonempty _
  digits := List.forall_mem_append.mpr ⟨isDigits.digits, isSome_digit?_of_zeros count⟩

theorem Digits.padLeft {chars : List Char} (isDigits : Digits chars) (count : Nat) :
    Digits (List.replicate count '0' ++ chars) where
  nonempty := List.append_ne_nil_of_right_ne_nil _ isDigits.nonempty
  digits := List.forall_mem_append.mpr ⟨isSome_digit?_of_zeros count, isDigits.digits⟩

/-! ## Reading the parts -/

theorem spanDigitChars_append {chars rest : List Char}
    (digits : ∀ character ∈ chars, (digit? character).isSome = true) (ends : NoDigit rest) :
    spanDigitChars (chars ++ rest) = (chars, rest) := by
  have stops : rest.takeWhile (fun character => (digit? character).isSome) = [] ∧
      rest.dropWhile (fun character => (digit? character).isSome) = rest := by
    cases rest with
    | nil => exact ⟨rfl, rfl⟩
    | cons character others => simp [ends character rfl]
  rw [spanDigitChars, List.takeWhile_append_of_pos digits, List.dropWhile_append_of_pos digits,
    stops.1, stops.2, List.append_nil]

theorem spanWhole?_append {whole rest : List Char} (isWhole : Whole whole)
    (ends : NoDigit rest) : spanWhole? (whole ++ rest) = some (whole, rest) := by
  cases isWhole with
  | zero => rfl
  | digits isDigits first =>
      unfold spanWhole?
      split
      · rename_i others starts
        obtain ⟨character, chars, rfl⟩ := List.exists_cons_of_ne_nil isDigits.nonempty
        rw [List.cons_append, List.cons.injEq] at starts
        exact absurd (congrArg some starts.1) first
      · rw [spanDigitChars_append isDigits.digits ends]
        split
        · rename_i empty
          cases empty
          exact absurd rfl isDigits.nonempty
        · rename_i same
          cases same
          rfl

theorem spanFraction?_append {fraction rest : List Char} (isFraction : Fraction fraction)
    (ends : NoDigit rest) (noPoint : rest.head? ≠ some '.') :
    spanFraction? (fraction ++ rest) = some (fraction, rest) := by
  cases isFraction with
  | none =>
      rw [List.nil_append]
      unfold spanFraction?
      split
      · exact absurd rfl noPoint
      · rfl
  | digits isDigits =>
      rw [List.cons_append, spanFraction?, spanDigitChars_append isDigits.digits ends]
      split
      · rename_i empty
        cases empty
        exact absurd rfl isDigits.nonempty
      · rename_i same
        cases same
        rfl

theorem signOfPower_append {sign chars : List Char}
    (isSign : sign = [] ∨ sign = ['+'] ∨ sign = ['-'])
    (isDigits : Digits chars) (rest : List Char) :
    signOfPower (sign ++ chars ++ rest) = (sign, chars ++ rest) := by
  rcases isSign with rfl | rfl | rfl
  · obtain ⟨first, others, rfl, digit⟩ := isDigits.exists_first
    simp only [List.nil_append, List.cons_append]
    unfold signOfPower
    split
    · rename_i starts
      cases starts
      cases digit
    · rename_i starts
      cases starts
      cases digit
    · rfl
  · rfl
  · rfl

theorem spanPower?_append {power rest : List Char} (isPower : Power power)
    (ends : EndsNumber rest) : spanPower? (power ++ rest) = some (power, rest) := by
  cases isPower with
  | none =>
      cases rest with
      | nil => rfl
      | cons letter others =>
          have small : letter ≠ 'e' := fun same => ends.noPower.1 (congrArg some same)
          have capital : letter ≠ 'E' := fun same => ends.noPower.2 (congrArg some same)
          simp [spanPower?, small, capital]
  | @digits letter sign chars isLetter isSign isDigits =>
      have chosen : (letter = 'e' || letter = 'E') = true := by simpa using isLetter
      rw [List.cons_append, spanPower?, if_pos chosen]
      simp only [signOfPower_append isSign isDigits,
        spanDigitChars_append isDigits.digits ends.noDigit]
      split
      · rename_i empty
        cases empty
        exact absurd rfl isDigits.nonempty
      · rename_i same
        cases same
        rfl

/-! ## Reading a number -/

theorem Whole.exists_digit {whole : List Char} (isWhole : Whole whole) :
    ∃ first others, whole = first :: others ∧ (digit? first).isSome = true := by
  cases isWhole with
  | zero => exact ⟨'0', [], rfl, rfl⟩
  | digits isDigits => exact isDigits.exists_first

theorem Power.follows {power rest : List Char} (isPower : Power power)
    (ends : EndsNumber rest) : NoDigit (power ++ rest) ∧ (power ++ rest).head? ≠ some '.' := by
  cases isPower with
  | none => exact ⟨ends.noDigit, ends.noPoint⟩
  | digits isLetter =>
      rcases isLetter with rfl | rfl
      · exact ⟨by rintro character ⟨⟩; rfl, by simp⟩
      · exact ⟨by rintro character ⟨⟩; rfl, by simp⟩

theorem Fraction.noDigit {fraction rest : List Char} (isFraction : Fraction fraction)
    (ends : NoDigit rest) : NoDigit (fraction ++ rest) := by
  cases isFraction with
  | none => exact ends
  | digits =>
      rintro character ⟨⟩
      rfl

theorem Unsigned.exists_digit {chars : List Char} (unsigned : Unsigned chars) :
    ∃ first others, chars = first :: others ∧ (digit? first).isSome = true := by
  cases unsigned with
  | parts isWhole =>
      obtain ⟨first, others, rfl, digit⟩ := isWhole.exists_digit
      exact ⟨first, _, rfl, digit⟩

theorem Unsigned.minusOf_append {chars : List Char} (unsigned : Unsigned chars)
    (rest : List Char) : minusOf (chars ++ rest) = ([], chars ++ rest) := by
  obtain ⟨first, others, rfl, digit⟩ := unsigned.exists_digit
  rw [List.cons_append]
  unfold minusOf
  split
  · rename_i starts
    cases starts
    cases digit
  · rfl

theorem Unsigned.span_append {chars rest : List Char} (unsigned : Unsigned chars)
    (ends : EndsNumber rest) (sign : List Char) :
    (do
      let (whole, rest) ← spanWhole? (chars ++ rest)
      let (fraction, rest) ← spanFraction? rest
      let (power, rest) ← spanPower? rest
      return (sign ++ whole ++ fraction ++ power, rest)) = some (sign ++ chars, rest) := by
  cases unsigned with
  | @parts whole fraction power isWhole isFraction isPower =>
      obtain ⟨noDigit, noPoint⟩ := isPower.follows ends
      have order : whole ++ fraction ++ power ++ rest =
          whole ++ (fraction ++ (power ++ rest)) := by
        simp only [List.append_assoc]
      rw [order]
      simp only [spanWhole?_append isWhole (isFraction.noDigit noDigit),
        spanFraction?_append isFraction noDigit noPoint, spanPower?_append isPower ends,
        Option.bind_eq_bind, Option.bind_some, Option.pure_def, List.append_assoc]

/-- A number is read to its end. -/
theorem spanNumber?_append {lexeme rest : List Char} (isNumber : IsNumber lexeme)
    (ends : EndsNumber rest) : spanNumber? (lexeme ++ rest) = some (lexeme, rest) := by
  cases isNumber with
  | plain unsigned =>
      rw [spanNumber?, unsigned.minusOf_append]
      exact unsigned.span_append ends []
  | minus unsigned => exact unsigned.span_append ends ['-']

theorem IsNumber.exists_first {lexeme : List Char} (isNumber : IsNumber lexeme) :
    ∃ first others, lexeme = first :: others ∧ (first = '-' ∨ (digit? first).isSome = true) := by
  cases isNumber with
  | plain unsigned =>
      obtain ⟨first, others, rfl, digit⟩ := unsigned.exists_digit
      exact ⟨first, others, rfl, .inr digit⟩
  | minus => exact ⟨'-', _, rfl, .inl rfl⟩

/-- No other token starts like a number. -/
theorem scan?_number {lexeme rest : List Char} (isNumber : IsNumber lexeme)
    (ends : EndsNumber rest) :
    Token.scan? (lexeme ++ rest) = some (.number (String.ofList lexeme), rest) := by
  have scanned := spanNumber?_append isNumber ends
  obtain ⟨first, others, rfl, starts⟩ := isNumber.exists_first
  have other : ∀ character : Char, character ≠ '-' → digit? character = none →
      first ≠ character := by
    rintro character minus none rfl
    rcases starts with same | digit
    · exact minus same
    · rw [none] at digit
      cases digit
  rw [List.cons_append] at scanned ⊢
  rw [Token.scan?.eq_11, scanned]
  · rfl
  all_goals
    intro later same
    exact other _ (by decide) (by decide) (List.cons.inj same).1

/-! ## Whole numbers -/

theorem digits_toDigits (number : Nat) : Digits (Nat.toDigits 10 number) where
  nonempty := Nat.toDigits_ne_nil
  digits := fun _ member =>
    isSome_digit?_iff.mpr (Nat.isDigit_of_mem_toDigits (by decide) (by decide) member)

/-- Only zero starts with the digit zero. -/
theorem head?_toDigits {number : Nat} (positive : 0 < number) :
    (Nat.toDigits 10 number).head? ≠ some '0' := by
  induction number using Nat.strongRecOn with
  | ind number ih =>
      rw [Nat.toDigits_eq_if (by decide)]
      split
      · rename_i small
        have single : ∀ digit < 10, 0 < digit → [digit.digitChar].head? ≠ some '0' := by decide
        exact single number small positive
      · have shorter := ih (number / 10) (by omega) (by omega)
        obtain ⟨first, others, split⟩ :=
          List.exists_cons_of_ne_nil (digits_toDigits (number / 10)).nonempty
        rw [split] at shorter ⊢
        exact shorter

theorem whole_toDigits (number : Nat) : Whole (Nat.toDigits 10 number) := by
  rcases Nat.eq_zero_or_pos number with rfl | positive
  · exact .zero
  · exact .digits (digits_toDigits number) (head?_toDigits positive)

theorem isNumber_toString (number : Nat) : IsNumber (toString number).toList := by
  rw [Nat.toString_eq_ofList_toDigits, String.toList_ofList]
  have unsigned := Unsigned.parts (whole_toDigits number) .none .none
  exact .plain (by simpa using unsigned)

theorem spanDigits_of_digits {chars : List Char}
    (digits : ∀ character ∈ chars, (digit? character).isSome = true) :
    spanDigits chars = (chars.map fun character => character.toNat - '0'.toNat, []) := by
  induction chars with
  | nil => rfl
  | cons character rest ih =>
      have value : digit? character = some (character.toNat - '0'.toNat) := by
        have digit := digits character List.mem_cons_self
        unfold digit? at digit ⊢
        split at digit
        · rename_i within
          rw [if_pos within]
        · cases digit
      rw [spanDigits, value, ih fun other member => digits other (List.mem_cons_of_mem _ member)]
      rfl

theorem ofDigits_map (chars : List Char) :
    ofDigits (chars.map fun character => character.toNat - '0'.toNat) =
      Nat.ofDigitChars 10 chars 0 := by
  rw [ofDigits, List.foldl_map, Nat.ofDigitChars]
  simp only [Nat.mul_comm]

theorem spanSign_of_digits {chars : List Char} (isDigits : Digits chars) :
    spanSign chars = (false, chars) := by
  obtain ⟨first, others, rfl, digit⟩ := isDigits.exists_first
  unfold spanSign
  split
  · rename_i starts
    cases starts
    cases digit
  · rename_i starts
    cases starts
    cases digit
  · rfl

/-- The digits of a whole number are read as that number. -/
theorem natural?_toString (number : Nat) : (numeral (toString number)).natural? = some number := by
  have isDigits := digits_toDigits number
  have value : ofDigits ((Nat.toDigits 10 number).map fun character =>
      character.toNat - '0'.toNat) = number := by
    rw [ofDigits_map, Nat.ofDigitChars_ten_toDigits]
  rw [Nat.toString_eq_ofList_toDigits, numeral, String.toList_ofList,
    spanSign_of_digits isDigits]
  simp only [spanDigits_of_digits isDigits.digits]
  exact congrArg some value

end Tenure.Json
