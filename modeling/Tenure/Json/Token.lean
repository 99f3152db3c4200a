import Tenure.Decimal.Numeral
import Tenure.Json.Escape

/-!
# Tokens of documents

A written document is a sequence of marks, words, strings and numbers with blanks
between them. Strings keep their escapes and numbers their digits.
-/

set_option autoImplicit false

namespace Tenure.Json

open Tenure.Decimal

/-- The smallest units of a written document. -/
inductive Token where
  | openBrace
  | closeBrace
  | openBracket
  | closeBracket
  | comma
  | colon
  | null
  | bool (value : Bool)
  | number (lexeme : String)
  | string (lexeme : String)
deriving DecidableEq, Repr

def isBlank (character : Char) : Bool :=
  character = ' ' || character = '\t' || character = '\n' || character = '\r'

/-- The characters of a string up to its closing quotation mark, and the rest.
Control characters must be escaped, and only known escapes are allowed; halves of
surrogate pairs may stand alone here. -/
def spanString? : List Char → Option (List Char × List Char)
  | [] => none
  | '"' :: rest => some ([], rest)
  | '\\' :: 'u' :: a :: b :: c :: d :: rest =>
    if (unit? a b c d).isSome then
      (spanString? rest).map fun (inner, others) =>
        ('\\' :: 'u' :: a :: b :: c :: d :: inner, others)
    else none
  | '\\' :: character :: rest =>
    if (shortEscape? character).isSome then
      (spanString? rest).map fun (inner, others) => ('\\' :: character :: inner, others)
    else none
  | character :: rest =>
    if character.toNat < 32 || character = '\\' then none
    else (spanString? rest).map fun (inner, others) => (character :: inner, others)

def spanDigitChars (input : List Char) : List Char × List Char :=
  (input.takeWhile fun character => (digit? character).isSome,
    input.dropWhile fun character => (digit? character).isSome)

/-- The whole part of a number: zero, or digits that do not start with zero. -/
def spanWhole? : List Char → Option (List Char × List Char)
  | '0' :: rest => some (['0'], rest)
  | input =>
    match spanDigitChars input with
    | ([], _) => none
    | (digits, rest) => some (digits, rest)

def spanFraction? : List Char → Option (List Char × List Char)
  | '.' :: rest =>
    match spanDigitChars rest with
    | ([], _) => none
    | (digits, others) => some ('.' :: digits, others)
  | input => some ([], input)

def signOfPower : List Char → List Char × List Char
  | '+' :: rest => (['+'], rest)
  | '-' :: rest => (['-'], rest)
  | rest => ([], rest)

def spanPower? : List Char → Option (List Char × List Char)
  | [] => some ([], [])
  | letter :: rest =>
    if letter = 'e' || letter = 'E' then
      let (sign, body) := signOfPower rest
      match spanDigitChars body with
      | ([], _) => none
      | (digits, others) => some (letter :: sign ++ digits, others)
    else some ([], letter :: rest)

/-- The minus at the front of a number, if there is one, and the rest. -/
def minusOf : List Char → List Char × List Char
  | '-' :: rest => (['-'], rest)
  | rest => ([], rest)

def spanNumber? (input : List Char) : Option (List Char × List Char) := do
  let (sign, body) := minusOf input
  let (whole, rest) ← spanWhole? body
  let (fraction, rest) ← spanFraction? rest
  let (power, rest) ← spanPower? rest
  return (sign ++ whole ++ fraction ++ power, rest)

/-- The token at the front of a text that does not start with a blank. -/
def Token.scan? : List Char → Option (Token × List Char)
  | '\x7b' :: rest => some (.openBrace, rest)
  | '\x7d' :: rest => some (.closeBrace, rest)
  | '[' :: rest => some (.openBracket, rest)
  | ']' :: rest => some (.closeBracket, rest)
  | ',' :: rest => some (.comma, rest)
  | ':' :: rest => some (.colon, rest)
  | '"' :: rest => (spanString? rest).map fun (inner, others) =>
      (.string (String.ofList inner), others)
  | 'n' :: 'u' :: 'l' :: 'l' :: rest => some (.null, rest)
  | 't' :: 'r' :: 'u' :: 'e' :: rest => some (.bool true, rest)
  | 'f' :: 'a' :: 'l' :: 's' :: 'e' :: rest => some (.bool false, rest)
  | input => (spanNumber? input).map fun (lexeme, rest) =>
      (.number (String.ofList lexeme), rest)

/-! ## Every token takes a character -/

theorem length_of_spanString? {input inner rest : List Char}
    (scanned : spanString? input = some (inner, rest)) : rest.length < input.length := by
  fun_induction spanString? input generalizing inner rest with
  | case1 => simp at scanned
  | case2 others =>
      simp only [Option.some.injEq, Prod.mk.injEq] at scanned
      simp [← scanned.2]
  | case3 a b c d others _ ih =>
      simp only [Option.map_eq_some_iff, Prod.mk.injEq, Prod.exists] at scanned
      obtain ⟨before, after, found, _, rfl⟩ := scanned
      have shorter := ih found
      simp only [List.length_cons]
      omega
  | case4 => simp at scanned
  | case5 character others _ _ ih =>
      simp only [Option.map_eq_some_iff, Prod.mk.injEq, Prod.exists] at scanned
      obtain ⟨before, after, found, _, rfl⟩ := scanned
      have shorter := ih found
      simp only [List.length_cons]
      omega
  | case6 => simp at scanned
  | case7 => simp at scanned
  | case8 character others _ _ _ _ ih =>
      simp only [Option.map_eq_some_iff, Prod.mk.injEq, Prod.exists] at scanned
      obtain ⟨before, after, found, _, rfl⟩ := scanned
      have shorter := ih found
      simp only [List.length_cons]
      omega

theorem length_signOfPower_le (input : List Char) :
    (signOfPower input).2.length ≤ input.length := by
  unfold signOfPower
  split <;> simp

theorem length_minusOf_le (input : List Char) : (minusOf input).2.length ≤ input.length := by
  unfold minusOf
  split <;> simp

theorem length_spanDigitChars_le (input : List Char) :
    (spanDigitChars input).2.length ≤ input.length :=
  (List.dropWhile_sublist _).length_le

theorem length_spanDigitChars_lt {input : List Char}
    (found : (spanDigitChars input).1 ≠ []) : (spanDigitChars input).2.length < input.length := by
  have parts : ((spanDigitChars input).1 ++ (spanDigitChars input).2).length = input.length := by
    simp only [spanDigitChars, List.takeWhile_append_dropWhile]
  have positive := List.length_pos_iff.2 found
  rw [List.length_append] at parts
  omega

theorem length_of_spanWhole? {input digits rest : List Char}
    (scanned : spanWhole? input = some (digits, rest)) : rest.length < input.length := by
  unfold spanWhole? at scanned
  split at scanned
  · simp only [Option.some.injEq, Prod.mk.injEq] at scanned
    simp [← scanned.2]
  · split at scanned
    · simp at scanned
    · rename_i nonempty spanned
      simp only [Option.some.injEq, Prod.mk.injEq] at scanned
      have found : (spanDigitChars input).1 ≠ [] := by simpa [spanned] using nonempty
      simpa [spanned, scanned.2] using length_spanDigitChars_lt found

theorem length_of_spanFraction? {input digits rest : List Char}
    (scanned : spanFraction? input = some (digits, rest)) : rest.length ≤ input.length := by
  unfold spanFraction? at scanned
  split at scanned
  · rename_i others
    have shorter := length_spanDigitChars_le others
    split at scanned
    · simp at scanned
    · rename_i spanned
      simp only [Option.some.injEq, Prod.mk.injEq] at scanned
      rw [spanned, scanned.2] at shorter
      exact Nat.le_succ_of_le shorter
  · simp only [Option.some.injEq, Prod.mk.injEq] at scanned
    simp [scanned.2]

theorem length_of_spanPower? {input digits rest : List Char}
    (scanned : spanPower? input = some (digits, rest)) : rest.length ≤ input.length := by
  unfold spanPower? at scanned
  split at scanned
  · simp only [Option.some.injEq, Prod.mk.injEq] at scanned
    simp [← scanned.2]
  · rename_i letter others
    split at scanned
    · dsimp only at scanned
      have bodyShorter : (signOfPower others).2.length ≤ others.length := length_signOfPower_le others
      have shorter := length_spanDigitChars_le (signOfPower others).2
      split at scanned
      · simp at scanned
      · rename_i spanned
        simp only [Option.some.injEq, Prod.mk.injEq] at scanned
        rw [spanned, scanned.2] at shorter
        exact Nat.le_succ_of_le (Nat.le_trans shorter bodyShorter)
    · simp only [Option.some.injEq, Prod.mk.injEq] at scanned
      simp [← scanned.2]

theorem length_of_spanNumber? {input lexeme rest : List Char}
    (scanned : spanNumber? input = some (lexeme, rest)) : rest.length < input.length := by
  unfold spanNumber? at scanned
  simp only [Option.bind_eq_bind, Option.bind_eq_some_iff, Prod.exists, Option.pure_def,
    Option.some.injEq, Prod.mk.injEq] at scanned
  obtain ⟨whole, first, wholeFound, fraction, second, fractionFound, power, third, powerFound, _,
    rfl⟩ := scanned
  have signShorter := length_minusOf_le input
  have wholeShorter := length_of_spanWhole? wholeFound
  have fractionShorter := length_of_spanFraction? fractionFound
  have powerShorter := length_of_spanPower? powerFound
  omega

theorem Token.length_of_scan? {input rest : List Char} {token : Token}
    (scanned : Token.scan? input = some (token, rest)) : rest.length < input.length := by
  unfold Token.scan? at scanned
  split at scanned
  case h_7 others =>
    simp only [Option.map_eq_some_iff, Prod.mk.injEq, Prod.exists] at scanned
    obtain ⟨inner, after, found, _, rfl⟩ := scanned
    have shorter := length_of_spanString? found
    simp only [List.length_cons]
    omega
  case h_11 =>
    simp only [Option.map_eq_some_iff, Prod.mk.injEq, Prod.exists] at scanned
    obtain ⟨lexeme, after, found, _, rfl⟩ := scanned
    exact length_of_spanNumber? found
  all_goals
    simp only [Option.some.injEq, Prod.mk.injEq] at scanned
    simp only [← scanned.2, List.length_cons]
    omega

def tokens? (input : List Char) : Option (List Token) :=
  match input with
  | [] => some []
  | character :: others =>
    if isBlank character then tokens? others
    else
      match _ : Token.scan? (character :: others) with
      | none => none
      | some (token, rest) => (tokens? rest).map (token :: ·)
termination_by input.length
decreasing_by
  · simp
  · exact Token.length_of_scan? (by assumption)

/-! ## Numbers -/

def numeral (lexeme : String) : Numeral :=
  let (negative, unsigned) := spanSign lexeme.toList
  let (whole, rest) := spanDigits unsigned
  let (fraction, rest) :=
    match rest with
    | '.' :: others => ((spanDigits others).1, (spanDigits others).2) |>.map some id
    | others => (none, others)
  let power :=
    match rest with
    | [] => none
    | _ :: others =>
      let (falling, digits) := spanSign others
      some (falling, (spanDigits digits).1)
  { negative, whole, fraction, power }

end Tenure.Json
