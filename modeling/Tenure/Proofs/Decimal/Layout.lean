import Tenure.Proofs.Decimal.Shortest
import Tenure.Proofs.Json.Numbers

/-!
# Written floats are numbers

Whichever layout its digits get, the text of a finite float is a number in the grammar of
documents. What is no number is written as null.
-/

set_option autoImplicit false

namespace Tenure.Decimal

open Tenure.Json Float.Model

theorem fraction_zero : Fraction ['.', '0'] := .digits (Digits.cons rfl (by simp))

/-- Digits with the first one other than zero, laid out positionally. -/
theorem unsigned_layPositional {digits : String} (isDigits : Digits digits.toList)
    (leading : digits.toList.head? ≠ some '0') (point : Int) :
    Unsigned (layPositional digits point ".0").toList := by
  unfold layPositional
  simp only
  split
  · -- The point stands in front of all digits.
    have parts := Unsigned.parts .zero (.digits (isDigits.padLeft (-point).toNat)) .none
    simpa [String.toList_append, toList_pushn] using parts
  · split
    · -- It stands behind all of them, in front of an added zero.
      have whole : Whole (digits.toList ++ List.replicate (point.toNat - digits.length) '0') := by
        refine .digits (isDigits.pad _) ?_
        obtain ⟨first, others, split, _⟩ := isDigits.exists_first
        rw [split] at leading ⊢
        exact leading
      have parts := Unsigned.parts whole fraction_zero .none
      simpa [String.toList_append, toList_pushn] using parts
    · -- It stands between two of them.
      rename_i above inside
      rw [← String.length_toList] at inside
      have whole : Whole (digits.toList.take point.toNat) := by
        refine .digits ⟨?_, fun character member =>
          isDigits.digits character (List.mem_of_mem_take member)⟩ ?_
        · rw [ne_eq, List.take_eq_nil_iff]
          rintro (zero | empty)
          · omega
          · exact isDigits.nonempty empty
        · rw [List.head?_take, if_neg (by omega)]
          exact leading
      have fraction : Fraction ('.' :: digits.toList.drop point.toNat) := by
        refine .digits ⟨?_, fun character member =>
          isDigits.digits character (List.mem_of_mem_drop member)⟩
        rw [ne_eq, List.drop_eq_nil_iff]
        omega
      have parts := Unsigned.parts whole fraction .none
      simpa [String.toList_append] using parts

theorem power_digits (exponent : Int) : Power ('e' ::
    ((if exponent < 0 then "-" else "+").toList ++ (toString exponent.natAbs).toList)) := by
  rw [Nat.toString_eq_ofList_toDigits, String.toList_ofList]
  refine .digits (.inl rfl) ?_ (digits_toDigits exponent.natAbs)
  split
  · exact .inr (.inr rfl)
  · exact .inr (.inl rfl)

/-- A single digit may stand in front of a point, also a zero. -/
theorem whole_singleton {digit : Char} (isDigit : (digit? digit).isSome = true) :
    Whole [digit] := by
  by_cases zero : digit = '0'
  · exact zero ▸ .zero
  · exact .digits (Digits.cons isDigit (by simp)) (by simpa using zero)

theorem unsigned_layScientific {digits : String} (isDigits : Digits digits.toList)
    (point : Int) : Unsigned (layScientific digits point).toList := by
  have power := power_digits (point - 1)
  obtain ⟨leading, rest, split⟩ := List.exists_cons_of_ne_nil isDigits.nonempty
  have members := isDigits.digits
  rw [split] at members
  have whole := whole_singleton (members leading List.mem_cons_self)
  unfold layScientific
  cases rest with
  | nil =>
      have parts := Unsigned.parts whole .none power
      simpa [split, String.toList_append] using parts
  | cons next others =>
      have fraction : Fraction ('.' :: next :: others) :=
        .digits ⟨List.cons_ne_nil next others, fun character member =>
          members character (List.mem_cons_of_mem leading member)⟩
      have parts := Unsigned.parts whole fraction power
      simpa [split, String.toList_append] using parts

theorem unsigned_lay {decimal : ShortDecimal} (positive : 0 < decimal.digits) :
    Unsigned (documentFormat.lay decimal).toList := by
  have isDigits : Digits (toString decimal.digits).toList := by
    rw [Nat.toString_eq_ofList_toDigits, String.toList_ofList]
    exact digits_toDigits decimal.digits
  have leading : (toString decimal.digits).toList.head? ≠ some '0' := by
    rw [Nat.toString_eq_ofList_toDigits, String.toList_ofList]
    exact head?_toDigits positive
  unfold FloatFormat.lay
  simp only
  split
  · exact unsigned_layPositional isDigits leading _
  · exact unsigned_layScientific isDigits _

/-! ## Finite floats -/

theorem scaled_of_ofFloat {value : Float} {negative : Bool} {significand : Nat} {exponent : Int}
    (finite : Binary.ofFloat value = .finite negative significand exponent)
    (positive : 0 < significand) : Scaled significand exponent := by
  have bounds : significand < 2 ^ 53 ∧ -1074 ≤ exponent ∧ exponent ≤ 971 := by
    unfold Binary.ofFloat hiddenBit at finite
    simp only at finite
    split at finite
    · split at finite <;> cases finite
    · split at finite
      · cases finite
        omega
      · cases finite
        omega
  obtain ⟨below, least, greatest⟩ := bounds
  have length := (Nat.log2_lt (Nat.ne_of_gt positive)).mpr below
  exact ⟨positive, by omega, by omega⟩

theorem unpackExponent_eq (value : Float) :
    (@UnpackedFloat.unpackExponent .binary64 value.toModel.toBits.toBitVec).toNat =
      value.toBits.toNat / hiddenBit % 2048 := by
  have shifted : value.toModel.toBits.toNat >>> 52 = value.toBits.toNat / hiddenBit :=
    Nat.shiftRight_eq_div_pow _ 52
  simp [UnpackedFloat.unpackExponent, shifted]

theorem isFinite_iff_scale {value : Float} :
    value.isFinite = true ↔ value.toBits.toNat / hiddenBit % 2048 ≠ 2047 := by
  have top : @UnpackedFloat.unpackExponent .binary64 value.toModel.toBits.toBitVec = -1#11 ↔
      value.toBits.toNat / hiddenBit % 2048 = 2047 := by
    rw [← BitVec.toNat_inj, unpackExponent_eq]
    rfl
  rw [ne_eq, ← top]
  unfold Float.isFinite Float.Model.isFinite Float.Model.unpack UnpackedFloat.unpack
  dsimp only
  -- Which zero, infinity or number it is does not matter: only the exponent decides.
  by_cases greatest :
      @UnpackedFloat.unpackExponent .binary64 value.toModel.toBits.toBitVec = -1#11
  · refine iff_of_false ?_ fun smaller => smaller greatest
    rw [if_pos greatest, apply_ite UnpackedFloat.isFinite]
    exact ite_self false ▸ Bool.false_ne_true
  · refine iff_of_true ?_ greatest
    rw [if_neg greatest, apply_ite UnpackedFloat.isFinite, apply_dite UnpackedFloat.isFinite]
    exact (congrArg (ite _ · true) (ite_self true)).trans (ite_self true)

theorem isFinite_iff {value : Float} : value.isFinite = true ↔
    ∃ negative significand exponent,
      Binary.ofFloat value = .finite negative significand exponent := by
  rw [isFinite_iff_scale]
  unfold Binary.ofFloat
  simp only
  split
  · rename_i top
    simp only [top, ne_eq, not_true_eq_false, false_iff]
    split <;> simp
  · rename_i smaller
    simp only [smaller, ne_eq, not_false_eq_true, true_iff]
    split
    · exact ⟨_, _, _, rfl⟩
    · exact ⟨_, _, _, rfl⟩

/-- The text of a finite float is a number. -/
theorem isNumber_write {value : Float} (finite : value.isFinite = true) :
    IsNumber (documentFormat.write value).toList := by
  obtain ⟨negative, significand, exponent, binary⟩ := isFinite_iff.mp finite
  rw [FloatFormat.write, binary]
  simp only
  split
  · have zero := Unsigned.parts .zero fraction_zero .none
    cases negative with
    | true => exact .minus zero
    | false => exact .plain zero
  · rename_i nonzero
    have positive := Nat.pos_of_ne_zero nonzero
    have lay := unsigned_lay (shortest_pos (scaled_of_ofFloat binary positive) .even)
    rw [String.toList_append]
    cases negative with
    | true => exact .minus lay
    | false => exact .plain lay

/-- What is no number is written as null. -/
theorem write_of_not_finite {value : Float} (infinite : value.isFinite = false) :
    documentFormat.write value = "null" := by
  rw [FloatFormat.write]
  cases binary : Binary.ofFloat value with
  | notANumber => rfl
  | infinite negative => cases negative <;> rfl
  | finite negative significand exponent =>
      rw [isFinite_iff.mpr ⟨negative, significand, exponent, binary⟩] at infinite
      cases infinite

end Tenure.Decimal
