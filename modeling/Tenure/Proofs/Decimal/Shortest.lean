import Tenure.Decimal.Shortest

/-!
# The shortest decimal of a positive float is positive

The digits of a decimal are those of a neighbour of the float on a grid. Zero is not among the
decimals that read back, and on the finest grid that is tried the float is at least one.
-/

set_option autoImplicit false

namespace Tenure.Decimal

theorem trim_pos {count : Nat} {decimal : ShortDecimal} (positive : 0 < decimal.digits) :
    0 < (decimal.trim count).digits := by
  induction count generalizing decimal with
  | zero => exact positive
  | succ count ih =>
      unfold ShortDecimal.trim
      split
      · refine ih ?_
        simp only
        omega
      · exact positive

theorem Ratio.le_round (ratio : Ratio) (tie : Tie) : ratio.num / ratio.den ≤ ratio.round tie := by
  unfold Ratio.round
  simp only
  split
  · exact Nat.le_refl _
  · split
    · exact Nat.le_succ _
    · cases tie with
      | even =>
          simp only
          split
          · exact Nat.le_refl _
          · exact Nat.le_succ _
      | up => exact Nat.le_succ _

/-- Zero lies outside the interval of a positive float. -/
theorem Rounding.pos_of_holds {rounding : Rounding} {digits : Nat} {grid : Int}
    (positive : 0 < rounding.low) (holds : rounding.holds digits grid = true) : 0 < digits := by
  have unit : 0 < Nat.pow 10 (-grid).toNat * Nat.pow 2 rounding.exponent.toNat :=
    Nat.mul_pos (Nat.pow_pos (by decide)) (Nat.pow_pos (by decide))
  have reaches := Nat.mul_pos positive unit
  refine Nat.pos_of_ne_zero fun zero => ?_
  subst zero
  unfold Rounding.holds at holds
  simp only [Nat.zero_mul] at holds
  split at holds
  · simp only [Bool.and_eq_true, decide_eq_true_eq] at holds
    omega
  · simp at holds

theorem Rounding.pos_of_onGrid? {rounding : Rounding} {tie : Tie} {grid : Int}
    {decimal : ShortDecimal} (positive : 0 < rounding.low)
    (found : rounding.onGrid? tie grid = some decimal) : 0 < decimal.digits := by
  unfold Rounding.onGrid? at found
  simp only at found
  split at found
  · rename_i below _
    cases found
    exact Nat.lt_of_lt_of_le (pos_of_holds positive below) (Ratio.le_round _ tie)
  · rename_i below _
    cases found
    exact pos_of_holds positive below
  · cases found
    exact Nat.succ_pos _
  · cases found

theorem low_around_pos {significand : Nat} {exponent : Int} (positive : 0 < significand) :
    0 < (Rounding.around significand exponent).low := by
  unfold Rounding.around
  simp only
  split <;> omega

/-! ## The finest grid -/

theorem pointPosition_le (whole : Nat) (twos : Int) :
    pointPosition whole twos ≤ ((whole.log2 : Int) + twos) * 30103 / 100000 + 2 := by
  unfold pointPosition
  simp only
  generalize ((whole.log2 : Int) + twos) * 30103 / 100000 = guess
  cases found : List.find? _ [guess - 1, guess, guess + 1] with
  | none => exact Int.le_refl _
  | some power =>
      have member := List.mem_of_find?_eq_some found
      simp only [List.mem_cons, List.not_mem_nil, or_false] at member
      simp only [Option.getD_some]
      omega

/-- A power of two and a power of ten, compared by way of `2 ^ 13 < 10 ^ 4`. -/
theorem two_pow_le_ten_pow {twos tens : Nat} (small : twos ≤ 1100)
    (enough : 30103 * twos ≤ 100000 * (tens - 15)) : Nat.pow 2 twos ≤ Nat.pow 10 tens :=
  calc 2 ^ twos ≤ 2 ^ (13 * ((twos + 12) / 13)) := Nat.pow_le_pow_right (by decide) (by omega)
    _ = (2 ^ 13) ^ ((twos + 12) / 13) := Nat.pow_mul ..
    _ ≤ (10 ^ 4) ^ ((twos + 12) / 13) := Nat.pow_le_pow_left (by decide) _
    _ = 10 ^ (4 * ((twos + 12) / 13)) := (Nat.pow_mul ..).symm
    _ ≤ 10 ^ tens := Nat.pow_le_pow_right (by decide) (by omega)

/-- The other way round, by way of `10 ^ 3 < 2 ^ 10`. -/
theorem ten_pow_le_two_pow {tens twos : Nat} (small : twos ≤ 1100)
    (enough : 100000 * (tens + 15) ≤ 30103 * twos) : Nat.pow 10 tens ≤ Nat.pow 2 twos :=
  calc 10 ^ tens ≤ 10 ^ (3 * ((tens + 2) / 3)) := Nat.pow_le_pow_right (by decide) (by omega)
    _ = (10 ^ 3) ^ ((tens + 2) / 3) := Nat.pow_mul ..
    _ ≤ (2 ^ 10) ^ ((tens + 2) / 3) := Nat.pow_le_pow_left (by decide) _
    _ = 2 ^ (10 * ((tens + 2) / 3)) := (Nat.pow_mul ..).symm
    _ ≤ 2 ^ twos := Nat.pow_le_pow_right (by decide) (by omega)

/-- The size of `whole * 2 ^ twos` is that of a positive float. -/
structure Scaled (whole : Nat) (twos : Int) : Prop where
  positive : 0 < whole
  least : -1100 ≤ (whole.log2 : Int) + twos
  greatest : (whole.log2 : Int) + twos ≤ 1100

/-- On a grid far enough below the point the number is at least one. -/
theorem Scaled.den_le_num {whole : Nat} {twos tens : Int} (scaled : Scaled whole twos)
    (fine : 15 - ((whole.log2 : Int) + twos) * 30103 / 100000 ≤ tens) :
    (Ratio.scaled whole twos tens).den ≤ (Ratio.scaled whole twos tens).num := by
  have low := scaled.least
  have high := scaled.greatest
  have whole_ge : Nat.pow 2 whole.log2 ≤ whole := Nat.log2_self_le (Nat.ne_of_gt scaled.positive)
  simp only [Ratio.scaled]
  rcases Int.le_total 0 tens with up | down
  · have lower : Nat.pow 2 ((-twos).toNat - (whole.log2 + twos.toNat)) ≤ Nat.pow 10 tens.toNat :=
      two_pow_le_ten_pow (by omega) (by omega)
    have none : (-tens).toNat = 0 := by omega
    calc Nat.pow 2 (-twos).toNat * Nat.pow 10 (-tens).toNat
        = 2 ^ (-twos).toNat := by rw [none]; exact Nat.mul_one _
      _ ≤ 2 ^ (whole.log2 + twos.toNat + ((-twos).toNat - (whole.log2 + twos.toNat))) :=
          Nat.pow_le_pow_right (by decide) (by omega)
      _ = 2 ^ whole.log2 * 2 ^ twos.toNat * 2 ^ ((-twos).toNat - (whole.log2 + twos.toNat)) := by
          rw [Nat.pow_add, Nat.pow_add]
      _ ≤ whole * 2 ^ twos.toNat * 10 ^ tens.toNat :=
          Nat.mul_le_mul (Nat.mul_le_mul_right _ whole_ge) lower
  · have lower : Nat.pow 10 (-tens).toNat ≤ Nat.pow 2 (whole.log2 + twos.toNat - (-twos).toNat) :=
      ten_pow_le_two_pow (by omega) (by omega)
    have none : tens.toNat = 0 := by omega
    calc 2 ^ (-twos).toNat * 10 ^ (-tens).toNat
        ≤ 2 ^ (-twos).toNat * 2 ^ (whole.log2 + twos.toNat - (-twos).toNat) :=
          Nat.mul_le_mul_left _ lower
      _ = 2 ^ (whole.log2 + twos.toNat) := by
          rw [← Nat.pow_add]
          exact congrArg _ (by omega)
      _ = 2 ^ whole.log2 * 2 ^ twos.toNat := Nat.pow_add ..
      _ ≤ whole * 2 ^ twos.toNat := Nat.mul_le_mul_right _ whole_ge
      _ = Nat.mul (whole * 2 ^ twos.toNat) (10 ^ tens.toNat) := by
          rw [none]; exact (Nat.mul_one _).symm

theorem shortest_pos {significand : Nat} {exponent : Int} (scaled : Scaled significand exponent)
    (tie : Tie) : 0 < (shortest significand exponent tie).digits := by
  unfold shortest
  simp only
  split
  · rename_i decimal found
    obtain ⟨grid, _, onGrid⟩ := List.exists_of_findSome?_eq_some found
    exact trim_pos (Rounding.pos_of_onGrid? (low_around_pos scaled.positive) onGrid)
  · have near := pointPosition_le significand exponent
    refine Nat.lt_of_lt_of_le (Nat.div_pos (scaled.den_le_num ?_) ?_) (Ratio.le_round _ tie)
    · simp only [mostDigits]
      omega
    · exact Nat.mul_pos (Nat.pow_pos (by decide)) (Nat.pow_pos (by decide))

end Tenure.Decimal
