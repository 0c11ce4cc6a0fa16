import Mathlib.Data.Int.Log
import Mathlib.Data.Rat.Floor
import Mathlib.Tactic.Linarith

/-!
Arithmetic of binary floats with 53 bits, by exact values: rounding to the nearest
float, ties to even. A rounded value has the sign of the exact one.
-/
namespace DocGuard.Doubles

/-- The nearest integer; of two nearest ones, the even one. -/
def roundEven (q : ℚ) : Int :=
  let below := ⌊q⌋
  if q - below < 1 / 2 then below
  else if 1 / 2 < q - below then below + 1
  else below + below % 2

/-- The distance of the floats around a number. -/
def spacing (q : ℚ) : ℚ := 2 ^ max (Int.log 2 |q| - 52) (-1074)

/-- The nearest float, if it is finite. -/
def toDouble (q : ℚ) : Option ℚ :=
  let nearest := roundEven (q / spacing q) * spacing q
  if |nearest| < 2 ^ 1024 then some nearest else none

theorem spacing_pos (q : ℚ) : 0 < spacing q := zpow_pos (by norm_num) _

theorem roundEven_nonneg {q : ℚ} (nonneg : 0 ≤ q) : 0 ≤ roundEven q := by
  have below : 0 ≤ ⌊q⌋ := Int.floor_nonneg.mpr nonneg
  unfold roundEven
  dsimp only
  split_ifs
  · exact below
  · omega
  · omega

theorem roundEven_nonpos {q : ℚ} (nonpos : q ≤ 0) : roundEven q ≤ 0 := by
  have below : ⌊q⌋ ≤ 0 := Int.floor_nonpos nonpos
  have floor := Int.floor_le q
  unfold roundEven
  dsimp only
  split_ifs with down
  · exact below
  · -- the fraction is positive, so that the floor is negative
    have negative : ⌊q⌋ ≠ 0 := by
      intro zero
      rw [zero, Int.cast_zero] at down floor
      linarith
    omega
  · have negative : ⌊q⌋ ≠ 0 := by
      intro zero
      rw [zero, Int.cast_zero] at down floor
      linarith
    omega

theorem toDouble_eq {q r : ℚ} (rounded : toDouble q = some r) : r = roundEven (q / spacing q) * spacing q := by
  unfold toDouble at rounded
  dsimp only at rounded
  split at rounded
  · exact (Option.some.inj rounded).symm
  · cases rounded

theorem toDouble_nonneg {q r : ℚ} (nonneg : 0 ≤ q) (rounded : toDouble q = some r) : 0 ≤ r := by
  have quotient : 0 ≤ roundEven (q / spacing q) := roundEven_nonneg (div_nonneg nonneg (spacing_pos q).le)
  rw [toDouble_eq rounded]
  exact mul_nonneg (Int.cast_nonneg quotient) (spacing_pos q).le

theorem toDouble_nonpos {q r : ℚ} (nonpos : q ≤ 0) (rounded : toDouble q = some r) : r ≤ 0 := by
  have quotient : roundEven (q / spacing q) ≤ 0 := roundEven_nonpos (div_nonpos_of_nonpos_of_nonneg nonpos (spacing_pos q).le)
  rw [toDouble_eq rounded]
  exact mul_nonpos_of_nonpos_of_nonneg (Int.cast_nonpos.mpr quotient) (spacing_pos q).le

end DocGuard.Doubles
