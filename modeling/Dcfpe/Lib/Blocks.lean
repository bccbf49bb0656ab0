import Mathlib.Data.Int.Interval
import Mathlib.Algebra.Order.Ring.Int
import Mathlib.Data.Rat.Floor

/-!
# An interval cut into blocks

The integers from `first` to `last`, cut from the left into blocks of `size` elements, of which the
last one takes what is left.  Blocks are numbered from 0.
-/

set_option autoImplicit false

namespace Blocks

variable (first last size : Int)

/-- The number of blocks: the length of the interval divided by the size, rounded up. -/
def count : Int := (last - first + 1 + size - 1) / size

def lower (k : Int) : Int := k * size + first

def upper (k : Int) : Int := min (lower first size k + size - 1) last

variable {first last size}

/-- The number of blocks by what it is for: one block less does not cover the interval. -/
theorem count_bounds (first last : Int) (hsize : 1 ≤ size) :
    last - first + 1 ≤ count first last size * size ∧
      (count first last size - 1) * size < last - first + 1 := by
  have hdiv := Int.emod_add_mul_ediv (last - first + 1 + size - 1) size
  have hmod := Int.emod_nonneg (last - first + 1 + size - 1) (show size ≠ 0 by omega)
  have hlt := Int.emod_lt_of_pos (last - first + 1 + size - 1) (show 0 < size by omega)
  rw [← count, Int.mul_comm size] at hdiv
  rw [Int.sub_mul, Int.one_mul]
  omega

theorem count_eq_ceil (hsize : 1 ≤ size) :
    count first last size = ⌈((last - first + 1 : Int) : ℚ) / size⌉ := by
  obtain ⟨hle, hlt⟩ := count_bounds first last hsize
  have hpos : (0 : ℚ) < size := by exact_mod_cast (show 0 < size by omega)
  symm
  rw [Int.ceil_eq_iff, lt_div_iff₀ hpos, div_le_iff₀ hpos]
  exact ⟨by exact_mod_cast hlt, by exact_mod_cast hle⟩

theorem count_nonneg (hsize : 1 ≤ size) (h : first ≤ last + 1) : 0 ≤ count first last size :=
  Int.ediv_nonneg (by omega) (by omega)

theorem lower_succ (first size k : Int) : lower first size (k + 1) = lower first size k + size := by
  rw [lower, lower, Int.add_mul, Int.one_mul]
  omega

/-- A block of the interval begins in it. -/
theorem lower_le_last (first : Int) (hsize : 1 ≤ size) {k : Int} (hk : k < count first last size) :
    lower first size k ≤ last := by
  have hlt := (count_bounds first last hsize).2
  have hmono : k * size ≤ (count first last size - 1) * size :=
    Int.mul_le_mul_of_nonneg_right (by omega) (by omega)
  rw [lower]
  omega

theorem first_le_lower (first : Int) (hsize : 1 ≤ size) {k : Int} (hk : 0 ≤ k) :
    first ≤ lower first size k := by
  have := Int.mul_nonneg hk (show 0 ≤ size by omega)
  rw [lower]
  omega

/-- A block that is not the last one has all its elements. -/
theorem upper_eq (first last : Int) (hsize : 1 ≤ size) {k : Int}
    (hk : k + 1 < count first last size) :
    upper first last size k = lower first size (k + 1) - 1 := by
  have := lower_le_last first hsize hk
  rw [lower_succ] at *
  rw [upper]
  omega

/-- The last block ends with the interval. -/
theorem upper_last (hsize : 1 ≤ size) :
    upper first last size (count first last size - 1) = last := by
  have hle := (count_bounds first last hsize).1
  have hsucc := lower_succ first size (count first last size - 1)
  rw [Int.sub_add_cancel] at hsucc
  rw [upper, ← hsucc, lower]
  omega

theorem lower_le_upper (hsize : 1 ≤ size) {k : Int} (hk : k < count first last size) :
    lower first size k ≤ upper first last size k := by
  have := lower_le_last first hsize hk
  rw [upper]
  omega

theorem upper_sub_lower_le (k : Int) :
    upper first last size k - lower first size k + 1 ≤ size := by
  rw [upper]
  omega

/-- The blocks lie one after the other. -/
theorem upper_lt_lower (first last : Int) (hsize : 1 ≤ size) {j k : Int} (h : j < k) :
    upper first last size j < lower first size k := by
  have hmono : (j + 1) * size ≤ k * size :=
    Int.mul_le_mul_of_nonneg_right (by omega) (by omega)
  rw [upper, lower, lower]
  rw [Int.add_mul, Int.one_mul] at hmono
  omega

/-- Every element of the interval lies in the block with the number one expects. -/
theorem mem_block (hsize : 1 ≤ size) {x : Int} (hx : first ≤ x) (hxl : x ≤ last) :
    0 ≤ (x - first) / size ∧ (x - first) / size < count first last size ∧
      lower first size ((x - first) / size) ≤ x ∧
      x ≤ upper first last size ((x - first) / size) := by
  have hdiv := Int.emod_add_mul_ediv (x - first) size
  have hmod := Int.emod_nonneg (x - first) (show size ≠ 0 by omega)
  have hlt := Int.emod_lt_of_pos (x - first) (show 0 < size by omega)
  have hcount := (count_bounds first last hsize).1
  rw [Int.mul_comm size] at hdiv
  refine ⟨Int.ediv_nonneg (by omega) (by omega), ?_, by rw [lower]; omega,
    by rw [upper, lower]; omega⟩
  refine Int.lt_of_mul_lt_mul_right (a := size) ?_ (by omega)
  omega

end Blocks
