import Mathlib.Data.Int.Notation
import Mathlib.Tactic.TypeStar
import Mathlib.Algebra.Group.Int.Defs

/-!
# Checked machine arithmetic

Arithmetic of signed machine integers in which an overflow is an error: an operation computes the
exact integer and fails if that is not a value of the type.  A computation that returns something
has therefore kept every intermediate value in the type.  Division truncates, as in C.
-/

set_option autoImplicit false

namespace Checked

/-- `x` is a value of the signed type with `w` bits. -/
def Fits (w : Nat) (x : Int) : Prop := -2 ^ (w - 1) ≤ x ∧ x < 2 ^ (w - 1)

instance (w : Nat) (x : Int) : Decidable (Fits w x) := inferInstanceAs (Decidable (_ ∧ _))

def narrow (w : Nat) (x : Int) : Option Int := if Fits w x then some x else none

def add (w : Nat) (x y : Int) : Option Int := narrow w (x + y)
def sub (w : Nat) (x y : Int) : Option Int := narrow w (x - y)
def mul (w : Nat) (x y : Int) : Option Int := narrow w (x * y)
def div (w : Nat) (x y : Int) : Option Int := if y = 0 then none else narrow w (x.tdiv y)

variable {w : Nat} {x y : Int}

theorem narrow_of_fits (h : Fits w x) : narrow w x = some x := if_pos h

theorem add_of_fits (h : Fits w (x + y)) : add w x y = some (x + y) := narrow_of_fits h

theorem sub_of_fits (h : Fits w (x - y)) : sub w x y = some (x - y) := narrow_of_fits h

theorem mul_of_fits (h : Fits w (x * y)) : mul w x y = some (x * y) := narrow_of_fits h

theorem div_of_fits (hy : y ≠ 0) (h : Fits w (x.tdiv y)) : div w x y = some (x.tdiv y) := by
  rw [div, if_neg hy, narrow_of_fits h]

theorem narrow_eq_some {z : Int} : narrow w x = some z ↔ Fits w x ∧ x = z := by
  rw [narrow]
  split <;> simp [*]

theorem add_eq_some {z : Int} : add w x y = some z ↔ Fits w (x + y) ∧ x + y = z := narrow_eq_some

theorem sub_eq_some {z : Int} : sub w x y = some z ↔ Fits w (x - y) ∧ x - y = z := narrow_eq_some

theorem mul_eq_some {z : Int} : mul w x y = some z ↔ Fits w (x * y) ∧ x * y = z := narrow_eq_some

theorem div_eq_some {z : Int} (hy : y ≠ 0) :
    div w x y = some z ↔ Fits w (x.tdiv y) ∧ x.tdiv y = z := by
  rw [div, if_neg hy, narrow_eq_some]

/-- The values of a type are an interval. -/
theorem Fits.between {z : Int} (hx : Fits w x) (hz : Fits w z) (h1 : x ≤ y) (h2 : y ≤ z) :
    Fits w y := ⟨Int.le_trans hx.1 h1, Int.lt_of_le_of_lt h2 hz.2⟩

/-- A sum that leaves the signed type with 32 bits at the upper end comes back at the lower one. -/
theorem bmod_eq (hlo : -2147483648 ≤ x) (hhi : x < 4294967296) :
    x.bmod 4294967296 = if x < 2147483648 then x else x - 4294967296 := by
  rw [Int.bmod_def]
  split <;> split <;> omega

/-- What wraps does not become larger. -/
theorem bmod_le (h : 0 ≤ x) : x.bmod 4294967296 ≤ x := by
  rw [Int.bmod_def]
  split
  · omega
  · omega

theorem toInt_add_one {x : Int32} (h : x.toInt < 2147483647) : (x + 1).toInt = x.toInt + 1 := by
  have hle := x.le_toInt
  rw [Int32.toInt_add, show (1 : Int32).toInt = 1 from rfl, Int.bmod_eq_of_le (by omega) (by omega)]

theorem toInt_sub_one {x : Int32} (h : 0 < x.toInt) : (x - 1).toInt = x.toInt - 1 := by
  have hlt := x.toInt_lt
  rw [Int32.toInt_sub, show (1 : Int32).toInt = 1 from rfl, Int.bmod_eq_of_le (by omega) (by omega)]

end Checked
