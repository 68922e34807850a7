import Mathlib.Algebra.Order.Ring.Int

/-!
# Arithmetic of C integers

The value of an expression of the type `int` is an integer. An operation whose result
is not a value of the type has no meaning, and is `none`.
-/

namespace EDBus.Semantics

namespace CInt

/-- The integer is a value of a signed type of 32 bits. -/
def InRange (value : Int) : Prop := -2 ^ 31 ≤ value ∧ value < 2 ^ 31

instance (value : Int) : Decidable (InRange value) := inferInstanceAs (Decidable (_ ∧ _))

/-- The result of an operation. -/
def check (value : Int) : Option Int := if InRange value then some value else none

/-- `+`. -/
def add (left right : Int) : Option Int := check (left + right)

/-- `-`. -/
def sub (left right : Int) : Option Int := check (left - right)

/-- `*`. -/
def mul (left right : Int) : Option Int := check (left * right)

/-- `/`, which rounds to zero. -/
def div (left right : Int) : Option Int := if right = 0 then none else check (left.tdiv right)

theorem check_of {value : Int} (inRange : InRange value) : check value = some value := if_pos inRange

theorem check_eq_some_iff {value result : Int} : check value = some result ↔ InRange value ∧ value = result := by
  unfold check
  split
  · next inRange => simp [inRange]
  · next outside => simp [outside]

/-- A quotient is not larger than what was divided. -/
theorem inRange_tdiv {value divisor : Int} (inRange : InRange value) (positive : 0 < divisor) :
    InRange (value.tdiv divisor) := by
  have smaller := Int.natAbs_tdiv_le_natAbs value divisor
  unfold InRange at inRange ⊢
  rcases le_total 0 value with nonneg | nonpos
  · have quotient := Int.tdiv_nonneg nonneg positive.le
    omega
  · have quotient := Int.tdiv_nonneg (neg_nonneg.mpr nonpos) positive.le
    rw [Int.neg_tdiv] at quotient
    omega

end CInt

end EDBus.Semantics
