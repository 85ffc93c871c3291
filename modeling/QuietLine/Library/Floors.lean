/-
Sums of quotients.

Dividing piece by piece loses a remainder at every piece.  What a list of numerators
yields over one divisor is their sum less what the remainders add up to, and they add
up to less than one divisor a piece.

A numerator that wraps is off by the modulus, which shows in the quotient as soon as the
divisors together are no larger.
-/
import Mathlib.Algebra.BigOperators.Group.List.Basic
import Mathlib.Tactic.Ring

namespace Floors

variable (divisor : Nat)

/-- What the pieces yield, each rounded down. -/
def quotients (pieces : List Nat) : Nat := (pieces.map (· / divisor)).sum

/-- What rounding takes from them. -/
def remainders (pieces : List Nat) : Nat := (pieces.map (· % divisor)).sum

@[simp] theorem quotients_nil : quotients divisor [] = 0 := rfl

@[simp] theorem quotients_cons (piece : Nat) (rest : List Nat) :
    quotients divisor (piece :: rest) = piece / divisor + quotients divisor rest := rfl

@[simp] theorem remainders_nil : remainders divisor [] = 0 := rfl

@[simp] theorem remainders_cons (piece : Nat) (rest : List Nat) :
    remainders divisor (piece :: rest) = piece % divisor + remainders divisor rest := rfl

theorem quotients_add_remainders (pieces : List Nat) :
    divisor * quotients divisor pieces + remainders divisor pieces = pieces.sum := by
  induction pieces with
  | nil => simp
  | cons piece rest ih =>
      have hpiece := Nat.div_add_mod piece divisor
      simp only [quotients_cons, remainders_cons, List.sum_cons, Nat.mul_add]
      omega

variable {divisor}

theorem remainders_lt (hpos : 0 < divisor) {pieces : List Nat} (h : pieces ≠ []) :
    remainders divisor pieces < pieces.length * divisor := by
  induction pieces with
  | nil => exact absurd rfl h
  | cons piece rest ih =>
      have hpiece := Nat.mod_lt piece hpos
      rw [remainders_cons, List.length_cons, Nat.add_mul, Nat.one_mul]
      by_cases hrest : rest = []
      · simp only [hrest, remainders_nil, List.length_nil]
        omega
      · have := ih hrest
        omega

/-! ### Wrapped numerators -/

theorem wrapped_div_eq {n first start second modulus : Nat} (hfirst : 0 < first)
    (hsecond : 0 < second) (hle : first * second ≤ modulus) :
    (start + n % modulus / first) / second = (start + n / first) / second ↔ n < modulus := by
  constructor
  · intro h
    by_contra hlt
    have hn : n % modulus + first * second ≤ n := by
      have hmodulus : 0 < modulus := Nat.lt_of_lt_of_le (Nat.mul_pos hfirst hsecond) hle
      have hpos : 1 ≤ n / modulus :=
        (Nat.one_le_div_iff hmodulus).mpr (Nat.not_lt.mp hlt)
      have := Nat.mul_le_mul_left modulus hpos
      have := Nat.mod_add_div n modulus
      omega
    have hquotient : n % modulus / first + second ≤ n / first := by
      have := Nat.div_le_div_right (c := first) hn
      rwa [Nat.add_mul_div_left _ _ hfirst] at this
    have hstep : (start + n % modulus / first) / second + 1 ≤ (start + n / first) / second := by
      rw [← Nat.add_div_right _ hsecond]
      exact Nat.div_le_div_right (by omega)
    omega
  · intro h
    rw [Nat.mod_eq_of_lt h]

/-- The same for one division. -/
theorem wrapped_div_eq_one {n divisor modulus : Nat} (hpos : 0 < divisor)
    (hle : divisor ≤ modulus) : n % modulus / divisor = n / divisor ↔ n < modulus := by
  have h := @wrapped_div_eq n divisor 0 1 modulus hpos Nat.one_pos
    (by rwa [Nat.mul_one] : divisor * 1 ≤ modulus)
  simpa using h

/-! ### A threshold price

An amount is worth `amount * price / unit`, rounded down.  The price at which `threshold` times the
worth reaches `size` is itself rounded down; the two roundings differ by less than one unit.
-/

section Threshold

variable {amount threshold unit size price : Nat}

/-- Up to the price that is rounded down, the worth stays below. -/
theorem worth_le_of_le_price (hunit : 0 < unit)
    (h : price ≤ size * unit / (amount * threshold)) :
    threshold * (amount * price / unit) ≤ size := by
  have hprice : price * (amount * threshold) ≤ size * unit :=
    (Nat.mul_le_mul_right _ h).trans (Nat.div_mul_le_self _ _)
  refine Nat.le_of_mul_le_mul_right ?_ hunit
  calc threshold * (amount * price / unit) * unit
      = threshold * (amount * price / unit * unit) := Nat.mul_assoc ..
    _ ≤ threshold * (amount * price) := Nat.mul_le_mul_left _ (Nat.div_mul_le_self _ _)
    _ = price * (amount * threshold) := by ring
    _ ≤ size * unit := hprice

/-- As soon as the amount gains a unit on the next price, the worth is above. -/
theorem lt_worth_of_past_price (hdivisor : 0 < amount * threshold) (hunit : 0 < unit)
    (h : unit ≤ amount * (price - size * unit / (amount * threshold) - 1)) :
    size < threshold * (amount * price / unit) := by
  have hthreshold : 0 < threshold := Nat.pos_of_mul_pos_left hdivisor
  have hnext := Nat.lt_mul_div_succ (size * unit) hdivisor
  generalize size * unit / (amount * threshold) = bound at h hnext
  have hpast : bound + 1 ≤ price := by
    by_contra hle
    rw [Nat.sub_sub, Nat.sub_eq_zero_of_le (Nat.le_of_not_le hle)] at h
    omega
  have hgain : amount * (bound + 1) + unit ≤ amount * price := by
    calc amount * (bound + 1) + unit
        ≤ amount * (bound + 1) + amount * (price - bound - 1) := Nat.add_le_add_left h _
      _ = amount * (bound + 1 + (price - bound - 1)) := (Nat.mul_add ..).symm
      _ = amount * price := by congr 1; omega
  have hfloor := Nat.lt_mul_div_succ (amount * price) hunit
  rw [Nat.mul_add, Nat.mul_one] at hfloor
  have hworth : amount * (bound + 1) < unit * (amount * price / unit) := by omega
  refine Nat.lt_of_mul_lt_mul_right (a := unit) ?_
  calc size * unit < amount * threshold * (bound + 1) := hnext
    _ = threshold * (amount * (bound + 1)) := by ring
    _ < threshold * (unit * (amount * price / unit)) := Nat.mul_lt_mul_of_pos_left hworth hthreshold
    _ = threshold * (amount * price / unit) * unit := by ring

end Threshold

end Floors
