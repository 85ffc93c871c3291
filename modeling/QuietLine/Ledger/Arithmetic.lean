/-
The arithmetic of the ledger (`ledger/arithmetic.go`).

The checked helpers work on `big.Int` in the source and on `Nat` here, and answer
an error where the result leaves `uint64`.  The plain `+=` and `-=` of the source
are `Arith.add` and `Arith.sub`: under `.wrapping` they are what Go computes, and
under `.trapping` the program stops where Go would have wrapped.  The trapping
ledger is not the program; it says what it means that the program never wraps.
-/
import QuietLine.Library.Outcome
import QuietLine.Ledger.Model

namespace QuietLine

open Outcome

/-! ### Checked arithmetic -/

def checkedAdd (a b : UInt64) : Except LedgerError UInt64 :=
  if a.toNat + b.toNat < 2 ^ 64 then .ok (a + b) else .error .arithmeticOverflow

def checkedSub (a b : UInt64) : Except LedgerError UInt64 :=
  if a < b then .error .arithmeticUnderflow else .ok (a - b)

/-- The product of the values, over the product of the denominators. -/
def mulDivBy (values denominators : List UInt64) (roundUp : Bool) : Except LedgerError UInt64 := do
  let product := (values.map UInt64.toNat).prod
  rejectIf (0 ∈ denominators) .divisionByZero
  let divisor := (denominators.map UInt64.toNat).prod
  let quotient := product / divisor
  let quotient := if roundUp ∧ product % divisor ≠ 0 then quotient + 1 else quotient
  rejectIf (2 ^ 64 ≤ quotient) .arithmeticOverflow
  return UInt64.ofNat quotient

def mulDiv (values : List UInt64) (denominator : UInt64) (roundUp : Bool) :
    Except LedgerError UInt64 :=
  mulDivBy values [denominator] roundUp

/-- What the tranches pay in all, in principal times basis points. -/
def weighted (tranches : List Tranche) : Nat :=
  (tranches.map fun t => t.principal.toNat * t.aprBPS.toNat).sum

def weightedAverage (tranches : List Tranche) (total : UInt64) : Except LedgerError UInt32 := do
  rejectIf (total = 0) .zeroPrincipalAverage
  let average := weighted tranches / total.toNat
  rejectIf (2 ^ 32 ≤ average) .arithmeticOverflow
  return UInt32.ofNat average

/-! ### Unchecked arithmetic -/

/-- What a sum of times is as an `int64`, which wraps. -/
def int64 (n : Int) : Int := n.bmod (2 ^ 64)

theorem int64_of_range {n : Int} (hlow : -(2 ^ 63) ≤ n) (hhigh : n < 2 ^ 63) : int64 n = n :=
  Int.bmod_eq_of_le hlow hhigh

/-- How `+` and `-` on `uint64` behave at the ends of the range. -/
inductive Arith where
  /-- As in Go. -/
  | wrapping
  /-- Stop instead. -/
  | trapping
  deriving DecidableEq, Repr

def Arith.add (A : Arith) (a b : UInt64) : Except LedgerError UInt64 :=
  match A with
  | .wrapping => .ok (a + b)
  | .trapping => if a.toNat + b.toNat < 2 ^ 64 then .ok (a + b) else .error .wraparound

def Arith.sub (A : Arith) (a b : UInt64) : Except LedgerError UInt64 :=
  match A with
  | .wrapping => .ok (a - b)
  | .trapping => if b ≤ a then .ok (a - b) else .error .wraparound

/-! ### What they compute -/

theorem checkedAdd_eq_ok {a b c : UInt64} :
    checkedAdd a b = .ok c ↔ c.toNat = a.toNat + b.toNat := by
  unfold checkedAdd
  constructor
  · intro h
    by_cases hlt : a.toNat + b.toNat < 2 ^ 64
    · rw [if_pos hlt] at h
      cases h
      rw [UInt64.toNat_add, Nat.mod_eq_of_lt hlt]
    · rw [if_neg hlt] at h
      cases h
  · intro h
    have hlt : a.toNat + b.toNat < 2 ^ 64 := by rw [← h]; exact c.toNat_lt
    rw [if_pos hlt, Except.ok.injEq, ← UInt64.toNat_inj, UInt64.toNat_add,
      Nat.mod_eq_of_lt hlt, h]

theorem checkedSub_eq_ok {a b c : UInt64} :
    checkedSub a b = .ok c ↔ a.toNat = b.toNat + c.toNat := by
  unfold checkedSub
  constructor
  · intro h
    by_cases hlt : a < b
    · rw [if_pos hlt] at h
      cases h
    · rw [if_neg hlt] at h
      cases h
      have hle : b ≤ a := UInt64.not_lt.mp hlt
      have hle' := UInt64.le_iff_toNat_le.mp hle
      rw [UInt64.toNat_sub_of_le _ _ hle]
      omega
  · intro h
    have hle : b ≤ a := UInt64.le_iff_toNat_le.mpr (by omega)
    rw [if_neg (UInt64.not_lt.mpr hle), Except.ok.injEq, ← UInt64.toNat_inj,
      UInt64.toNat_sub_of_le _ _ hle]
    omega

theorem checkedAdd_ok {a b : UInt64} (h : a.toNat + b.toNat < 2 ^ 64) :
    checkedAdd a b = .ok (a + b) := if_pos h

theorem checkedSub_ok {a b : UInt64} (h : b.toNat ≤ a.toNat) : checkedSub a b = .ok (a - b) :=
  if_neg (UInt64.not_lt.mpr (UInt64.le_iff_toNat_le.mpr h))

theorem Arith.trapping_add_eq_ok {a b c : UInt64} :
    Arith.trapping.add a b = .ok c ↔ c.toNat = a.toNat + b.toNat := by
  rw [← checkedAdd_eq_ok]
  unfold Arith.add checkedAdd
  by_cases hlt : a.toNat + b.toNat < 2 ^ 64
  · simp only [if_pos hlt]
  · simp only [if_neg hlt, reduceCtorEq]

theorem Arith.trapping_sub_eq_ok {a b c : UInt64} :
    Arith.trapping.sub a b = .ok c ↔ a.toNat = b.toNat + c.toNat := by
  rw [← checkedSub_eq_ok]
  unfold Arith.sub checkedSub
  by_cases hle : b ≤ a
  · simp only [if_pos hle, if_neg (UInt64.not_lt.mpr hle)]
  · simp only [if_neg hle, if_pos (UInt64.not_le.mp hle), reduceCtorEq]

/-- The guards of the source, read as bounds on `Nat`. -/
theorem toNat_le_of_not_lt {a b : UInt64} (h : ¬ a < b) : b.toNat ≤ a.toNat :=
  UInt64.le_iff_toNat_le.mp (UInt64.not_lt.mp h)

/-- Where the subtrahend is smaller the two subtractions agree, and are exact. -/
theorem Arith.sub_of_le {A : Arith} {a b c : UInt64} (hle : b.toNat ≤ a.toNat)
    (h : A.sub a b = .ok c) : a.toNat = b.toNat + c.toNat := by
  have hle' := UInt64.le_iff_toNat_le.mpr hle
  cases A with
  | wrapping =>
      cases h
      rw [UInt64.toNat_sub_of_le _ _ hle']
      omega
  | trapping => exact Arith.trapping_sub_eq_ok.mp h

theorem mulDivBy_eq_ok {values denominators : List UInt64} {roundUp : Bool} {q : UInt64}
    (h : mulDivBy values denominators roundUp = .ok q) :
    0 ∉ denominators ∧
      q.toNat = (values.map UInt64.toNat).prod / (denominators.map UInt64.toNat).prod +
        (if roundUp ∧ (values.map UInt64.toNat).prod % (denominators.map UInt64.toNat).prod ≠ 0
          then 1 else 0) := by
  unfold mulDivBy at h
  simp only [bind_eq_ok, rejectIf_eq_ok] at h
  obtain ⟨_, hzero, _, hlt, hq⟩ := h
  refine ⟨hzero, ?_⟩
  cases hq
  rw [UInt64.toNat_ofNat_of_lt' (Nat.not_le.mp hlt)]
  split <;> rfl

theorem add_add_ofNat (a : UInt64) (m n : Nat) :
    a + UInt64.ofNat m + UInt64.ofNat n = a + UInt64.ofNat (m + n) := by
  rw [UInt64.ofNat_add]
  grind

theorem sub_sub_ofNat (a : UInt64) (m n : Nat) :
    a - UInt64.ofNat m - UInt64.ofNat n = a - UInt64.ofNat (m + n) := by
  rw [UInt64.ofNat_add]
  grind

/-- The factors of a product stay variables here: the kernel would otherwise count up to the
constants of the ledger. -/
theorem prod_two (a b : UInt64) : ([a, b].map UInt64.toNat).prod = a.toNat * b.toNat := by simp

theorem prod_three (a b c : UInt64) :
    ([a, b, c].map UInt64.toNat).prod = a.toNat * b.toNat * c.toNat := by
  simp [Nat.mul_assoc]

theorem prod_four (a b c d : UInt64) :
    ([a, b, c, d].map UInt64.toNat).prod = a.toNat * (b.toNat * (c.toNat * d.toNat)) := by
  simp

/-- Rounding down: the quotient as `Nat` computes it. -/
theorem mulDivBy_floor {values denominators : List UInt64} {q : UInt64}
    (h : mulDivBy values denominators false = .ok q) :
    q.toNat = (values.map UInt64.toNat).prod / (denominators.map UInt64.toNat).prod := by
  simpa using (mulDivBy_eq_ok h).2

theorem mulDiv_eq_ok {values : List UInt64} {denominator q : UInt64}
    (h : mulDiv values denominator false = .ok q) :
    denominator ≠ 0 ∧ q.toNat = (values.map UInt64.toNat).prod / denominator.toNat := by
  obtain ⟨hzero, hq⟩ := mulDivBy_eq_ok h
  refine ⟨fun h0 => hzero (by simp [h0]), ?_⟩
  simpa using hq

/-- It answers that quotient wherever it fits. -/
theorem mulDivBy_ok {values denominators : List UInt64} (hzero : 0 ∉ denominators)
    (hlt : (values.map UInt64.toNat).prod / (denominators.map UInt64.toNat).prod < 2 ^ 64) :
    mulDivBy values denominators false = .ok (UInt64.ofNat
      ((values.map UInt64.toNat).prod / (denominators.map UInt64.toNat).prod)) := by
  unfold mulDivBy
  rw [rejectIf_of_not hzero, ok_bind]
  simp only [Bool.false_eq_true, false_and, if_false]
  rw [rejectIf_of_not (Nat.not_le.mpr hlt), ok_bind]
  rfl

theorem mulDiv_ok {values : List UInt64} {denominator : UInt64} (hpos : denominator ≠ 0)
    (hlt : (values.map UInt64.toNat).prod / denominator.toNat < 2 ^ 64) :
    mulDiv values denominator false =
      .ok (UInt64.ofNat ((values.map UInt64.toNat).prod / denominator.toNat)) := by
  have hprod : ([denominator].map UInt64.toNat).prod = denominator.toNat := by simp
  have hok := @mulDivBy_ok values [denominator]
    (by simpa using Ne.symm hpos) (by rwa [hprod])
  rwa [hprod] at hok

theorem weightedAverage_eq_ok {tranches : List Tranche} {total : UInt64} {average : UInt32}
    (h : weightedAverage tranches total = .ok average) :
    total ≠ 0 ∧ average.toNat = weighted tranches / total.toNat := by
  unfold weightedAverage at h
  simp only [bind_eq_ok, rejectIf_eq_ok] at h
  obtain ⟨_, hzero, _, hlt, hq⟩ := h
  refine ⟨hzero, ?_⟩
  cases hq
  exact UInt32.toNat_ofNat_of_lt' (Nat.not_le.mp hlt)

/-! ### What they answer when they fail -/

theorem checkedAdd_error {a b : UInt64} {e : LedgerError} (h : checkedAdd a b = .error e) :
    e = .arithmeticOverflow := by
  unfold checkedAdd at h
  split at h
  · cases h
  · cases h; rfl

theorem checkedSub_error {a b : UInt64} {e : LedgerError} (h : checkedSub a b = .error e) :
    e = .arithmeticUnderflow ∧ a.toNat < b.toNat := by
  unfold checkedSub at h
  split at h
  · rename_i hlt
    cases h
    exact ⟨rfl, UInt64.lt_iff_toNat_lt.mp hlt⟩
  · cases h

theorem mulDivBy_error {values denominators : List UInt64} {roundUp : Bool} {e : LedgerError}
    (h : mulDivBy values denominators roundUp = .error e) :
    e = .divisionByZero ∨ e = .arithmeticOverflow := by
  have hpost : Post (mulDivBy values denominators roundUp) (fun _ => True)
      (fun e => e = .divisionByZero ∨ e = .arithmeticOverflow) := by
    unfold mulDivBy
    refine Post.rejectIf (fun _ => Or.inl rfl) fun _ => ?_
    exact Post.rejectIf (fun _ => Or.inr rfl) fun _ => Post.pure trivial
  exact hpost.of_error h

theorem weightedAverage_error {tranches : List Tranche} {total : UInt64} {e : LedgerError}
    (h : weightedAverage tranches total = .error e) :
    e = .zeroPrincipalAverage ∨ e = .arithmeticOverflow := by
  have hpost : Post (weightedAverage tranches total) (fun _ => True)
      (fun e => e = .zeroPrincipalAverage ∨ e = .arithmeticOverflow) := by
    unfold weightedAverage
    refine Post.rejectIf (fun _ => Or.inl rfl) fun _ => ?_
    exact Post.rejectIf (fun _ => Or.inr rfl) fun _ => Post.pure trivial
  exact hpost.of_error h

/-! ### The trapping twin -/

theorem Arith.add_traps (a b : UInt64) :
    Traps .wraparound (Arith.trapping.add a b) (Arith.wrapping.add a b) := by
  unfold Arith.add
  by_cases h : a.toNat + b.toNat < 2 ^ 64
  · exact Or.inr (if_pos h)
  · exact Or.inl (if_neg h)

theorem Arith.sub_traps (a b : UInt64) :
    Traps .wraparound (Arith.trapping.sub a b) (Arith.wrapping.sub a b) := by
  unfold Arith.sub
  by_cases h : b ≤ a
  · exact Or.inr (if_pos h)
  · exact Or.inl (if_neg h)

/-- Unchecked arithmetic answers no error of its own. -/
theorem Arith.add_error {A : Arith} {a b : UInt64} {e : LedgerError} (h : A.add a b = .error e) :
    e = .wraparound := by
  cases A with
  | wrapping => cases h
  | trapping =>
      simp only [Arith.add] at h
      split at h
      · cases h
      · exact (Except.error.inj h).symm

theorem Arith.sub_error {A : Arith} {a b : UInt64} {e : LedgerError} (h : A.sub a b = .error e) :
    e = .wraparound := by
  cases A with
  | wrapping => cases h
  | trapping =>
      simp only [Arith.sub] at h
      split at h
      · cases h
      · exact (Except.error.inj h).symm

theorem Arith.trapping_add_error {a b : UInt64} {e : LedgerError}
    (h : Arith.trapping.add a b = .error e) : 2 ^ 64 ≤ a.toNat + b.toNat := by
  by_contra hlt
  unfold Arith.add at h
  simp only [if_pos (Nat.not_le.mp hlt), reduceCtorEq] at h

theorem Arith.trapping_sub_error {a b : UInt64} {e : LedgerError}
    (h : Arith.trapping.sub a b = .error e) : a.toNat < b.toNat := by
  by_contra hlt
  have hle : b ≤ a := UInt64.le_iff_toNat_le.mpr (Nat.not_lt.mp hlt)
  unfold Arith.sub at h
  simp only [if_pos hle, reduceCtorEq] at h

end QuietLine
