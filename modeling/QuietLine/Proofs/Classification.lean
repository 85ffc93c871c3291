/-
The risk classification as a law (`updateRisk`).

The law compares what is owed with what the collateral is worth, and looks at the
maturity first.  `updateRisk` divides the two before it compares them and returns early
when the quotient is nothing; a dust loan past its grace day is called healthy then.
Everywhere else the two agree, because a floored quotient reaches a whole threshold
exactly when the products do.
-/
import QuietLine.Proofs.Stress

namespace QuietLine

open Outcome

/-! ### The law -/

/-- What is owed, in whole units. -/
def Loan.outstanding (l : Loan) : Nat :=
  l.principal.toNat + l.accruedInterestRay.toNat / scale.toNat

/-- How bad a status is. -/
def LoanStatus.severity : LoanStatus → Nat
  | .healthy => 0
  | .restricted => 1
  | .warning => 2
  | .liquidatable => 3
  | .closed => 0
  | .liquidated => 0

/-- The status a loan should have at `price` and `now`. -/
def lawStatus (l : Loan) (price : UInt64) (now : Int) : LoanStatus :=
  if l.worth price = 0 ∨ now > l.graceEnd ∨
      6500 * l.worth price ≤ l.outstanding * bps.toNat then .liquidatable
  else if 5500 * l.worth price ≤ l.outstanding * bps.toNat then .warning
  else if 5000 * l.worth price ≤ l.outstanding * bps.toNat then .restricted
  else .healthy

/-- The loan is not dust, or not past its grace day: the early return is not taken against it. -/
def Decided (l : Loan) (price : UInt64) (now : Int) : Prop :=
  now ≤ l.graceEnd ∨ l.worth price ≤ l.outstanding * bps.toNat

section Law

variable {l l' : Loan} {price : UInt64} {now : Int}

theorem debt_eq_outstanding {due : UInt64} (h : debt l = .ok due) :
    due.toNat = l.outstanding := by
  rw [checkedAdd_eq_ok.mp h, UInt64.toNat_div]
  rfl

/-- A floored ratio reaches a threshold where the products do. -/
theorem threshold_le_iff {ltv : UInt64} {threshold : Nat} (hpos : 0 < l.worth price)
    (hltv : ltv.toNat = l.outstanding * bps.toNat / l.worth price) :
    threshold ≤ ltv.toNat ↔ threshold * l.worth price ≤ l.outstanding * bps.toNat := by
  rw [hltv, Nat.le_div_iff_mul_le hpos]

/-- The switch at the end of `updateRisk` is the law. -/
theorem riskStatus_eq_law {ltv : UInt64} (hpos : 0 < l.worth price)
    (hltv : ltv.toNat = l.outstanding * bps.toNat / l.worth price) :
    riskStatus l ltv now = lawStatus l price now := by
  have h65 : ltv ≥ 6500 ↔ 6500 * l.worth price ≤ l.outstanding * bps.toNat :=
    UInt64.le_iff_toNat_le.trans (threshold_le_iff hpos hltv)
  have h55 : ltv ≥ 5500 ↔ 5500 * l.worth price ≤ l.outstanding * bps.toNat :=
    UInt64.le_iff_toNat_le.trans (threshold_le_iff hpos hltv)
  have h50 : ltv ≥ 5000 ↔ 5000 * l.worth price ≤ l.outstanding * bps.toNat :=
    UInt64.le_iff_toNat_le.trans (threshold_le_iff hpos hltv)
  simp [riskStatus, lawStatus, Loan.graceEnd, h65, h55, h50, hpos.ne']

/-- What `updateRisk` sets: the law, but for the early return. -/
theorem updateRisk_status (h : updateRisk l price now = .ok l') :
    l'.status = if l.worth price ≠ 0 ∧ l.outstanding * bps.toNat < l.worth price then .healthy
      else lawStatus l price now := by
  unfold updateRisk at h
  simp only [bind_eq_ok] at h
  obtain ⟨value, hvalue, due, hdue, h⟩ := h
  have hworth := worth_toNat hvalue
  by_cases hzero : value = 0
  · rw [if_pos hzero] at h
    have hworth0 : l.worth price = 0 := by simp [← hworth, hzero]
    simp [← Except.ok.inj h, lawStatus, hworth0]
  · have hpos : 0 < l.worth price := hworth ▸ toNat_pos_of_ne_zero hzero
    rw [if_neg hzero] at h
    obtain ⟨ltv, hltv, h⟩ := bind_eq_ok.mp h
    have hratio : ltv.toNat = l.outstanding * bps.toNat / l.worth price := by
      rw [(mulDiv_eq_ok hltv).2, prod_two, hworth, debt_eq_outstanding hdue]
    by_cases hltv0 : ltv = 0
    · rw [if_pos hltv0] at h
      have hdust : l.outstanding * bps.toNat < l.worth price := by
        rw [← Nat.div_eq_zero_iff_lt hpos, ← hratio, hltv0]
        rfl
      rw [if_pos ⟨hpos.ne', hdust⟩, ← Except.ok.inj h]
    · rw [if_neg hltv0] at h
      simp only [bind_eq_ok] at h
      obtain ⟨_, _, _, _, h⟩ := h
      have hlarge : ¬ l.outstanding * bps.toNat < l.worth price := by
        rw [← Nat.div_eq_zero_iff_lt hpos, ← hratio]
        exact (toNat_pos_of_ne_zero hltv0).ne'
      rw [if_neg fun hdust => hlarge hdust.2, ← riskStatus_eq_law hpos hratio, ← Except.ok.inj h]

/-- The verdict is the law's unless the loan is dust past its grace day. -/
theorem status_eq_law_iff (h : updateRisk l price now = .ok l') :
    l'.status = lawStatus l price now ↔ Decided l price now := by
  rw [updateRisk_status h]
  unfold Decided
  by_cases hdust : l.worth price ≠ 0 ∧ l.outstanding * bps.toNat < l.worth price
  · have hbelow : ∀ n, 1 ≤ n → ¬ n * l.worth price ≤ l.outstanding * bps.toNat := by
      intro n hn hle
      have := Nat.mul_le_mul_right (l.worth price) hn
      omega
    by_cases hlate : now > l.graceEnd
    · simp [hdust, lawStatus, hlate, Int.not_le.mpr hlate, Nat.not_le.mpr hdust.2]
    · simp [hdust, lawStatus, hlate, Int.not_lt.mp hlate, hbelow]
  · rw [if_neg hdust]
    have hlarge : l.worth price ≤ l.outstanding * bps.toNat := by
      by_contra hlt
      exact hdust ⟨by omega, Nat.not_le.mp hlt⟩
    simp [hlarge]

end Law

/-! ### Monotonicity -/

section Worse

variable {l m : Loan} {price price' : UInt64} {now now' : Int}

/-- `m` at `price'` and `now'` is `l` at `price` and `now` or worse. -/
structure Worse (l m : Loan) (price price' : UInt64) (now now' : Int) : Prop where
  collateral : m.collateralFXRP = l.collateralFXRP
  maturesAt : m.maturesAt = l.maturesAt
  price : price' ≤ price
  debt : l.outstanding ≤ m.outstanding
  time : now ≤ now'

theorem Worse.worth_le (h : Worse l m price price' now now') : m.worth price' ≤ l.worth price := by
  unfold Loan.worth
  rw [h.collateral]
  exact Nat.div_le_div_right (Nat.mul_le_mul_left _ (UInt64.le_iff_toNat_le.mp h.price))

/-- A threshold that is reached stays reached. -/
theorem Worse.threshold (h : Worse l m price price' now now') {n : Nat}
    (hn : n * l.worth price ≤ l.outstanding * bps.toNat) :
    n * m.worth price' ≤ m.outstanding * bps.toNat := by
  calc n * m.worth price' ≤ n * l.worth price := Nat.mul_le_mul_left _ h.worth_le
    _ ≤ l.outstanding * bps.toNat := hn
    _ ≤ m.outstanding * bps.toNat := Nat.mul_le_mul_right _ h.debt

theorem severity_le (s : LoanStatus) : s.severity ≤ 3 := by
  cases s <;> simp [LoanStatus.severity]

theorem Worse.law (h : Worse l m price price' now now') :
    (lawStatus l price now).severity ≤ (lawStatus m price' now').severity := by
  have hgrace : m.graceEnd = l.graceEnd := by simp [Loan.graceEnd, h.maturesAt]
  have htime := h.time
  have hworth := h.worth_le
  by_cases hbad : m.worth price' = 0 ∨ now' > m.graceEnd ∨
      6500 * m.worth price' ≤ m.outstanding * bps.toNat
  · have hlaw : lawStatus m price' now' = .liquidatable := if_pos hbad
    rw [hlaw]
    exact severity_le _
  · have hbad' : ¬ (l.worth price = 0 ∨ now > l.graceEnd ∨
        6500 * l.worth price ≤ l.outstanding * bps.toNat) := by
      rintro (hzero | hlate | hhigh)
      · exact hbad (Or.inl (by omega))
      · exact hbad (Or.inr (Or.inl (by omega)))
      · exact hbad (Or.inr (Or.inr (h.threshold hhigh)))
    unfold lawStatus
    rw [if_neg hbad, if_neg hbad']
    by_cases hwarn : 5500 * l.worth price ≤ l.outstanding * bps.toNat
    · simp [hwarn, h.threshold hwarn]
    · rw [if_neg hwarn]
      by_cases hrestrict : 5000 * l.worth price ≤ l.outstanding * bps.toNat
      · rw [if_pos hrestrict, if_pos (h.threshold hrestrict)]
        split <;> simp [LoanStatus.severity]
      · simp [hrestrict, LoanStatus.severity]

/-- The early return only ever makes a verdict milder. -/
theorem severity_le_law {l' : Loan} (h : updateRisk l price now = .ok l') :
    l'.status.severity ≤ (lawStatus l price now).severity := by
  rw [updateRisk_status h]
  split
  · exact Nat.zero_le _
  · exact Nat.le_refl _

end Worse

/-- **The classification is the law exactly where it is decided**, and the severity never improves
towards a decided loan that is worse. -/
theorem classification_iff {l l' : Loan} {price : UInt64} {now : Int}
    (h : updateRisk l price now = .ok l') :
    (l'.status = lawStatus l price now ↔ Decided l price now) ∧
      ∀ (m m' : Loan) (price' : UInt64) (now' : Int), updateRisk m price' now' = .ok m' →
        Worse l m price price' now now' → Decided m price' now' →
        l'.status.severity ≤ m'.status.severity := by
  refine ⟨status_eq_law_iff h, ?_⟩
  intro m m' price' now' hm hworse hdecided
  rw [(status_eq_law_iff hm).mpr hdecided]
  exact (severity_le_law h).trans hworse.law

/-- A loan of 100 units against two FXRP. -/
def dustLoan : Loan where
  id := "x"
  borrower := "0xa"
  principal := 100
  collateralFXRP := 2000000
  borrowerAPRBPS := 850
  termDays := 7
  startedAt := 1000
  maturesAt := 605800
  lastAccruedAt := 1000
  tranches := [{ mandateID := "m", lender := "0xc", principal := 100, aprBPS := 800 }]
  status := .healthy

/-- A second past its grace day it is healthy. -/
theorem dustLoan_escapes : ∃ l', updateRisk dustLoan 2000000 692201 = .ok l' ∧
    dustLoan.graceEnd < 692201 ∧ lawStatus dustLoan 2000000 692201 = .liquidatable ∧
    l'.status = .healthy := by
  refine ⟨{ dustLoan with lastHealthFactorBPS := 0xFFFFFFFFFFFFFFFF }, ?_⟩
  decide +kernel

/-- The last second of the grace day it is still within its terms. -/
theorem classification_iff_grace : ∃ l', updateRisk dustLoan 2000000 692200 = .ok l' ∧
    (l'.status = lawStatus dustLoan 2000000 692200 ↔ Decided dustLoan 2000000 692200) :=
  ⟨{ dustLoan with lastHealthFactorBPS := 0xFFFFFFFFFFFFFFFF }, by decide +kernel,
    (classification_iff (by decide +kernel)).1⟩

end QuietLine
