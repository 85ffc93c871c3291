/-
What time and price do to a loan (`accrue`, `debt`, `updateRisk`).

The source updates the loan in place; here each function answers the loan as it
leaves it.  None of them touches what the loan was agreed on: `Loan.SameTerms`.
-/
import QuietLine.Ledger.Arithmetic

namespace QuietLine

open Outcome

/-! ### The functions -/

/-- The rate `accrue` applies: 300 basis points more from a day after maturity. -/
def accrualRate (l : Loan) (now : Int) : Except LedgerError UInt64 :=
  if now > int64 (l.maturesAt + 86400) then checkedAdd l.borrowerAPRBPS.toUInt64 300
  else .ok l.borrowerAPRBPS.toUInt64

/-- `accrue`. -/
def accrue (l : Loan) (now : Int) : Except LedgerError Loan := do
  if now ≤ l.lastAccruedAt then
    return l
  else
    let elapsed := UInt64.ofNat (now - l.lastAccruedAt).toNat
    let apr ← accrualRate l now
    let increment ← mulDivBy [l.principal, apr, elapsed, scale] [bps, year] false
    let accrued ← checkedAdd l.accruedInterestRay increment
    return { l with accruedInterestRay := accrued, lastAccruedAt := now }

/-- `debt`: the principal and the whole units of interest. -/
def debt (l : Loan) : Except LedgerError UInt64 :=
  checkedAdd l.principal (l.accruedInterestRay / scale)

/-- The `switch` that ends `updateRisk`. -/
def riskStatus (l : Loan) (ltv : UInt64) (now : Int) : LoanStatus :=
  if now > int64 (l.maturesAt + 86400) ∨ ltv ≥ 6500 then .liquidatable
  else if ltv ≥ 5500 then .warning
  else if ltv ≥ 5000 then .restricted
  else .healthy

/-- `updateRisk`. -/
def updateRisk (l : Loan) (price : UInt64) (now : Int) : Except LedgerError Loan := do
  let value ← mulDiv [l.collateralFXRP, price] scale false
  let d ← debt l
  if value = 0 then
    return { l with status := .liquidatable }
  else
    let ltv ← mulDiv [d, bps] value false
    if ltv = 0 then
      return { l with
        lastHealthFactorBPS := 0xFFFFFFFFFFFFFFFF
        liquidationPriceE6 := 0
        status := .healthy }
    else
      let health ← mulDiv [6500, bps] ltv false
      let price ← mulDivBy [d, bps, scale] [l.collateralFXRP, 6500] false
      return { l with
        lastHealthFactorBPS := health
        liquidationPriceE6 := price
        status := riskStatus l ltv now }

/-! ### What they leave alone -/

/-- `l'` is `l` later in its life: the same agreement. -/
structure Loan.SameTerms (l l' : Loan) : Prop where
  id : l'.id = l.id
  borrower : l'.borrower = l.borrower
  principal : l'.principal = l.principal
  collateralFXRP : l'.collateralFXRP = l.collateralFXRP
  borrowerAPRBPS : l'.borrowerAPRBPS = l.borrowerAPRBPS
  tranches : l'.tranches = l.tranches

theorem Loan.SameTerms.refl (l : Loan) : l.SameTerms l := ⟨rfl, rfl, rfl, rfl, rfl, rfl⟩

theorem Loan.SameTerms.trans {l l' l'' : Loan} (h : l.SameTerms l') (h' : l'.SameTerms l'') :
    l.SameTerms l'' :=
  ⟨h'.id.trans h.id, h'.borrower.trans h.borrower, h'.principal.trans h.principal,
    h'.collateralFXRP.trans h.collateralFXRP, h'.borrowerAPRBPS.trans h.borrowerAPRBPS,
    h'.tranches.trans h.tranches⟩

theorem accrue_sameTerms {l l' : Loan} {now : Int} (h : accrue l now = .ok l') :
    l.SameTerms l' ∧ l'.status = l.status := by
  unfold accrue at h
  by_cases hnow : now ≤ l.lastAccruedAt
  · rw [if_pos hnow] at h
    cases h
    exact ⟨Loan.SameTerms.refl l, rfl⟩
  · rw [if_neg hnow] at h
    simp only [bind_eq_ok] at h
    obtain ⟨_, _, _, _, _, _, hl⟩ := h
    cases hl
    exact ⟨⟨rfl, rfl, rfl, rfl, rfl, rfl⟩, rfl⟩

/-- No verdict of the risk check closes a loan. -/
theorem riskStatus_open (l : Loan) (ltv : UInt64) (now : Int) :
    riskStatus l ltv now ≠ .closed ∧ riskStatus l ltv now ≠ .liquidated := by
  unfold riskStatus
  split
  · exact ⟨by decide, by decide⟩
  · split
    · exact ⟨by decide, by decide⟩
    · split
      · exact ⟨by decide, by decide⟩
      · exact ⟨by decide, by decide⟩

theorem updateRisk_sameTerms {l l' : Loan} {price : UInt64} {now : Int}
    (h : updateRisk l price now = .ok l') : l.SameTerms l' ∧ l'.isOpen = true := by
  unfold updateRisk at h
  simp only [bind_eq_ok] at h
  obtain ⟨value, _, d, _, h⟩ := h
  by_cases hv : value = 0
  · rw [if_pos hv] at h
    cases h
    exact ⟨⟨rfl, rfl, rfl, rfl, rfl, rfl⟩, rfl⟩
  · rw [if_neg hv] at h
    simp only [bind_eq_ok] at h
    obtain ⟨ltv, _, h⟩ := h
    by_cases hl : ltv = 0
    · rw [if_pos hl] at h
      cases h
      exact ⟨⟨rfl, rfl, rfl, rfl, rfl, rfl⟩, rfl⟩
    · rw [if_neg hl] at h
      simp only [bind_eq_ok] at h
      obtain ⟨_, _, _, _, h⟩ := h
      cases h
      obtain ⟨hc, hq⟩ := riskStatus_open l ltv now
      exact ⟨⟨rfl, rfl, rfl, rfl, rfl, rfl⟩, by simp [Loan.isOpen, hc, hq]⟩

/-- The principal is always part of the debt. -/
theorem principal_le_debt {l : Loan} {due : UInt64} (h : debt l = .ok due) :
    l.principal.toNat ≤ due.toNat := by
  have := checkedAdd_eq_ok.mp h
  omega

end QuietLine
