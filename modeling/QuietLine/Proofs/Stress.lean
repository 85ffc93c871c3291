/-
The stress view against the ledger (`stressView`).

The view computes again what `accrue`, `debt` and `updateRisk` compute, in `uint64`
arithmetic that wraps and without a look at the maturity.  A product that wraps is off
by a multiple of 2^64, which no later division hides, so the view agrees with the
ledger exactly while its products fit, and where maturity does not decide.
-/
import QuietLine.Proofs.Accrual
import QuietLine.Proofs.Solvency
import QuietLine.Extension.Handlers

namespace QuietLine

open Outcome Floors

/-! ### The figures of a loan -/

namespace Loan

variable (l : Loan)

/-- What the borrower owes at `now`. -/
def owed (now : Int) : Nat :=
  l.principal.toNat +
    (l.accruedInterestRay.toNat + l.charge l.lastAccruedAt now / perYear) / scale.toNat

/-- What the collateral is worth at `price`. -/
def worth (price : UInt64) : Nat := l.collateralFXRP.toNat * price.toNat / scale.toNat

end Loan

section Figures

variable {l : Loan} {price : UInt64} {now : Int}

theorem charge_eq_zero {a b : Int} (h : b ≤ a) : l.charge a b = 0 := by
  have htimely : l.timely a b = 0 := by
    unfold Loan.timely
    omega
  have hlate : l.late a b = 0 := by
    unfold Loan.late
    omega
  simp [Loan.charge, Loan.interestDue, Loan.overcharge, htimely, hlate]

/-- An accrual to any moment, also one that has passed. -/
theorem accrue_toNat (hlast : IsInt64 l.lastAccruedAt) (hnow : IsInt64 now) {l' : Loan}
    (h : accrue l now = .ok l') :
    l'.accruedInterestRay.toNat =
      l.accruedInterestRay.toNat + l.charge l.lastAccruedAt now / perYear ∧
    l'.maturesAt = l.maturesAt := by
  by_cases hlt : l.lastAccruedAt < now
  · obtain ⟨hray, hl⟩ := accrue_ok hlast hnow hlt h
    refine ⟨hray, ?_⟩
    rw [hl]
  · unfold accrue at h
    rw [if_pos (Int.not_lt.mp hlt)] at h
    simp [← Except.ok.inj h, charge_eq_zero (Int.not_lt.mp hlt)]

theorem debt_toNat (hlast : IsInt64 l.lastAccruedAt) (hnow : IsInt64 now) {l' : Loan}
    {due : UInt64} (haccrue : accrue l now = .ok l') (hdue : debt l' = .ok due) :
    due.toNat = l.owed now := by
  obtain ⟨hray, _⟩ := accrue_toNat hlast hnow haccrue
  rw [checkedAdd_eq_ok.mp hdue, (accrue_sameTerms haccrue).1.principal, UInt64.toNat_div, hray]
  rfl

theorem worth_toNat {value : UInt64}
    (h : mulDiv [l.collateralFXRP, price] scale false = .ok value) :
    value.toNat = l.worth price := by
  rw [(mulDiv_eq_ok h).2, prod_two, Loan.worth]

/-- The ledger's own run over the loan: `accrue`, `debt` and the steps of `updateRisk`. -/
structure Assessment (l : Loan) (price : UInt64) (now : Int) where
  accrued : Loan
  due : UInt64
  value : UInt64
  ltv : UInt64
  assessed : Loan
  accrue_eq : accrue l now = .ok accrued
  debt_eq : debt accrued = .ok due
  value_eq : mulDiv [l.collateralFXRP, price] scale false = .ok value
  ltv_eq : mulDiv [due, bps] value false = .ok ltv
  updateRisk_eq : updateRisk accrued price now = .ok assessed

namespace Assessment

variable (a : Assessment l price now)

theorem due_toNat (hlast : IsInt64 l.lastAccruedAt) (hnow : IsInt64 now) :
    a.due.toNat = l.owed now :=
  debt_toNat hlast hnow a.accrue_eq a.debt_eq

theorem value_toNat : a.value.toNat = l.worth price := worth_toNat a.value_eq

theorem value_ne_zero : a.value ≠ 0 := (mulDiv_eq_ok a.ltv_eq).1

theorem ltv_toNat (hlast : IsInt64 l.lastAccruedAt) (hnow : IsInt64 now) :
    a.ltv.toNat = l.owed now * bps.toNat / l.worth price := by
  rw [(mulDiv_eq_ok a.ltv_eq).2, a.value_toNat, prod_two, a.due_toNat hlast hnow]

/-- What `updateRisk` goes on to compute. -/
theorem verdict (hlast : IsInt64 l.lastAccruedAt) (hnow : IsInt64 now) :
    (a.ltv ≠ 0 → a.assessed.lastHealthFactorBPS.toNat = 65000000 / a.ltv.toNat ∧
      a.due.toNat * bps.toNat * scale.toNat / (l.collateralFXRP.toNat * 6500) < 2 ^ 64) ∧
    a.assessed.status = if a.ltv = 0 then .healthy else riskStatus l a.ltv now := by
  have hcollateral := (accrue_sameTerms a.accrue_eq).1.collateralFXRP
  obtain ⟨_, hmatures⟩ := accrue_toNat hlast hnow a.accrue_eq
  have hrisk := a.updateRisk_eq
  unfold updateRisk at hrisk
  rw [hcollateral, a.value_eq, ok_bind, a.debt_eq, ok_bind, if_neg a.value_ne_zero, a.ltv_eq,
    ok_bind] at hrisk
  by_cases hzero : a.ltv = 0
  · rw [if_pos hzero] at hrisk
    simp [hzero, ← Except.ok.inj hrisk]
  · rw [if_neg hzero] at hrisk
    simp only [bind_eq_ok] at hrisk
    obtain ⟨health, hhealth, liquidation, hliquidation, hl⟩ := hrisk
    replace hl := Except.ok.inj hl
    obtain ⟨_, hquotient⟩ := mulDiv_eq_ok hhealth
    have hprice := mulDivBy_floor hliquidation
    have hlt := liquidation.toNat_lt
    refine ⟨fun _ => ⟨?_, ?_⟩, ?_⟩
    · rw [← hl, hquotient]
      rfl
    · rw [hprice, prod_three, prod_two] at hlt
      exact hlt
    · rw [if_neg hzero, ← hl]
      simp [riskStatus, hmatures]

end Assessment

/-! ### What the view computes -/

/-- The interest of the view, before it is divided: the product has wrapped. -/
def stressInterest (l : Loan) (now : Int) : UInt64 :=
  let elapsed : UInt64 :=
    if now > l.lastAccruedAt then UInt64.ofNat (now - l.lastAccruedAt).toNat else 0
  let apr : UInt64 := UInt64.ofNat l.borrowerAPRBPS.toNat
  let apr := if now > int64 (l.maturesAt + 86400) then apr + 300 else apr
  l.principal * apr * elapsed * scale

theorem stressInterest_toNat (hlast : IsInt64 l.lastAccruedAt) (hnow : IsInt64 now) :
    (stressInterest l now).toNat = l.charge l.lastAccruedAt now % 2 ^ 64 := by
  have hapr : (if now > int64 (l.maturesAt + 86400) then UInt64.ofNat l.borrowerAPRBPS.toNat + 300
      else UInt64.ofNat l.borrowerAPRBPS.toNat).toNat =
      l.borrowerAPRBPS.toNat + if now > l.graceEnd then 300 else 0 := by
    have hlt := l.borrowerAPRBPS.toNat_lt
    have hof : (UInt64.ofNat l.borrowerAPRBPS.toNat).toNat = l.borrowerAPRBPS.toNat :=
      UInt64.toNat_ofNat_of_lt' (hlt.trans (by decide))
    unfold Loan.graceEnd
    by_cases hlate : now > int64 (l.maturesAt + 86400)
    · rw [if_pos hlate, if_pos hlate, UInt64.toNat_add, hof, Nat.mod_eq_of_lt]
      · rfl
      · simp
        omega
    · rw [if_neg hlate, if_neg hlate, hof, Nat.add_zero]
  unfold stressInterest
  dsimp only
  by_cases hlt : now > l.lastAccruedAt
  · have helapsed : (UInt64.ofNat (now - l.lastAccruedAt).toNat).toNat =
        (now - l.lastAccruedAt).toNat := toNat_elapsed hlast hnow
    rw [if_pos hlt, charge_eq hlt.le]
    simp only [UInt64.toNat_mul, hapr, helapsed, Nat.mod_mul_mod, Nat.mul_assoc]
  · rw [if_neg hlt, charge_eq_zero (Int.not_lt.mp hlt)]
    simp

/-- The debt of the view. -/
def stressDebt (l : Loan) (now : Int) : UInt64 :=
  l.principal + (l.accruedInterestRay + stressInterest l now / (bps * year)) / scale

/-- The value of the collateral in the view. -/
def stressValue (l : Loan) (price : UInt64) : UInt64 := l.collateralFXRP * price / scale

/-- The verdict of the view. -/
def stressStatus (ltv : UInt64) : LoanStatus :=
  if ltv ≥ 6500 then .liquidatable
  else if ltv ≥ 5500 then .warning
  else if ltv ≥ 5000 then .restricted
  else .healthy

/-- The answer of the view, where it gives one. -/
theorem stressFigures_eq_ok {view : StressView} : stressFigures l price now = .ok view ↔
    stressValue l price ≠ 0 ∧ view = {
      xrpUSDE6 := price
      debt := stressDebt l now
      collateralValue := stressValue l price
      ltvBPS := stressDebt l now * bps / stressValue l price
      healthFactorBPS :=
        if stressDebt l now * bps / stressValue l price > 0 then
          6500 * bps / (stressDebt l now * bps / stressValue l price) else 0
      status := stressStatus (stressDebt l now * bps / stressValue l price) } := by
  unfold stressFigures
  dsimp only
  rw [bind_eq_ok]
  constructor
  · rintro ⟨_, hvalue, hview⟩
    exact ⟨rejectIf_eq_ok.mp hvalue, (Except.ok.inj hview).symm⟩
  · rintro ⟨hvalue, rfl⟩
    exact ⟨(), rejectIf_eq_ok.mpr hvalue, rfl⟩

theorem stressValue_toNat :
    (stressValue l price).toNat =
      l.collateralFXRP.toNat * price.toNat % 2 ^ 64 / scale.toNat := by
  simp [stressValue]

/-- Maturity is the one thing the two classifications do not share. -/
theorem stressStatus_eq_iff {ltv : UInt64} :
    stressStatus ltv = riskStatus l ltv now ↔ now ≤ l.graceEnd ∨ 6500 ≤ ltv.toNat := by
  unfold stressStatus riskStatus Loan.graceEnd
  have hltv : ltv ≥ 6500 ↔ 6500 ≤ ltv.toNat := UInt64.le_iff_toNat_le
  by_cases hhigh : ltv ≥ 6500
  · simp [hhigh, hltv.mp hhigh]
  · by_cases hlate : now > int64 (l.maturesAt + 86400)
    · have hdiffers : ¬ (6500 ≤ ltv.toNat) := fun h => hhigh (hltv.mpr h)
      simp only [hhigh, hlate, hdiffers, Int.not_le.mpr hlate, if_false, true_or, if_true,
        or_self, iff_false]
      split
      · decide
      · split <;> decide
    · simp [hhigh, hlate, Int.not_lt.mp hlate]

/-! ### Where they agree -/

/-- The view answers, the ledger computes, and the figures of the two are the same. -/
def StressAgrees (l : Loan) (price : UInt64) (now : Int) : Prop :=
  ∃ (a : Assessment l price now) (view : StressView), stressFigures l price now = .ok view ∧
    view.debt = a.due ∧ view.collateralValue = a.value ∧ view.ltvBPS = a.ltv ∧
    (a.ltv ≠ 0 → view.healthFactorBPS = a.assessed.lastHealthFactorBPS) ∧
    view.status = a.assessed.status

/-- Every product of the view fits a word, so does what the ledger makes of them, and where the
loan is past its grace day its size decides all the same. -/
structure StressInRange (l : Loan) (price : UInt64) (now : Int) : Prop where
  charge : l.charge l.lastAccruedAt now < 2 ^ 64
  accrued : l.accruedInterestRay.toNat + l.charge l.lastAccruedAt now / perYear < 2 ^ 64
  collateral : l.collateralFXRP.toNat * price.toNat < 2 ^ 64
  owed : l.owed now * bps.toNat < 2 ^ 64
  verdict : l.owed now * bps.toNat < l.worth price ∨
    l.owed now * bps.toNat * scale.toNat < 2 ^ 64 * (l.collateralFXRP.toNat * 6500) ∧
      (now ≤ l.graceEnd ∨ 6500 * l.worth price ≤ l.owed now * bps.toNat)

/-- The debts agree when the interest does not wrap. -/
theorem stressDebt_toNat (hlast : IsInt64 l.lastAccruedAt) (hnow : IsInt64 now)
    (haccrued : l.accruedInterestRay.toNat + l.charge l.lastAccruedAt now / perYear < 2 ^ 64)
    (howed : l.owed now < 2 ^ 64) :
    (stressDebt l now).toNat = l.owed now ↔ l.charge l.lastAccruedAt now < 2 ^ 64 := by
  have hper : (bps * year).toNat = perYear := by decide
  have hwrapped : l.charge l.lastAccruedAt now % 2 ^ 64 / perYear ≤
      l.charge l.lastAccruedAt now / perYear := Nat.div_le_div_right (Nat.mod_le _ _)
  have hinner := Nat.div_le_div_right (c := scale.toNat)
    (Nat.add_le_add_left hwrapped l.accruedInterestRay.toNat)
  unfold Loan.owed at howed ⊢
  unfold stressDebt
  rw [UInt64.toNat_add, UInt64.toNat_div, UInt64.toNat_add, UInt64.toNat_div,
    stressInterest_toNat hlast hnow, hper,
    Nat.mod_eq_of_lt (show l.accruedInterestRay.toNat + _ < 2 ^ 64 by omega),
    Nat.mod_eq_of_lt (by omega), Nat.add_right_inj]
  exact wrapped_div_eq (by decide) (by decide) (by decide)

/-! ### In range the ledger computes -/

theorem accrualRate_succeeds (l : Loan) (now : Int) : ∃ rate, accrualRate l now = .ok rate := by
  unfold accrualRate
  by_cases hlate : now > int64 (l.maturesAt + 86400)
  · rw [if_pos hlate]
    have hrate := l.borrowerAPRBPS.toNat_lt
    exact ⟨_, checkedAdd_ok (by simp; omega)⟩
  · rw [if_neg hlate]
    exact ⟨_, rfl⟩

theorem accrue_succeeds (hlast : IsInt64 l.lastAccruedAt) (hnow : IsInt64 now)
    (hrange : l.accruedInterestRay.toNat + l.charge l.lastAccruedAt now / perYear < 2 ^ 64) :
    ∃ l', accrue l now = .ok l' := by
  unfold accrue
  by_cases hle : now ≤ l.lastAccruedAt
  · rw [if_pos hle]
    exact ⟨l, rfl⟩
  · obtain ⟨rate, hrate⟩ := accrualRate_succeeds l now
    have helapsed := toNat_elapsed hlast hnow
    have hquotient : (([l.principal, rate, UInt64.ofNat (now - l.lastAccruedAt).toNat,
        scale].map UInt64.toNat).prod / ([bps, year].map UInt64.toNat).prod) =
        l.charge l.lastAccruedAt now / perYear := by
      rw [charge_eq (Int.not_le.mp hle).le, prod_four, prod_two, helapsed, accrualRate_ok hrate,
        perYear]
    have hincrement := @mulDivBy_ok [l.principal, rate,
      UInt64.ofNat (now - l.lastAccruedAt).toNat, scale] [bps, year] (by decide)
      (by rw [hquotient]; omega)
    rw [hquotient] at hincrement
    rw [if_neg hle, hrate, ok_bind, hincrement, ok_bind, checkedAdd_ok, ok_bind]
    · exact ⟨_, rfl⟩
    · rw [UInt64.toNat_ofNat_of_lt' (by rw [UInt64.size]; omega)]
      exact hrange

theorem updateRisk_succeeds {value due ltv : UInt64}
    (hvalue : mulDiv [l.collateralFXRP, price] scale false = .ok value) (hpos : value ≠ 0)
    (hdue : debt l = .ok due) (hltv : mulDiv [due, bps] value false = .ok ltv)
    (hfits : ltv = 0 ∨
      due.toNat * bps.toNat * scale.toNat < 2 ^ 64 * (l.collateralFXRP.toNat * 6500)) :
    ∃ l', updateRisk l price now = .ok l' := by
  unfold updateRisk
  rw [hvalue, ok_bind, hdue, ok_bind, if_neg hpos, hltv, ok_bind]
  by_cases hzero : ltv = 0
  · rw [if_pos hzero]
    exact ⟨_, rfl⟩
  · have hfits := hfits.resolve_left hzero
    have hcollateral : l.collateralFXRP ≠ 0 := by
      intro h0
      rw [h0] at hfits
      exact Nat.not_lt_zero _ hfits
    rw [if_neg hzero, mulDiv_ok hzero, ok_bind, mulDivBy_ok, ok_bind]
    · exact ⟨_, rfl⟩
    · simp [Ne.symm hcollateral]
    · have hdivisor : 0 < l.collateralFXRP.toNat * 6500 :=
        Nat.pos_of_ne_zero fun h0 => by simp [h0] at hfits
      rw [prod_three, prod_two]
      exact (Nat.div_lt_iff_lt_mul hdivisor).mpr hfits
    · exact Nat.lt_of_le_of_lt (Nat.div_le_self _ _) (by decide)

/-- The whole run of the ledger, with the bounds that let it through. -/
theorem StressInRange.assessment (hlast : IsInt64 l.lastAccruedAt) (hnow : IsInt64 now)
    (hworth : l.worth price ≠ 0) (h : StressInRange l price now) :
    Nonempty (Assessment l price now) := by
  obtain ⟨l', haccrue⟩ := accrue_succeeds hlast hnow h.accrued
  have hcollateral : l'.collateralFXRP = l.collateralFXRP :=
    (accrue_sameTerms haccrue).1.collateralFXRP
  have hworthlt : l.worth price < 2 ^ 64 :=
    Nat.lt_of_le_of_lt (Nat.div_le_self _ _) h.collateral
  obtain ⟨value, hvalue⟩ : ∃ value, mulDiv [l.collateralFXRP, price] scale false = .ok value :=
    ⟨_, mulDiv_ok (by decide) (by rwa [prod_two])⟩
  have hvalueNat := worth_toNat hvalue
  have hpos : value ≠ 0 := fun h0 => hworth (by rw [← hvalueNat, h0]; rfl)
  obtain ⟨hray, _⟩ := accrue_toNat hlast hnow haccrue
  have hprincipal : l'.principal = l.principal := (accrue_sameTerms haccrue).1.principal
  obtain ⟨due, hdue⟩ : ∃ due, debt l' = .ok due := by
    refine ⟨_, checkedAdd_ok ?_⟩
    have howed := h.owed
    have : l.owed now ≤ l.owed now * bps.toNat := Nat.le_mul_of_pos_right _ (by decide)
    rw [UInt64.toNat_div, hray, hprincipal]
    exact Nat.lt_of_le_of_lt this howed
  have hdueNat := debt_toNat hlast hnow haccrue hdue
  obtain ⟨ltv, hltv⟩ : ∃ ltv, mulDiv [due, bps] value false = .ok ltv :=
    ⟨_, mulDiv_ok hpos (Nat.lt_of_le_of_lt (Nat.div_le_self _ _)
      (by rw [prod_two, hdueNat]; exact h.owed))⟩
  have hfits : ltv = 0 ∨
      due.toNat * bps.toNat * scale.toNat < 2 ^ 64 * (l'.collateralFXRP.toNat * 6500) := by
    rw [hdueNat, hcollateral]
    refine h.verdict.imp (fun hsmall => ?_) fun hlarge => hlarge.1
    rw [← UInt64.toNat_inj, (mulDiv_eq_ok hltv).2, hvalueNat]
    exact Nat.div_eq_of_lt (by rwa [prod_two, hdueNat])
  obtain ⟨l₂, hrisk⟩ : ∃ l₂, updateRisk l' price now = .ok l₂ :=
    updateRisk_succeeds (hcollateral ▸ hvalue) hpos hdue hltv hfits
  exact ⟨⟨l', due, value, ltv, l₂, haccrue, hdue, hvalue, hltv, hrisk⟩⟩

/-- The ratio of the view agrees with the ledger's when its product does not wrap. -/
theorem stressRatio_eq_iff (a : Assessment l price now) (hlast : IsInt64 l.lastAccruedAt)
    (hnow : IsInt64 now) :
    a.due * bps / a.value = a.ltv ↔ l.owed now * bps.toNat < 2 ^ 64 := by
  have hpos : 0 < l.worth price := by
    rw [← a.value_toNat]
    exact Nat.pos_of_ne_zero fun h0 => a.value_ne_zero (UInt64.toNat_inj.mp h0)
  have hle : l.worth price ≤ 2 ^ 64 := by
    rw [← a.value_toNat]
    exact a.value.toNat_lt.le
  rw [← wrapped_div_eq_one hpos hle, ← UInt64.toNat_inj, UInt64.toNat_div, UInt64.toNat_mul,
    a.due_toNat hlast hnow, a.value_toNat, a.ltv_toNat hlast hnow]

/-- The values agree when the price does not make the collateral wrap. -/
theorem stressValue_eq_iff (a : Assessment l price now) :
    stressValue l price = a.value ↔ l.collateralFXRP.toNat * price.toNat < 2 ^ 64 := by
  rw [← wrapped_div_eq_one (show 0 < scale.toNat by decide) (by decide), ← UInt64.toNat_inj,
    stressValue_toNat, a.value_toNat]
  rfl

theorem ltv_eq_zero_iff (a : Assessment l price now) (hlast : IsInt64 l.lastAccruedAt)
    (hnow : IsInt64 now) (hworth : l.worth price ≠ 0) :
    a.ltv = 0 ↔ l.owed now * bps.toNat < l.worth price := by
  rw [← UInt64.toNat_inj, a.ltv_toNat hlast hnow, UInt64.toNat_zero,
    Nat.div_eq_zero_iff_lt (Nat.pos_of_ne_zero hworth)]

theorem ltv_high_iff (a : Assessment l price now) (hlast : IsInt64 l.lastAccruedAt)
    (hnow : IsInt64 now) (hworth : l.worth price ≠ 0) :
    6500 ≤ a.ltv.toNat ↔ 6500 * l.worth price ≤ l.owed now * bps.toNat := by
  rw [a.ltv_toNat hlast hnow, Nat.le_div_iff_mul_le (Nat.pos_of_ne_zero hworth)]

/-- The verdicts agree where the size decides. -/
theorem verdict_iff (a : Assessment l price now) (hlast : IsInt64 l.lastAccruedAt)
    (hnow : IsInt64 now) (hworth : l.worth price ≠ 0) :
    stressStatus a.ltv = a.assessed.status ↔ a.ltv = 0 ∨ now ≤ l.graceEnd ∨
      6500 * l.worth price ≤ l.owed now * bps.toNat := by
  rw [(a.verdict hlast hnow).2]
  by_cases hzero : a.ltv = 0
  · simp [hzero, stressStatus]
  · rw [if_neg hzero, stressStatus_eq_iff, ltv_high_iff a hlast hnow hworth]
    simp [hzero]

theorem StressAgrees.inRange (hlast : IsInt64 l.lastAccruedAt) (hnow : IsInt64 now)
    (hworth : l.worth price ≠ 0) (h : StressAgrees l price now) : StressInRange l price now := by
  obtain ⟨a, view, hview, hdebt, hvalue, hltv, hhealth, hstatus⟩ := h
  obtain ⟨_, rfl⟩ := stressFigures_eq_ok.mp hview
  dsimp only at hdebt hvalue hltv hhealth hstatus
  have hdue := a.due_toNat hlast hnow
  have howed : l.owed now < 2 ^ 64 := hdue ▸ a.due.toNat_lt
  have haccrued := (accrue_toNat hlast hnow a.accrue_eq).1 ▸
    a.accrued.accruedInterestRay.toNat_lt
  rw [hltv] at hstatus
  rw [hdebt, hvalue] at hltv
  refine ⟨?_, haccrued, (stressValue_eq_iff a).mp hvalue,
    (stressRatio_eq_iff a hlast hnow).mp hltv, ?_⟩
  · exact (stressDebt_toNat hlast hnow haccrued howed).mp (by rw [hdebt, hdue])
  · by_cases hzero : a.ltv = 0
    · exact Or.inl ((ltv_eq_zero_iff a hlast hnow hworth).mp hzero)
    · have hprice := ((a.verdict hlast hnow).1 hzero).2
      rw [hdue] at hprice
      have hdivisor : 0 < l.collateralFXRP.toNat * 6500 :=
        Nat.pos_of_ne_zero fun h0 => hworth (by
          rw [Loan.worth, (Nat.mul_eq_zero.mp h0).resolve_right (by decide), Nat.zero_mul]
          rfl)
      exact Or.inr ⟨(Nat.div_lt_iff_lt_mul hdivisor).mp hprice,
        ((verdict_iff a hlast hnow hworth).mp hstatus).resolve_left hzero⟩

theorem StressInRange.agrees (hlast : IsInt64 l.lastAccruedAt) (hnow : IsInt64 now)
    (hworth : l.worth price ≠ 0) (h : StressInRange l price now) : StressAgrees l price now := by
  obtain ⟨a⟩ := h.assessment hlast hnow hworth
  have hdue := a.due_toNat hlast hnow
  have hdebt : stressDebt l now = a.due := by
    rw [← UInt64.toNat_inj, hdue]
    exact (stressDebt_toNat hlast hnow h.accrued (hdue ▸ a.due.toNat_lt)).mpr h.charge
  have hvalue := (stressValue_eq_iff a).mpr h.collateral
  have hltv := (stressRatio_eq_iff a hlast hnow).mpr h.owed
  refine ⟨a, _, stressFigures_eq_ok.mpr ⟨hvalue ▸ a.value_ne_zero, rfl⟩, hdebt, hvalue, ?_, ?_,
    ?_⟩
  · rw [hdebt, hvalue, hltv]
  · intro hne
    dsimp only
    rw [hdebt, hvalue, hltv, if_pos (UInt64.pos_iff_ne_zero.mpr hne), ← UInt64.toNat_inj,
      ((a.verdict hlast hnow).1 hne).1]
    rfl
  · dsimp only
    rw [hdebt, hvalue, hltv, verdict_iff a hlast hnow hworth,
      ltv_eq_zero_iff a hlast hnow hworth]
    exact h.verdict.imp_right fun hlarge => hlarge.2

/-- **The stress view agrees with the ledger exactly in range.** -/
theorem stress_agrees_iff (hlast : IsInt64 l.lastAccruedAt) (hnow : IsInt64 now)
    (hworth : l.worth price ≠ 0) : StressAgrees l price now ↔ StressInRange l price now :=
  ⟨fun h => h.inRange hlast hnow hworth, fun h => h.agrees hlast hnow hworth⟩

end Figures

/-- The loan that `lending` leaves. -/
def lentLoan : Loan where
  id := "x"
  borrower := "0xa"
  principal := 1000000
  collateralFXRP := 2000000
  borrowerAPRBPS := 850
  termDays := 7
  startedAt := 1000
  maturesAt := 605800
  lastAccruedAt := 1000
  tranches := [{ mandateID := "m", lender := "0xc", principal := 1000000, aprBPS := 800 }]
  status := .healthy
  lastHealthFactorBPS := 26000
  liquidationPriceE6 := 769230

/-- A day on, the view has wrapped and shows 175 units less than the ledger would collect. -/
theorem lentLoan_stressed :
    (ledgerAfter .wrapping sampleHost
      (settledCalls .wrapping sampleHost newState lending)).loans["x"]? = some lentLoan ∧
    lentLoan.worth 2000000 ≠ 0 ∧ (accrue lentLoan 87400 >>= debt) = .ok 1000232 ∧
    (stressFigures lentLoan 2000000 87400).toOption.map (·.debt) = some 1000057 ∧
    ¬ StressAgrees lentLoan 2000000 87400 := by
  refine ⟨by decide +kernel, by decide, by decide +kernel, by decide +kernel, fun h => ?_⟩
  have hcharge := (h.inRange (by decide) (by decide) (by decide)).charge
  revert hcharge
  decide +kernel

/-- An hour on, it has not. -/
theorem stress_agrees_iff_hour :
    StressAgrees lentLoan 2000000 4600 ↔ StressInRange lentLoan 2000000 4600 :=
  stress_agrees_iff (by decide) (by decide) (by decide)

end QuietLine
