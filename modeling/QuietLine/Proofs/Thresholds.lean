/-
The liquidation price as a threshold (`updateRisk`).

`updateRisk` stores the price at which the loan becomes liquidatable: one quotient of four factors,
rounded down.  The verdict itself rounds twice, the value of the collateral and the debt's share in
it.  Up to the stored price the verdict is the same as by the exact quotients; above it the value
has to gain a whole unit before they agree again.
-/
import QuietLine.Proofs.Classification

namespace QuietLine

open Outcome Floors

section Threshold

variable {l l' k k' : Loan} {price p : UInt64} {now now' : Int} {due value ltv : UInt64}

/-- The price that `updateRisk` stores. -/
theorem liquidationPrice_toNat (h : updateRisk l price now = .ok l') (hdue : debt l = .ok due)
    (hvalue : mulDiv [l.collateralFXRP, price] scale false = .ok value) (hpos : value ≠ 0)
    (hltv : mulDiv [due, bps] value false = .ok ltv) (hshare : ltv ≠ 0) :
    l'.liquidationPriceE6.toNat =
      l.outstanding * bps.toNat * scale.toNat / (l.collateralFXRP.toNat * 6500) := by
  unfold updateRisk at h
  rw [hvalue, ok_bind, hdue, ok_bind, if_neg hpos, hltv, ok_bind, if_neg hshare] at h
  simp only [bind_eq_ok] at h
  obtain ⟨_, _, stored, hstored, hl'⟩ := h
  rw [← Except.ok.inj hl', ← debt_eq_outstanding hdue]
  show stored.toNat = _
  rw [mulDivBy_floor hstored, prod_three, prod_two]
  rfl

/-- Where the debt's share reaches the threshold, the verdict is that the loan is liquidatable. -/
theorem status_of_threshold (h : updateRisk k p now = .ok k')
    (hreached : 6500 * k.worth p ≤ k.outstanding * bps.toNat) : k'.status = .liquidatable := by
  have hlarge : ¬ (k.worth p ≠ 0 ∧ k.outstanding * bps.toNat < k.worth p) := by
    rintro ⟨_, hlt⟩
    omega
  rw [updateRisk_status h, if_neg hlarge]
  exact if_pos (Or.inr (Or.inr hreached))

/-- Where it does not and the loan is not late, the verdict is another one. -/
theorem status_of_not_threshold (h : updateRisk k p now = .ok k') (hnow : now ≤ k.graceEnd)
    (hmissed : k.outstanding * bps.toNat < 6500 * k.worth p) : k'.status ≠ .liquidatable := by
  have hlaw : lawStatus k p now ≠ .liquidatable := by
    unfold lawStatus
    rw [if_neg]
    · split
      · simp
      · split <;> simp
    · rintro (hzero | hlate | hreached)
      · simp [hzero] at hmissed
      · exact absurd hnow (Int.not_le.mpr hlate)
      · exact absurd hmissed (Nat.not_lt.mpr hreached)
  rw [updateRisk_status h]
  split
  · simp
  · exact hlaw

end Threshold

/-- **The stored liquidation price is the threshold**: for every loan, price and time at which it is
computed, and every loan with the same collateral and debt, judged at any price and time. -/
theorem liquidationPrice_threshold {l l' : Loan} {price due value ltv : UInt64} {now : Int}
    (h : updateRisk l price now = .ok l') (hdue : debt l = .ok due)
    (hvalue : mulDiv [l.collateralFXRP, price] scale false = .ok value) (hpos : value ≠ 0)
    (hltv : mulDiv [due, bps] value false = .ok ltv) (hshare : 1 ≤ ltv) :
    ∀ (k k' : Loan) (p : UInt64) (now' : Int), k.collateralFXRP = l.collateralFXRP →
      debt k = debt l → updateRisk k p now' = .ok k' →
      (p ≤ l'.liquidationPriceE6 → k'.status = .liquidatable) ∧
      (10 ^ 6 ≤ l.collateralFXRP.toNat * (p.toNat - l'.liquidationPriceE6.toNat - 1) →
        now' ≤ k.graceEnd → k'.status ≠ .liquidatable) := by
  intro k k' p now' hcollateral hsame hk
  have hltv0 : ltv ≠ 0 := by
    rintro rfl
    exact absurd hshare (by decide)
  have hstored := liquidationPrice_toNat h hdue hvalue hpos hltv hltv0
  have howed : k.outstanding = l.outstanding := by
    rw [← debt_eq_outstanding hdue, ← debt_eq_outstanding (hsame.trans hdue)]
  have hworth : k.worth p = l.collateralFXRP.toNat * p.toNat / scale.toNat := by
    rw [Loan.worth, hcollateral]
  have hdivisor : 0 < l.collateralFXRP.toNat * 6500 := by
    refine Nat.mul_pos (Nat.pos_of_ne_zero fun h0 => hpos (UInt64.toNat_inj.mp ?_)) (by decide)
    rw [worth_toNat hvalue, Loan.worth, h0, Nat.zero_mul, Nat.zero_div]
    rfl
  constructor
  · intro hle
    have hbelow : p.toNat ≤ l.outstanding * bps.toNat * scale.toNat /
        (l.collateralFXRP.toNat * 6500) := hstored ▸ UInt64.le_iff_toNat_le.mp hle
    refine status_of_threshold hk ?_
    rw [hworth, howed]
    exact worth_le_of_le_price (by decide) hbelow
  · intro hpast hnow
    refine status_of_not_threshold hk hnow ?_
    rw [hworth, howed]
    rw [hstored] at hpast
    exact lt_worth_of_past_price hdivisor (by decide) hpast

/-- One USDT0 against two XRP at 2 USD: the threshold is 0.769230 USD. -/
theorem liquidationPrice_threshold_lent : ∃ l', updateRisk lentLoan 2000000 1000 = .ok l' ∧
    (∀ k', updateRisk lentLoan 769230 1000 = .ok k' → k'.status = .liquidatable) ∧
    ∀ k', updateRisk lentLoan 769232 1000 = .ok k' → k'.status ≠ .liquidatable := by
  obtain ⟨l', hl', hprice⟩ : ∃ l', updateRisk lentLoan 2000000 1000 = .ok l' ∧
      l'.liquidationPriceE6 = 769230 := by
    generalize hanswer : updateRisk lentLoan 2000000 1000 = answer
    have hstored : answer.toOption.map Loan.liquidationPriceE6 = some 769230 := by
      rw [← hanswer]
      decide +kernel
    cases answer with
    | error e => simp [Except.toOption] at hstored
    | ok l' => exact ⟨l', rfl, by simpa [Except.toOption] using hstored⟩
  have hthreshold := @liquidationPrice_threshold lentLoan l' 2000000 1000000 4000000 2500 1000 hl'
    (by decide +kernel) (by decide +kernel) (by decide) (by decide +kernel) (by decide) lentLoan
  rw [hprice] at hthreshold
  refine ⟨l', hl', fun k' hk' => ?_, fun k' hk' => ?_⟩
  · exact (hthreshold k' 769230 1000 rfl rfl hk').1 (by decide)
  · exact (hthreshold k' 769232 1000 rfl rfl hk').2 (by decide) (by decide)

end QuietLine
