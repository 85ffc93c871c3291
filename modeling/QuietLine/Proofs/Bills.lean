/-
What a risk tick does, in closed form.

The tick liquidates the loans whose bills the backstop pays in turn (`Budget.pay`).  Each
liquidation credits balances, and the next one finds them credited; but every sum it adds to only
grows and every one it takes from only shrinks, so that all of them go through exactly when their
totals fit (`Settles`), and what they leave is told by the totals alone (`BillsSettled`).  The order
of the loans decides which bills are paid, and nothing else.
-/
import QuietLine.Library.Budget
import QuietLine.Proofs.Interest
import QuietLine.Proofs.Ticks

namespace QuietLine

open Outcome MapSum MapRel
open Std (ExtTreeMap)

/-! ### Payments -/

/-- What a tranche is paid on top of its principal. -/
structure Payment where
  tranche : Tranche
  interest : Nat

/-- The principal that returns to the mandate `id`. -/
def principalOn (id : String) (ps : List Payment) : Nat :=
  (ps.map fun p => if p.tranche.mandateID = id then p.tranche.principal.toNat else 0).sum

/-- The interest it earns. -/
def interestOn (id : String) (ps : List Payment) : Nat :=
  (ps.map fun p => if p.tranche.mandateID = id then p.interest else 0).sum

/-- The principal that the lender `key` no longer has reserved. -/
def State.freedTo (s : State) (key : String) (ps : List Payment) : Nat :=
  (ps.map fun p => if toLower p.tranche.lender = key then s.freedBy p.tranche else 0).sum

/-- The interest of all payments. -/
def interestTotal (ps : List Payment) : Nat := (ps.map Payment.interest).sum

/-- What the lender `key` is credited. -/
def State.creditedTo (s : State) (key : String) (ps : List Payment) : Nat :=
  (ps.map fun p =>
    if toLower p.tranche.lender = key then p.interest + s.freedBy p.tranche else 0).sum

section Payments

variable {s s' : State} {ps ps' : List Payment}

@[simp] theorem principalOn_append (id : String) (ps ps' : List Payment) :
    principalOn id (ps ++ ps') = principalOn id ps + principalOn id ps' := by
  simp [principalOn]

@[simp] theorem interestOn_append (id : String) (ps ps' : List Payment) :
    interestOn id (ps ++ ps') = interestOn id ps + interestOn id ps' := by
  simp [interestOn]

@[simp] theorem freedTo_append (s : State) (key : String) (ps ps' : List Payment) :
    s.freedTo key (ps ++ ps') = s.freedTo key ps + s.freedTo key ps' := by
  simp [State.freedTo]

@[simp] theorem creditedTo_append (s : State) (key : String) (ps ps' : List Payment) :
    s.creditedTo key (ps ++ ps') = s.creditedTo key ps + s.creditedTo key ps' := by
  simp [State.creditedTo]

@[simp] theorem interestTotal_append (ps ps' : List Payment) :
    interestTotal (ps ++ ps') = interestTotal ps + interestTotal ps' := by
  simp [interestTotal]

theorem principal_le_principalOn {p : Payment} (h : p ∈ ps) :
    p.tranche.principal.toNat ≤ principalOn p.tranche.mandateID ps := by
  have hle := List.single_le_sum (by simp) _ (List.mem_map_of_mem (f := fun p' : Payment =>
    if p'.tranche.mandateID = p.tranche.mandateID then p'.tranche.principal.toNat else 0) h)
  simpa [principalOn] using hle

/-- Where the tranches free the same, so much is freed, and credited. -/
theorem freedTo_congr (h : ∀ p ∈ ps, s'.freedBy p.tranche = s.freedBy p.tranche) (key : String) :
    s'.freedTo key ps = s.freedTo key ps ∧ s'.creditedTo key ps = s.creditedTo key ps := by
  unfold State.freedTo State.creditedTo
  refine ⟨?_, ?_⟩
  · congr 1
    exact List.map_congr_left fun p hp => by rw [h p hp]
  · congr 1
    exact List.map_congr_left fun p hp => by rw [h p hp]

end Payments

/-! ### One mandate -/

/-- `m'` is `m`, filed under `id`, after the payments `ps`. -/
structure Mandate.PaidBy (ps : List Payment) (id : String) (m m' : Mandate) : Prop where
  available : m'.available.toNat =
    m.available.toNat + if m.active then principalOn id ps else 0
  allocated : m.allocatedPrincipal.toNat = m'.allocatedPrincipal.toNat + principalOn id ps
  earned : m'.interestEarned.toNat = m.interestEarned.toNat + interestOn id ps
  others : m' = { m with
    available := m'.available, allocatedPrincipal := m'.allocatedPrincipal
    interestEarned := m'.interestEarned, active := m'.active }
  /-- A payment retires a mandate that it leaves empty. -/
  active : m'.active = true ↔
    m.active = true ∧ ((∃ p ∈ ps, p.tranche.mandateID = id) → m'.liquidity ≠ 0)

namespace Mandate.PaidBy

variable {ps ps' : List Payment} {id : String} {m m' m'' : Mandate}

theorem refl (m : Mandate) : m.PaidBy [] id m :=
  ⟨by simp [principalOn], by simp [principalOn], by simp [interestOn], rfl, by simp⟩

/-- Where no payment is for the mandate, nothing is. -/
theorem sums_eq_zero (h : ¬ ∃ p ∈ ps, p.tranche.mandateID = id) :
    principalOn id ps = 0 ∧ interestOn id ps = 0 := by
  simp only [not_exists, not_and] at h
  unfold principalOn interestOn
  exact ⟨List.sum_eq_zero (by simpa using fun p hp => fun heq => absurd heq (h p hp)),
    List.sum_eq_zero (by simpa using fun p hp => fun heq => absurd heq (h p hp))⟩

/-- Retired, a mandate has nothing left to be repaid. -/
theorem active_eq (h : m.PaidBy ps id m')
    (hlater : principalOn id ps' ≤ m'.allocatedPrincipal.toNat) :
    m'.active = m.active ∨ principalOn id ps' = 0 := by
  by_cases hliquid : m'.liquidity = 0
  · unfold Mandate.liquidity at hliquid
    exact Or.inr (by omega)
  · refine Or.inl (Bool.eq_iff_iff.mpr ?_)
    rw [h.active]
    exact and_iff_left fun _ => hliquid

theorem trans (h : m.PaidBy ps id m') (h' : m'.PaidBy ps' id m'') :
    m.PaidBy (ps ++ ps') id m'' := by
  have havailable := h.available
  have havailable' := h'.available
  have hallocated := h.allocated
  have hallocated' := h'.allocated
  have hearned := h.earned
  have hearned' := h'.earned
  have hlast : m''.available.toNat =
      m.available.toNat + if m.active then principalOn id (ps ++ ps') else 0 := by
    rw [principalOn_append]
    rcases h.active_eq (by omega : principalOn id ps' ≤ _) with hactive | hzero
    · rw [hactive] at havailable'
      cases hm : m.active with
      | true =>
          simp only [hm, if_true] at havailable havailable' ⊢
          omega
      | false =>
          simp only [hm, Bool.false_eq_true, if_false] at havailable havailable' ⊢
          omega
    · rw [hzero, ite_self] at havailable'
      rw [havailable', hzero, havailable]
      simp
  refine ⟨hlast, ?_, ?_, ?_, ?_⟩
  · rw [principalOn_append]
    omega
  · rw [interestOn_append]
    omega
  · rw [h'.others, h.others]
  · have hboth : (∃ p ∈ ps ++ ps', p.tranche.mandateID = id) ↔
        (∃ p ∈ ps, p.tranche.mandateID = id) ∨ ∃ p ∈ ps', p.tranche.mandateID = id := by
      simp only [List.mem_append, or_and_right, exists_or]
    rw [h'.active, h.active, hboth, and_assoc]
    refine and_congr_right fun hm => ?_
    simp only [hm, if_true] at havailable hlast
    rw [principalOn_append] at hlast
    unfold Mandate.liquidity
    by_cases hlater : ∃ p ∈ ps', p.tranche.mandateID = id
    · simp only [hlater, or_true, true_imp_iff]
      refine ⟨fun hne => hne.2, fun hne => ⟨fun _ => ?_, hne⟩⟩
      omega
    · obtain ⟨hzero, _⟩ := sums_eq_zero hlater
      simp only [hlater, or_false, false_imp_iff, and_true]
      refine imp_congr_right fun _ => ?_
      omega

/-- The payments tell the mandate, whatever their order. -/
theorem eq_of_perm {m₁ m₂ : Mandate} (h : m.PaidBy ps id m₁) (h' : m.PaidBy ps' id m₂)
    (hperm : ps.Perm ps') : m₁ = m₂ := by
  have hprincipal : principalOn id ps = principalOn id ps' := (hperm.map _).sum_eq
  have hinterest : interestOn id ps = interestOn id ps' := (hperm.map _).sum_eq
  have havailable : m₁.available = m₂.available := by
    rw [← UInt64.toNat_inj, h.available, h'.available, hprincipal]
  have hallocated : m₁.allocatedPrincipal = m₂.allocatedPrincipal := by
    have hfirst := h.allocated
    have hsecond := h'.allocated
    exact UInt64.toNat_inj.mp (by omega)
  have hearned : m₁.interestEarned = m₂.interestEarned := by
    rw [← UInt64.toNat_inj, h.earned, h'.earned, hinterest]
  have hactive : m₁.active = m₂.active := by
    have htouched : (∃ p ∈ ps, p.tranche.mandateID = id) ↔ ∃ p ∈ ps', p.tranche.mandateID = id :=
      exists_congr fun p => and_congr_left fun _ => hperm.mem_iff
    rw [Bool.eq_iff_iff, h.active, h'.active, htouched, Mandate.liquidity, Mandate.liquidity,
      havailable, hallocated]
  have hothers := h.others
  rw [havailable, hallocated, hearned, hactive] at hothers
  exact hothers.trans h'.others.symm

end Mandate.PaidBy

/-! ### Bills -/

/-- A loan to be liquidated, up to date, and what it owes. -/
structure Bill where
  loan : Loan
  due : UInt64

namespace Bill

/-- What is owed above the principal. -/
def interest (b : Bill) : UInt64 := b.due - b.loan.principal

def payments (b : Bill) : List Payment :=
  b.loan.tranches.map fun t => ⟨t, b.loan.part b.interest t⟩

/-- The collateral that covers the debt at `price`, with the discount of a liquidation. -/
def cover (b : Bill) (price : UInt64) : Nat :=
  b.due.toNat * scale.toNat * bps.toNat / (price.toNat * 9500)

/-- What the backstop takes of the collateral. -/
def seized (b : Bill) (price : UInt64) : Nat := min (b.cover price) b.loan.collateralFXRP.toNat

/-- The accounts the bill is settled with. -/
def Touches (b : Bill) (key : String) : Prop :=
  toLower b.loan.borrower = key ∨ ∃ t ∈ b.loan.tranches, toLower t.lender = key

end Bill

/-- All that is paid with the bills. -/
def payments (bs : List Bill) : List Payment := bs.flatMap Bill.payments

@[simp] theorem payments_append (bs bs' : List Bill) :
    payments (bs ++ bs') = payments bs ++ payments bs' := by
  simp [payments]

/-- The collateral of the bills of the borrower `key`. -/
def pledgedBy (key : String) (bs : List Bill) : Nat :=
  (bs.map fun b => if toLower b.loan.borrower = key then b.loan.collateralFXRP.toNat else 0).sum

/-- What of it is given back. -/
def givenBack (price : UInt64) (key : String) (bs : List Bill) : Nat :=
  (bs.map fun b => if toLower b.loan.borrower = key then
    b.loan.collateralFXRP.toNat - b.seized price else 0).sum

/-- `a'` is `a`, filed under `key` in `s`, after the bills `bs` were settled at `price`. -/
structure Account.SettledBy (s : State) (price : UInt64) (bs : List Bill) (key : String)
    (a a' : Account) : Prop where
  available : a'.balances.usdt0.available.toNat =
    a.balances.usdt0.available.toNat + s.creditedTo key (payments bs)
  reserved : a.balances.usdt0.reserved.toNat =
    a'.balances.usdt0.reserved.toNat + s.freedTo key (payments bs)
  fxrpAvailable : a'.balances.fxrp.available =
    a.balances.fxrp.available + UInt64.ofNat (givenBack price key bs)
  fxrpReserved : a'.balances.fxrp.reserved =
    a.balances.fxrp.reserved - UInt64.ofNat (pledgedBy key bs)
  cleared : (∃ b ∈ bs, toLower b.loan.borrower = key) → a'.loanID = ""
  kept : (¬ ∃ b ∈ bs, toLower b.loan.borrower = key) → a'.loanID = a.loanID
  owner : a'.owner = a.owner
  nonce : a'.nonce = a.nonce

/-- The bills tell the account, whatever their order. -/
theorem Account.SettledBy.eq_of_perm {s : State} {price : UInt64} {bs bs' : List Bill}
    {key : String} {a a₁ a₂ : Account} (h : Account.SettledBy s price bs key a a₁)
    (h' : Account.SettledBy s price bs' key a a₂) (hperm : bs.Perm bs') : a₁ = a₂ := by
  have hpayments : (payments bs).Perm (payments bs') := hperm.flatMap_right _
  have hcredited : s.creditedTo key (payments bs) = s.creditedTo key (payments bs') :=
    (hpayments.map _).sum_eq
  have hfreed : s.freedTo key (payments bs) = s.freedTo key (payments bs') :=
    (hpayments.map _).sum_eq
  have hgiven : givenBack price key bs = givenBack price key bs' := (hperm.map _).sum_eq
  have hpledged : pledgedBy key bs = pledgedBy key bs' := (hperm.map _).sum_eq
  have hborrowed : (∃ b ∈ bs, toLower b.loan.borrower = key) ↔
      ∃ b ∈ bs', toLower b.loan.borrower = key :=
    exists_congr fun b => and_congr_left fun _ => hperm.mem_iff
  have hloanID : a₁.loanID = a₂.loanID := by
    by_cases hborrower : ∃ b ∈ bs, toLower b.loan.borrower = key
    · rw [h.cleared hborrower, h'.cleared (hborrowed.mp hborrower)]
    · rw [h.kept hborrower, h'.kept (hborrowed.not.mp hborrower)]
  have hfxrp : a₁.balances.fxrp = a₂.balances.fxrp := by
    rw [Balance.mk.injEq]
    exact ⟨by rw [h.fxrpAvailable, h'.fxrpAvailable, hgiven],
      by rw [h.fxrpReserved, h'.fxrpReserved, hpledged]⟩
  have havailable : a₁.balances.usdt0.available = a₂.balances.usdt0.available := by
    rw [← UInt64.toNat_inj, h.available, h'.available, hcredited]
  have hreserved : a₁.balances.usdt0.reserved = a₂.balances.usdt0.reserved := by
    have hfirst := h.reserved
    have hsecond := h'.reserved
    exact UInt64.toNat_inj.mp (by omega)
  have husdt0 : a₁.balances.usdt0 = a₂.balances.usdt0 := by
    rw [Balance.mk.injEq]
    exact ⟨havailable, hreserved⟩
  have hbalances : a₁.balances = a₂.balances := by
    rw [Balances.mk.injEq]
    exact ⟨hfxrp, husdt0⟩
  rw [Account.mk.injEq]
  exact ⟨h.owner.trans h'.owner.symm, h.nonce.trans h'.nonce.symm, hbalances, hloanID⟩

/-- From `s` to `s'` the bills `bs` were settled at `price`; the loans are told elsewhere. -/
structure BillsSettled (price : UInt64) (bs : List Bill) (s s' : State) : Prop where
  frame : s' = { s with
    accounts := s'.accounts, mandates := s'.mandates, loans := s'.loans
    protocolReserve := s'.protocolReserve, backstopUSDT0 := s'.backstopUSDT0
    backstopFXRP := s'.backstopFXRP, activeDebt := s'.activeDebt }
  accounts : ∀ key, Account.SettledBy s price bs key (s.accountAt key) (s'.accountAt key)
  present : ∀ key, s'.accounts[key]? = none ↔
    s.accounts[key]? = none ∧ ∀ b ∈ bs, ¬ b.Touches key
  mandates : Pointwise (Mandate.PaidBy (payments bs)) s.mandates s'.mandates
  found : ∀ p ∈ payments bs, ∃ m, s.mandates[p.tranche.mandateID]? = some m
  reserve : s'.protocolReserve.toNat + interestTotal (payments bs) =
    s.protocolReserve.toNat + (bs.map fun b => b.interest.toNat).sum
  backstopUSDT0 : s.backstopUSDT0.toNat =
    s'.backstopUSDT0.toNat + (bs.map fun b => b.due.toNat).sum
  backstopFXRP : s'.backstopFXRP =
    s.backstopFXRP + UInt64.ofNat (bs.map fun b => b.seized price).sum
  activeDebt : s'.activeDebt =
    s.activeDebt - UInt64.ofNat (bs.map fun b => b.loan.principal.toNat).sum

namespace BillsSettled

variable {price : UInt64} {bs bs' : List Bill} {s s₁ s₂ : State}

/-- Settling no bills changes the loans at most. -/
theorem of_loans (h : s₁ = { s with loans := s₁.loans }) : BillsSettled price [] s s₁ := by
  have haccounts : s₁.accounts = s.accounts := by rw [h]
  refine ⟨?_, fun key => ?_, ?_, ?_, by simp [payments], ?_, ?_, ?_, ?_⟩
  · rw [h]
  · rw [accountAt_congr haccounts]
    exact ⟨by simp [State.creditedTo, payments], by simp [State.freedTo, payments],
      by simp [givenBack], by simp [pledgedBy], by simp, by simp, rfl, rfl⟩
  · simp [haccounts]
  · rw [show s₁.mandates = s.mandates by rw [h]]
    exact Pointwise.refl fun _ m _ => Mandate.PaidBy.refl m
  · rw [show s₁.protocolReserve = s.protocolReserve by rw [h]]
    simp [interestTotal, payments]
  · rw [show s₁.backstopUSDT0 = s.backstopUSDT0 by rw [h]]
    simp
  · rw [show s₁.backstopFXRP = s.backstopFXRP by rw [h]]
    simp
  · rw [show s₁.activeDebt = s.activeDebt by rw [h]]
    simp

/-- While the mandates cover them, later payments free what they would have freed before. -/
theorem freedBy_eq (h : BillsSettled price bs s s₁) {ps : List Payment}
    (hcovered : ∀ p ∈ ps, ∀ m, s₁.mandates[p.tranche.mandateID]? = some m →
      principalOn p.tranche.mandateID ps ≤ m.allocatedPrincipal.toNat) :
    ∀ p ∈ ps, s₁.freedBy p.tranche = s.freedBy p.tranche := by
  intro p hp
  unfold State.freedBy State.cancelled
  cases hm : s.mandates[p.tranche.mandateID]? with
  | none => rw [h.mandates.get_none hm]
  | some m =>
      obtain ⟨m', hm', hpaid⟩ := h.mandates.get hm
      rw [hm']
      rcases hpaid.active_eq (hcovered p hp m' hm') with hactive | hzero
      · simp [hactive]
      · have hnone : p.tranche.principal.toNat = 0 :=
          Nat.le_zero.mp (hzero ▸ principal_le_principalOn hp)
        simp [hnone]

theorem trans (h : BillsSettled price bs s s₁) (h' : BillsSettled price bs' s₁ s₂) :
    BillsSettled price (bs ++ bs') s s₂ := by
  have hfreed : ∀ p ∈ payments bs', s₁.freedBy p.tranche = s.freedBy p.tranche := by
    refine h.freedBy_eq fun p _ m hm => ?_
    obtain ⟨m', _, hpaid⟩ := h'.mandates.get hm
    rw [hpaid.allocated]
    exact Nat.le_add_left _ _
  have hboth : ∀ key, (∃ b ∈ bs ++ bs', toLower b.loan.borrower = key) ↔
      (∃ b ∈ bs, toLower b.loan.borrower = key) ∨ ∃ b ∈ bs', toLower b.loan.borrower = key := by
    simp only [List.mem_append, or_and_right, exists_or, implies_true]
  refine ⟨?_, fun key => ?_, fun key => ?_, ?_, ?_, ?_, ?_, ?_, ?_⟩
  · rw [h'.frame, h.frame]
  · have hfirst := h.accounts key
    have hsecond := h'.accounts key
    obtain ⟨hfreedTo, hcredited⟩ := freedTo_congr hfreed key
    have havailable := hsecond.available
    have hreserved := hsecond.reserved
    rw [hcredited, hfirst.available] at havailable
    rw [hfreedTo] at hreserved
    refine ⟨?_, ?_, ?_, ?_, ?_, ?_, ?_, ?_⟩
    · rw [payments_append, creditedTo_append, havailable, Nat.add_assoc]
    · rw [payments_append, freedTo_append, hfirst.reserved, hreserved]
      omega
    · rw [hsecond.fxrpAvailable, hfirst.fxrpAvailable, add_add_ofNat]
      simp [givenBack]
    · rw [hsecond.fxrpReserved, hfirst.fxrpReserved, sub_sub_ofNat]
      simp [pledgedBy]
    · rw [hboth]
      rintro (hone | hone)
      · by_cases hlater : ∃ b ∈ bs', toLower b.loan.borrower = key
        · exact hsecond.cleared hlater
        · rw [hsecond.kept hlater, hfirst.cleared hone]
      · exact hsecond.cleared hone
    · rw [hboth, not_or]
      rintro ⟨hone, hlater⟩
      rw [hsecond.kept hlater, hfirst.kept hone]
    · rw [hsecond.owner, hfirst.owner]
    · rw [hsecond.nonce, hfirst.nonce]
  · rw [h'.present, h.present, and_assoc]
    refine and_congr_right fun _ => ?_
    simp only [List.mem_append, or_imp, forall_and]
  · rw [payments_append]
    exact h.mandates.comp h'.mandates fun _ _ _ _ hm hm' => hm.trans hm'
  · intro p hp
    rw [payments_append, List.mem_append] at hp
    rcases hp with hp | hp
    · exact h.found p hp
    · obtain ⟨m', hm'⟩ := h'.found p hp
      obtain ⟨m, hm, _⟩ := h.mandates.get' hm'
      exact ⟨m, hm⟩
  · have hfirst := h.reserve
    have hsecond := h'.reserve
    rw [payments_append, interestTotal_append, List.map_append, List.sum_append]
    omega
  · have hfirst := h.backstopUSDT0
    have hsecond := h'.backstopUSDT0
    rw [List.map_append, List.sum_append]
    omega
  · rw [h'.backstopFXRP, h.backstopFXRP, add_add_ofNat, List.map_append, List.sum_append]
  · rw [h'.activeDebt, h.activeDebt, sub_sub_ofNat, List.map_append, List.sum_append]

/-- The bills tell all that is left, whatever their order. -/
theorem eq_of_perm (h : BillsSettled price bs s s₁) (h' : BillsSettled price bs' s s₂)
    (hperm : bs.Perm bs') (hloans : s₁.loans = s₂.loans) : s₁ = s₂ := by
  have hpayments : (payments bs).Perm (payments bs') := hperm.flatMap_right _
  have hsum : ∀ f : Bill → Nat, (bs.map f).sum = (bs'.map f).sum := fun f =>
    (hperm.map f).sum_eq
  have hpaid : ∀ f : Payment → Nat, ((payments bs).map f).sum = ((payments bs').map f).sum :=
    fun f => (hpayments.map f).sum_eq
  have haccountAt : ∀ key, s₁.accountAt key = s₂.accountAt key := fun key =>
    (h.accounts key).eq_of_perm (h'.accounts key) hperm
  have haccounts : s₁.accounts = s₂.accounts := by
    refine ExtTreeMap.ext_getElem? fun key => ?_
    have hpresent : s₁.accounts[key]? = none ↔ s₂.accounts[key]? = none := by
      rw [h.present, h'.present]
      refine and_congr_right fun _ => forall_congr' fun b => ?_
      rw [hperm.mem_iff]
    have hat := haccountAt key
    unfold State.accountAt at hat
    cases ha : s₁.accounts[key]? with
    | none => exact (hpresent.mp ha).symm
    | some a =>
        cases hb : s₂.accounts[key]? with
        | none => rw [hpresent.mpr hb] at ha; cases ha
        | some b =>
            rw [ha, hb] at hat
            exact congrArg some hat
  have hmandates : s₁.mandates = s₂.mandates := by
    refine ExtTreeMap.ext_getElem? fun id => ?_
    cases hm : s.mandates[id]? with
    | none => rw [h.mandates.get_none hm, h'.mandates.get_none hm]
    | some m =>
        obtain ⟨m₁, hm₁, hfirst⟩ := h.mandates.get hm
        obtain ⟨m₂, hm₂, hsecond⟩ := h'.mandates.get hm
        rw [hm₁, hm₂, hfirst.eq_of_perm hsecond hpayments]
  rw [h.frame, h'.frame]
  have hreserve : s₁.protocolReserve = s₂.protocolReserve := by
    have hfirst := h.reserve
    have hsecond := h'.reserve
    have htotal : interestTotal (payments bs) = interestTotal (payments bs') := hpaid _
    rw [htotal, hsum] at hfirst
    exact UInt64.toNat_inj.mp (by omega)
  have hback : s₁.backstopUSDT0 = s₂.backstopUSDT0 := by
    have hfirst := h.backstopUSDT0
    have hsecond := h'.backstopUSDT0
    rw [hsum] at hfirst
    exact UInt64.toNat_inj.mp (by omega)
  have hbackFXRP : s₁.backstopFXRP = s₂.backstopFXRP := by
    rw [h.backstopFXRP, h'.backstopFXRP, hsum]
  have hdebt : s₁.activeDebt = s₂.activeDebt := by
    rw [h.activeDebt, h'.activeDebt, hsum]
  rw [haccounts, hmandates, hloans, hreserve, hback, hbackFXRP, hdebt]

end BillsSettled

/-! ### When the bills go through -/

/-- The mandate, filed under `id`, has lent what the payments return, and room for what they add. -/
structure Mandate.Covers (ps : List Payment) (id : String) (m : Mandate) : Prop where
  allocated : principalOn id ps ≤ m.allocatedPrincipal.toNat
  available : m.available.toNat + (if m.active then principalOn id ps else 0) < 2 ^ 64
  earned : m.interestEarned.toNat + interestOn id ps < 2 ^ 64

/-- The mandates and balances have what the bills take from them, and room for what they add. -/
structure Settles (s : State) (bs : List Bill) : Prop where
  mandate : ∀ p ∈ payments bs, ∃ m, s.mandates[p.tranche.mandateID]? = some m ∧
    m.Covers (payments bs) p.tranche.mandateID
  reserved : ∀ key, s.freedTo key (payments bs) ≤
    (s.accountAt key).balances.usdt0.reserved.toNat
  available : ∀ key, (s.accountAt key).balances.usdt0.available.toNat +
    s.creditedTo key (payments bs) < 2 ^ 64
  reserve : s.protocolReserve.toNat + (bs.map fun b => b.interest.toNat).sum <
    2 ^ 64 + interestTotal (payments bs)

section Settling

variable {price : UInt64} {bs bs' : List Bill} {s s₁ : State} {ps ps' : List Payment} {id : String}
  {m m' : Mandate}

theorem Mandate.PaidBy.covers (h : m.PaidBy ps id m') : m.Covers ps id :=
  ⟨h.allocated ▸ Nat.le_add_left _ _, h.available ▸ m'.available.toNat_lt,
    h.earned ▸ m'.interestEarned.toNat_lt⟩

/-- Paid in part, a mandate covers the rest where it covered all. -/
theorem Mandate.PaidBy.covers_append (h : m.PaidBy ps id m') :
    m.Covers (ps ++ ps') id ↔ m'.Covers ps' id := by
  have havailable := h.available
  have hallocated := h.allocated
  have hearned := h.earned
  have hrest : principalOn id ps' ≤ m'.allocatedPrincipal.toNat →
      m.available.toNat + (if m.active then principalOn id (ps ++ ps') else 0) =
        m'.available.toNat + if m'.active then principalOn id ps' else 0 := by
    intro hcovered
    rw [principalOn_append]
    rcases h.active_eq hcovered with hactive | hzero
    · rw [hactive, havailable]
      cases m.active <;> simp [Nat.add_assoc]
    · simp [hzero, havailable]
  constructor
  · intro hcovers
    have hall := hcovers.allocated
    have hroom := hcovers.available
    have hearn := hcovers.earned
    rw [principalOn_append] at hall
    rw [interestOn_append] at hearn
    have hcovered : principalOn id ps' ≤ m'.allocatedPrincipal.toNat := by omega
    exact ⟨hcovered, hrest hcovered ▸ hroom, by omega⟩
  · intro hcovers
    have hcovered := hcovers.allocated
    have hearn := hcovers.earned
    refine ⟨?_, hrest hcovered ▸ hcovers.available, ?_⟩
    · rw [principalOn_append]
      omega
    · rw [interestOn_append]
      omega

/-- Where no payment of `ps'` is for the mandate, it covers them with the others. -/
theorem Mandate.Covers.append_of_spared (h : m.Covers ps id)
    (hspared : ¬ ∃ p ∈ ps', p.tranche.mandateID = id) : m.Covers (ps ++ ps') id := by
  obtain ⟨hprincipal, hinterest⟩ := Mandate.PaidBy.sums_eq_zero hspared
  refine ⟨?_, ?_, ?_⟩
  · rw [principalOn_append, hprincipal]
    exact h.allocated
  · rw [principalOn_append, hprincipal]
    exact h.available
  · rw [interestOn_append, hinterest]
    exact h.earned

/-- Nothing to settle goes through. -/
theorem settles_nil (s : State) : Settles s [] := by
  refine ⟨by simp [payments], fun key => ?_, fun key => ?_, ?_⟩
  · simp [payments, State.freedTo]
  · exact (s.accountAt key).balances.usdt0.available.toNat_lt
  · exact Nat.lt_add_right _ s.protocolReserve.toNat_lt

/-- **Later bills go through where all do.** -/
theorem BillsSettled.settles_append (h : BillsSettled price bs s s₁) :
    Settles s (bs ++ bs') ↔ Settles s₁ bs' := by
  have hreserve := h.reserve
  constructor
  · intro hall
    have hmandate : ∀ p ∈ payments bs', ∃ m', s₁.mandates[p.tranche.mandateID]? = some m' ∧
        m'.Covers (payments bs') p.tranche.mandateID := by
      intro p hp
      obtain ⟨m, hm, hcovers⟩ := hall.mandate p (by simp [hp])
      obtain ⟨m', hm', hpaid⟩ := h.mandates.get hm
      rw [payments_append] at hcovers
      exact ⟨m', hm', hpaid.covers_append.mp hcovers⟩
    have hfreed : ∀ p ∈ payments bs', s₁.freedBy p.tranche = s.freedBy p.tranche := by
      refine h.freedBy_eq fun p hp m' hm' => ?_
      obtain ⟨m'', hm'', hcovers⟩ := hmandate p hp
      rw [hm'] at hm''
      obtain rfl := Option.some.inj hm''
      exact hcovers.allocated
    refine ⟨hmandate, fun key => ?_, fun key => ?_, ?_⟩
    · have hreserved := hall.reserved key
      have hsettled := (h.accounts key).reserved
      rw [(freedTo_congr hfreed key).1]
      rw [payments_append, freedTo_append] at hreserved
      omega
    · have havailable := hall.available key
      have hsettled := (h.accounts key).available
      rw [(freedTo_congr hfreed key).2]
      rw [payments_append, creditedTo_append] at havailable
      omega
    · have htotal := hall.reserve
      rw [payments_append, interestTotal_append, List.map_append, List.sum_append] at htotal
      omega
  · intro hlater
    have hfreed : ∀ p ∈ payments bs', s₁.freedBy p.tranche = s.freedBy p.tranche := by
      refine h.freedBy_eq fun p hp m' hm' => ?_
      obtain ⟨m'', hm'', hcovers⟩ := hlater.mandate p hp
      rw [hm'] at hm''
      obtain rfl := Option.some.inj hm''
      exact hcovers.allocated
    refine ⟨fun p hp => ?_, fun key => ?_, fun key => ?_, ?_⟩
    · rw [payments_append, List.mem_append] at hp
      have hcase : (∃ p' ∈ payments bs', p'.tranche.mandateID = p.tranche.mandateID) ∨
          p ∈ payments bs ∧ ¬ ∃ p' ∈ payments bs', p'.tranche.mandateID = p.tranche.mandateID := by
        by_cases hlater : ∃ p' ∈ payments bs', p'.tranche.mandateID = p.tranche.mandateID
        · exact Or.inl hlater
        · exact Or.inr ⟨hp.resolve_right fun hp' => hlater ⟨p, hp', rfl⟩, hlater⟩
      rw [payments_append]
      rcases hcase with ⟨p', hp', hsame⟩ | ⟨hp, hspared⟩
      · obtain ⟨m', hm', hcovers⟩ := hlater.mandate p' hp'
        rw [hsame] at hm' hcovers
        obtain ⟨m, hm, hpaid⟩ := h.mandates.get' hm'
        exact ⟨m, hm, hpaid.covers_append.mpr hcovers⟩
      · obtain ⟨m, hm⟩ := h.found p hp
        obtain ⟨m', hm', hpaid⟩ := h.mandates.get hm
        exact ⟨m, hm, hpaid.covers.append_of_spared hspared⟩
    · have hreserved := hlater.reserved key
      have hsettled := (h.accounts key).reserved
      rw [(freedTo_congr hfreed key).1] at hreserved
      rw [payments_append, freedTo_append]
      omega
    · have havailable := hlater.available key
      have hsettled := (h.accounts key).available
      rw [(freedTo_congr hfreed key).2] at havailable
      rw [payments_append, creditedTo_append]
      omega
    · have htotal := hlater.reserve
      rw [payments_append, interestTotal_append, List.map_append, List.sum_append]
      omega

/-- The order of the bills does not matter to what they ask for. -/
theorem Settles.of_perm (h : Settles s bs) (hperm : bs.Perm bs') : Settles s bs' := by
  have hpayments : (payments bs).Perm (payments bs') := hperm.flatMap_right _
  have hsum : ∀ f : Payment → Nat, ((payments bs).map f).sum = ((payments bs').map f).sum :=
    fun f => (hpayments.map f).sum_eq
  refine ⟨fun p hp => ?_, fun key => ?_, fun key => ?_, ?_⟩
  · obtain ⟨m, hm, hallocated, havailable, hearned⟩ := h.mandate p (hpayments.mem_iff.mpr hp)
    unfold principalOn at hallocated havailable
    unfold interestOn at hearned
    rw [hsum] at hallocated havailable hearned
    exact ⟨m, hm, hallocated, havailable, hearned⟩
  · have hreserved := h.reserved key
    unfold State.freedTo at hreserved ⊢
    rwa [← hsum]
  · have havailable := h.available key
    unfold State.creditedTo at havailable ⊢
    rwa [← hsum]
  · have hreserve := h.reserve
    unfold interestTotal at hreserve ⊢
    rwa [← hsum, ← (hperm.map _).sum_eq]

/-- What covers more payments covers less. -/
theorem Mandate.Covers.of_append (h : m.Covers (ps ++ ps') id) : m.Covers ps id := by
  have hallocated := h.allocated
  have havailable := h.available
  have hearned := h.earned
  rw [principalOn_append] at hallocated havailable
  rw [interestOn_append] at hearned
  refine ⟨by omega, ?_, by omega⟩
  cases hactive : m.active with
  | true =>
      simp only [hactive, if_true] at havailable ⊢
      omega
  | false =>
      simp only [hactive, Bool.false_eq_true, if_false] at havailable ⊢
      omega

/-- No lender's share exceeds the interest. -/
theorem interestTotal_le (h : ∀ b ∈ bs, interestTotal b.payments ≤ b.interest.toNat) :
    interestTotal (payments bs) ≤ (bs.map fun b => b.interest.toNat).sum := by
  induction bs with
  | nil => simp [payments, interestTotal]
  | cons b rest ih =>
      have hone := h b List.mem_cons_self
      have hrest := ih fun b' hb' => h b' (List.mem_cons_of_mem _ hb')
      rw [show payments (b :: rest) = b.payments ++ payments rest from rfl, interestTotal_append,
        List.map_cons, List.sum_cons]
      omega

/-- The first of the bills that go through go through alone. -/
theorem Settles.of_append (h : Settles s (bs ++ bs'))
    (hparts : ∀ b ∈ bs', interestTotal b.payments ≤ b.interest.toNat) : Settles s bs := by
  refine ⟨fun p hp => ?_, fun key => ?_, fun key => ?_, ?_⟩
  · obtain ⟨m, hm, hcovers⟩ := h.mandate p (by simp [hp])
    rw [payments_append] at hcovers
    exact ⟨m, hm, hcovers.of_append⟩
  · have hreserved := h.reserved key
    rw [payments_append, freedTo_append] at hreserved
    omega
  · have havailable := h.available key
    rw [payments_append, creditedTo_append] at havailable
    omega
  · have hreserve := h.reserve
    have hle := interestTotal_le hparts
    rw [payments_append, interestTotal_append, List.map_append, List.sum_append] at hreserve
    omega

end Settling

/-! ### One liquidation -/

section Liquidation

variable {l : Loan} {s s' : State} {id : String} {due price : UInt64} {b : Bill}

theorem payments_single (b : Bill) : payments [b] = b.payments := by
  simp [payments]

theorem freedTo_payments (s : State) (key : String) (b : Bill) :
    s.freedTo key b.payments = lentBy key s.freedBy b.loan.tranches := by
  unfold State.freedTo Bill.payments lentBy
  rw [List.map_map]
  rfl

theorem creditedTo_payments (s : State) (key : String) (b : Bill) :
    s.creditedTo key b.payments =
      lentBy key (fun t => b.loan.part b.interest t + s.freedBy t) b.loan.tranches := by
  unfold State.creditedTo Bill.payments lentBy
  rw [List.map_map]
  rfl

theorem interestTotal_payments (b : Bill) :
    interestTotal b.payments = b.loan.parts b.interest b.loan.tranches := by
  unfold interestTotal Bill.payments Loan.parts
  rw [List.map_map]
  rfl

/-- Of tranches drawn on mandates of their own, one counts. -/
theorem sum_own {ts : List Tranche} (hnodup : (ts.map Tranche.mandateID).Nodup) {t : Tranche}
    (ht : t ∈ ts) (f : Tranche → Nat) :
    (ts.map fun t' => if t'.mandateID = t.mandateID then f t' else 0).sum = f t := by
  induction ts with
  | nil => simp at ht
  | cons t' rest ih =>
      rw [List.map_cons, List.nodup_cons] at hnodup
      rw [List.map_cons, List.sum_cons]
      rcases List.mem_cons.mp ht with rfl | ht
      · have hrest :
            (rest.map fun t' => if t'.mandateID = t.mandateID then f t' else 0).sum = 0 := by
          refine List.sum_eq_zero fun n hn => ?_
          obtain ⟨u, hu, rfl⟩ := List.mem_map.mp hn
          have hne : u.mandateID ≠ t.mandateID := fun heq =>
            hnodup.1 (heq ▸ List.mem_map_of_mem hu)
          exact if_neg hne
        rw [if_pos rfl, hrest, Nat.add_zero]
      · have hne : t'.mandateID ≠ t.mandateID := fun heq =>
          hnodup.1 (heq ▸ List.mem_map_of_mem ht)
        rw [if_neg hne, ih hnodup.2 ht, Nat.zero_add]

theorem sums_payments (hnodup : (b.loan.tranches.map Tranche.mandateID).Nodup) {t : Tranche}
    (ht : t ∈ b.loan.tranches) :
    principalOn t.mandateID b.payments = t.principal.toNat ∧
      interestOn t.mandateID b.payments = b.loan.part b.interest t := by
  unfold principalOn interestOn Bill.payments
  rw [List.map_map, List.map_map]
  exact ⟨sum_own hnodup ht fun t => t.principal.toNat, sum_own hnodup ht (b.loan.part b.interest)⟩

/-- One bill goes through exactly where the repayment of its loan does. -/
theorem settles_single (hl : b.loan.Funded) :
    Settles s [b] ↔ Settleable s b.loan b.interest := by
  have hsums := fun t ht => @sums_payments b hl.nodup t ht
  constructor
  · rintro ⟨hmandate, hreserved, havailable, hreserve⟩
    simp only [payments_single, freedTo_payments, creditedTo_payments, interestTotal_payments,
      List.map_cons, List.map_nil, List.sum_cons, List.sum_nil, Nat.add_zero] at *
    refine ⟨fun t ht => ?_, hreserved, havailable, hreserve⟩
    obtain ⟨m, hm, hcovers⟩ := hmandate ⟨t, b.loan.part b.interest t⟩ (List.mem_map_of_mem ht)
    have hallocated := hcovers.allocated
    have hroom := hcovers.available
    have hearned := hcovers.earned
    simp only [(hsums t ht).1, (hsums t ht).2] at hallocated hroom hearned
    exact ⟨m, hm, hallocated, hroom, hearned⟩
  · rintro ⟨hmandate, hreserved, havailable, hreserve⟩
    refine ⟨?_, ?_, ?_, ?_⟩
    · rw [payments_single]
      rintro p hp
      obtain ⟨t, ht, rfl⟩ := List.mem_map.mp hp
      obtain ⟨m, hm, hallocated, hroom, hearned⟩ := hmandate t ht
      refine ⟨m, hm, ?_, ?_, ?_⟩
      · rwa [(hsums t ht).1]
      · rwa [(hsums t ht).1]
      · rwa [(hsums t ht).2]
    · simpa only [payments_single, freedTo_payments] using hreserved
    · simpa only [payments_single, creditedTo_payments] using havailable
    · simpa [payments_single, interestTotal_payments] using hreserve

theorem settleable_iff {interest : UInt64} (hl : l.Funded) :
    (∃ s', distributeRepayment s l interest = .ok s') ↔ Settleable s l interest := by
  refine ⟨?_, distributeRepayment_settles hl⟩
  rintro ⟨s', hs'⟩
  have hexact := distributeRepayment_exact hl hs'
  refine ⟨fun t ht => ?_, fun key => ?_, fun key => ?_, ?_⟩
  · obtain ⟨m, m', hm, _, hpaid⟩ := hexact.mandate t ht
    refine ⟨m, hm, ?_, ?_, ?_⟩
    · rw [hpaid.allocated]
      exact Nat.le_add_left _ _
    · rw [← hpaid.available]
      exact m'.available.toNat_lt
    · rw [← hpaid.earned]
      exact m'.interestEarned.toNat_lt
  · rw [(hexact.account key).reserved]
    exact Nat.le_add_left _ _
  · rw [← (hexact.account key).available]
    exact (s'.accountAt key).balances.usdt0.available.toNat_lt
  · have hreserve := hexact.reserve
    have hlt := s'.protocolReserve.toNat_lt
    omega

/-- The distribution makes the lenders known, if they were not, and nobody else. -/
theorem distributeRepayment_present {interest : UInt64}
    (h : distributeRepayment s l interest = .ok s') (key : String) :
    s'.accounts[key]? = none ↔
      s.accounts[key]? = none ∧ ∀ t ∈ l.tranches, toLower t.lender ≠ key := by
  have hloop : ∀ (ts : List Tranche) (d d' : Distribution),
      ts.foldlM (payTranche l interest) d = .ok d' → (d'.state.accounts[key]? = none ↔
        d.state.accounts[key]? = none ∧ ∀ t ∈ ts, toLower t.lender ≠ key) := by
    intro ts
    induction ts with
    | nil =>
        intro d d' hd
        cases hd
        simp
    | cons t rest ih =>
        intro d d' hd
        rw [List.foldlM_cons, bind_eq_ok] at hd
        obtain ⟨d₁, hfirst, hrest⟩ := hd
        obtain ⟨m, m', lb', li, hpaid⟩ := payTranche_ok hfirst
        rw [ih d₁ d' hrest, hpaid.state]
        show (State.putAccount d.state t.lender _).accounts[key]? = none ∧ _ ↔ _
        rw [putAccount_accounts_get]
        by_cases hkey : toLower t.lender = key
        · simp [hkey]
        · simp [hkey]
  unfold distributeRepayment at h
  simp only [bind_eq_ok, rejectIf_eq_ok, answering_eq_ok, checkedSub_eq_ok, checkedAdd_eq_ok,
    not_not] at h
  obtain ⟨d, hd, _, _, _, _, _, _, hs'⟩ := h
  cases hs'
  exact hloop _ _ _ hd

/-- What a repayment leaves is what settling the bill leaves. -/
theorem Mandate.PaidBack.paidBy (hnodup : (b.loan.tranches.map Tranche.mandateID).Nodup)
    {t : Tranche} (ht : t ∈ b.loan.tranches) {m m' : Mandate}
    (h : m.PaidBack t (b.loan.part b.interest t) m') : m.PaidBy b.payments t.mandateID m' := by
  obtain ⟨hprincipal, hinterest⟩ := sums_payments hnodup ht
  refine ⟨?_, ?_, ?_, ?_, ?_⟩
  · rw [hprincipal]
    exact h.available
  · rw [hprincipal]
    exact h.allocated
  · rw [hinterest]
    exact h.earned
  · have hothers := h.others
    unfold Mandate.retireIfEmpty at hothers
    split at hothers
    · have hactive : m'.active = false := by rw [hothers]
      rw [hactive]
      exact hothers
    · have hactive : m'.active = m.active := by rw [hothers]
      rw [hactive]
      exact hothers
  · have htouched : ∃ p ∈ b.payments, p.tranche.mandateID = t.mandateID :=
      ⟨_, List.mem_map_of_mem ht, rfl⟩
    simp only [htouched, true_imp_iff]
    conv_lhs => rw [h.others]
    rw [retireIfEmpty_active]
    refine and_congr_right fun _ => ?_
    unfold Mandate.liquidity
    rw [← not_and_or, ← UInt64.toNat_inj, ← UInt64.toNat_inj (a := m'.allocatedPrincipal)]
    simp

/-- The distribution settles the bill as far as the lenders and the reserve go. -/
theorem mandates_settled (hl : b.loan.Funded) {s₀ : State}
    (h : RepaidExactly b.loan b.interest s₀ s') :
    Pointwise (Mandate.PaidBy b.payments) s₀.mandates s'.mandates ∧
      ∀ p ∈ b.payments, ∃ m, s₀.mandates[p.tranche.mandateID]? = some m := by
  refine ⟨fun id => ?_, fun p hp => ?_⟩
  · by_cases hid : id ∈ b.loan.tranches.map Tranche.mandateID
    · obtain ⟨t, ht, rfl⟩ := List.mem_map.mp hid
      obtain ⟨m, m', hm, hm', hpaid⟩ := h.mandate t ht
      rw [hm, hm']
      exact Option.Rel.some (hpaid.paidBy hl.nodup ht)
    · have hspared : ¬ ∃ p ∈ b.payments, p.tranche.mandateID = id := by
        rintro ⟨p, hp, hsame⟩
        obtain ⟨t, ht, rfl⟩ := List.mem_map.mp hp
        exact hid (hsame ▸ List.mem_map_of_mem ht)
      rw [h.otherMandates id hid]
      cases s₀.mandates[id]? with
      | none => exact Option.Rel.none
      | some m =>
          obtain ⟨hprincipal, hinterest⟩ := Mandate.PaidBy.sums_eq_zero hspared
          exact Option.Rel.some ⟨by simp [hprincipal], by simp [hprincipal], by simp [hinterest],
            rfl, by simp [hspared]⟩
  · obtain ⟨t, ht, rfl⟩ := List.mem_map.mp hp
    obtain ⟨m, _, hm, _⟩ := h.mandate t ht
    exact ⟨m, hm⟩

/-- The borrower's account with the collateral released, all but what is seized. -/
def seizedAccount (s : State) (b : Bill) (seize : UInt64) : Account :=
  { s.account b.loan.borrower with
    balances := (s.account b.loan.borrower).balances.set .fxrp
      { available := (s.account b.loan.borrower).balances.fxrp.available +
          (b.loan.collateralFXRP - seize)
        reserved := (s.account b.loan.borrower).balances.fxrp.reserved - b.loan.collateralFXRP } }

/-- The state that `liquidateInState` distributes the debt in. -/
def seizedState (s : State) (b : Bill) (seize : UInt64) : State :=
  { s with
    backstopUSDT0 := s.backstopUSDT0 - b.due
    backstopFXRP := s.backstopFXRP + seize }.putAccount b.loan.borrower (seizedAccount s b seize)

theorem seizedState_accountAt (s : State) (b : Bill) (seize : UInt64) (key : String) :
    (seizedState s b seize).accountAt key =
      if toLower b.loan.borrower = key then seizedAccount s b seize else s.accountAt key := by
  unfold seizedState
  rw [accountAt_putAccount]
  rfl

/-- Of one bill, the borrower is given back what is not seized. -/
theorem givenBack_own (price : UInt64) (b : Bill) :
    givenBack price (toLower b.loan.borrower) [b] =
      b.loan.collateralFXRP.toNat - b.seized price := by
  unfold givenBack
  rw [List.map_singleton, List.sum_singleton, if_pos rfl]

theorem pledgedBy_own (b : Bill) :
    pledgedBy (toLower b.loan.borrower) [b] = b.loan.collateralFXRP.toNat := by
  unfold pledgedBy
  rw [List.map_singleton, List.sum_singleton, if_pos rfl]

/-- Seizing, distributing and clearing the loan settle the borrower's account, and the others. -/
theorem account_settled {taken : UInt64} (htaken : taken.toNat = b.seized price) {s₁ : State}
    (hexact : RepaidExactly b.loan b.interest (seizedState s b taken) s₁) (key : String) :
    Account.SettledBy s price [b] key (s.accountAt key) ((s₁.putAccount b.loan.borrower
      { s₁.account b.loan.borrower with loanID := "" }).accountAt key) := by
  have hreceived := hexact.account key
  have hothers := hreceived.others
  have havailable : (s₁.accountAt key).balances.usdt0.available.toNat =
      ((seizedState s b taken).accountAt key).balances.usdt0.available.toNat +
        s.creditedTo key (payments [b]) := by
    rw [payments_single, creditedTo_payments]
    exact hreceived.available
  have hreserved : ((seizedState s b taken).accountAt key).balances.usdt0.reserved.toNat =
      (s₁.accountAt key).balances.usdt0.reserved.toNat + s.freedTo key (payments [b]) := by
    rw [payments_single, freedTo_payments]
    exact hreceived.reserved
  have hfxrp : (s₁.accountAt key).balances.fxrp =
      ((seizedState s b taken).accountAt key).balances.fxrp := by
    rw [hothers]
    rfl
  have howner : (s₁.accountAt key).owner = ((seizedState s b taken).accountAt key).owner := by
    rw [hothers]
  have hnonce : (s₁.accountAt key).nonce = ((seizedState s b taken).accountAt key).nonce := by
    rw [hothers]
  have hloanID : (s₁.accountAt key).loanID = ((seizedState s b taken).accountAt key).loanID := by
    rw [hothers]
  rw [seizedState_accountAt] at havailable hreserved hfxrp howner hnonce hloanID
  rw [accountAt_putAccount]
  by_cases hkey : toLower b.loan.borrower = key
  · have hleft : (b.loan.collateralFXRP - taken) =
        UInt64.ofNat (b.loan.collateralFXRP.toNat - b.seized price) := by
      have hle : taken.toNat ≤ b.loan.collateralFXRP.toNat := htaken ▸ Nat.min_le_right _ _
      rw [← htaken, ← UInt64.toNat_sub_of_le _ _ (UInt64.le_iff_toNat_le.mpr hle),
        UInt64.ofNat_toNat]
    rw [if_pos hkey] at havailable hreserved hfxrp howner hnonce
    rw [if_pos hkey]
    rw [← hkey, ← account_eq] at havailable hreserved hfxrp howner hnonce ⊢
    refine ⟨havailable, hreserved, ?_, ?_, fun _ => rfl, fun hnone => ?_, howner, hnonce⟩
    · show (s₁.account b.loan.borrower).balances.fxrp.available = _
      rw [hfxrp, givenBack_own, ← hleft]
      rfl
    · show (s₁.account b.loan.borrower).balances.fxrp.reserved = _
      rw [hfxrp, pledgedBy_own, UInt64.ofNat_toNat]
      rfl
    · exact absurd ⟨b, List.mem_singleton_self b, rfl⟩ hnone
  · rw [if_neg hkey] at havailable hreserved hfxrp howner hnonce hloanID
    rw [if_neg hkey]
    refine ⟨havailable, hreserved, ?_, ?_, fun hsome => ?_, fun _ => hloanID, howner, hnonce⟩
    · rw [hfxrp]
      simp [givenBack, hkey]
    · rw [hfxrp]
      simp [pledgedBy, hkey]
    · simp [hkey] at hsome

/-- With the bill written and the backstop able to pay it, a liquidation seizes and distributes. -/
theorem liquidateInState_bill (hterms : b.loan.SameTerms l) (hdue : debt l = .ok b.due)
    (hback : b.due.toNat ≤ s.backstopUSDT0.toNat) :
    liquidateInState .wrapping s id l =
      (mulDivBy [b.due, scale, bps] [s.price.xrpUSDE6, 9500] false >>= fun seize =>
        distributeRepayment (seizedState s b (if seize > b.loan.collateralFXRP then
          b.loan.collateralFXRP else seize)) b.loan b.interest >>= fun s₁ =>
        .ok { (s₁.putAccount b.loan.borrower
            { s₁.account b.loan.borrower with loanID := "" }).putLoan id
              { l with status := .liquidated } with
            activeDebt := s₁.activeDebt - b.loan.principal }) := by
  have hprincipal : b.loan.principal.toNat ≤ b.due.toNat :=
    hterms.principal ▸ principal_le_debt hdue
  have hdistribute : ∀ s i, distributeRepayment s l i = distributeRepayment s b.loan i := by
    intro s i
    have hshare : trancheInterest l i = trancheInterest b.loan i := by
      funext t
      unfold trancheInterest
      rw [hterms.principal, hterms.borrowerAPRBPS]
    have hpay : payTranche l i = payTranche b.loan i := by
      funext d t
      unfold payTranche
      rw [hshare]
    unfold distributeRepayment
    rw [hterms.tranches, hterms.principal, hpay]
  unfold liquidateInState
  rw [hdue, ok_bind, rejectIf_of_not (UInt64.not_lt.mpr (UInt64.le_iff_toNat_le.mpr hback)),
    ok_bind]
  simp only [Arith.sub, Arith.add, ok_bind, checkedSub_ok hprincipal, hdistribute,
    hterms.principal, hterms.collateralFXRP, hterms.borrower]
  rfl

theorem capped_toNat {seize : UInt64} (hseize : seize.toNat = b.cover price) :
    (if seize > b.loan.collateralFXRP then b.loan.collateralFXRP else seize).toNat =
      b.seized price := by
  unfold Bill.seized
  rw [← hseize, apply_ite UInt64.toNat]
  simp only [gt_iff_lt, UInt64.lt_iff_toNat_lt]
  split <;> omega

theorem cover_eq {seize : UInt64}
    (h : mulDivBy [b.due, scale, bps] [price, 9500] false = .ok seize) :
    seize.toNat = b.cover price := by
  rw [mulDivBy_floor h, prod_three, prod_two]
  rfl

/-- **A liquidation settles its bill.** -/
theorem liquidateInState_settled (hl : b.loan.Funded) (hterms : b.loan.SameTerms l)
    (hdue : debt l = .ok b.due) (hback : b.due.toNat ≤ s.backstopUSDT0.toNat)
    (h : liquidateInState .wrapping s id l = .ok s') :
    BillsSettled s.price.xrpUSDE6 [b] s s' ∧
      s'.loans = s.loans.insert id { l with status := .liquidated } := by
  rw [liquidateInState_bill hterms hdue hback] at h
  obtain ⟨seize, hseize, h⟩ := bind_eq_ok.mp h
  obtain ⟨s₁, hdist, h⟩ := bind_eq_ok.mp h
  have hcapped := capped_toNat (cover_eq hseize)
  generalize (if seize > b.loan.collateralFXRP then b.loan.collateralFXRP else seize) = taken
    at hcapped hdist
  have hpresent := distributeRepayment_present hdist
  have hexact := distributeRepayment_exact hl hdist
  have hframe := hexact.frame
  obtain ⟨hmandates, hfound⟩ := mandates_settled hl hexact
  obtain rfl := Except.ok.inj h
  refine ⟨⟨?_, fun key => ?_, fun key => ?_, ?_, ?_, ?_, ?_, ?_, ?_⟩, ?_⟩
  · rw [hframe]
    rfl
  · exact account_settled hcapped hexact key
  · show (s₁.putAccount b.loan.borrower _).accounts[key]? = none ↔ _
    rw [putAccount_accounts_get]
    by_cases hkey : toLower b.loan.borrower = key
    · simp [hkey, Bill.Touches]
    · rw [if_neg hkey, hpresent]
      unfold seizedState
      rw [putAccount_accounts_get, if_neg hkey]
      simp [hkey, Bill.Touches]
  · rw [payments_single]
    exact hmandates
  · rw [payments_single]
    exact hfound
  · have hreserve : s₁.protocolReserve.toNat + b.loan.parts b.interest b.loan.tranches =
        s.protocolReserve.toNat + b.interest.toNat := hexact.reserve
    rw [payments_single, interestTotal_payments]
    simpa using hreserve
  · show _ = s₁.backstopUSDT0.toNat + _
    have hrest : s₁.backstopUSDT0 = s.backstopUSDT0 - b.due := by
      rw [hframe]
      rfl
    rw [hrest, UInt64.toNat_sub_of_le _ _ (UInt64.le_iff_toNat_le.mpr hback)]
    simp
    omega
  · show s₁.backstopFXRP = _
    have hrest : s₁.backstopFXRP = s.backstopFXRP + taken := by
      rw [hframe]
      rfl
    rw [hrest, List.map_singleton, List.sum_singleton, ← hcapped, UInt64.ofNat_toNat]
  · show s₁.activeDebt - _ = _
    have hrest : s₁.activeDebt = s.activeDebt := by
      rw [hframe]
      rfl
    rw [hrest, List.map_singleton, List.sum_singleton, UInt64.ofNat_toNat]
  · show s₁.loans.insert id _ = _
    rw [hframe]
    rfl

/-- Seizing the collateral leaves what the distribution asks for. -/
theorem settleable_seizedState {taken : UInt64} :
    Settleable (seizedState s b taken) b.loan b.interest ↔ Settleable s b.loan b.interest := by
  have husdt0 : ∀ key, ((seizedState s b taken).accountAt key).balances.usdt0 =
      (s.accountAt key).balances.usdt0 := by
    intro key
    rw [seizedState_accountAt]
    by_cases hkey : toLower b.loan.borrower = key
    · rw [if_pos hkey, ← hkey, ← account_eq]
      rfl
    · rw [if_neg hkey]
  constructor
  · rintro ⟨hmandate, hreserved, havailable, hreserve⟩
    simp only [husdt0] at hreserved havailable
    exact ⟨hmandate, hreserved, havailable, hreserve⟩
  · rintro ⟨hmandate, hreserved, havailable, hreserve⟩
    simp only [← husdt0] at hreserved havailable
    exact ⟨hmandate, hreserved, havailable, hreserve⟩

/-- **A liquidation goes through exactly when its bill does**, and what it seizes fits a word. -/
theorem liquidateInState_iff (hl : b.loan.Funded) (hterms : b.loan.SameTerms l)
    (hdue : debt l = .ok b.due) (hback : b.due.toNat ≤ s.backstopUSDT0.toNat)
    (hprice : s.price.xrpUSDE6 ≠ 0) :
    (∃ s', liquidateInState .wrapping s id l = .ok s') ↔
      b.cover s.price.xrpUSDE6 < 2 ^ 64 ∧ Settles s [b] := by
  rw [settles_single hl]
  constructor
  · rintro ⟨s', h⟩
    rw [liquidateInState_bill hterms hdue hback] at h
    obtain ⟨seize, hseize, h⟩ := bind_eq_ok.mp h
    obtain ⟨s₁, hdist, h⟩ := bind_eq_ok.mp h
    exact ⟨cover_eq hseize ▸ seize.toNat_lt,
      settleable_seizedState.mp ((settleable_iff hl).mp ⟨s₁, hdist⟩)⟩
  · rintro ⟨hcover, hsettleable⟩
    obtain ⟨seize, hseize⟩ : ∃ seize, mulDivBy [b.due, scale, bps] [s.price.xrpUSDE6, 9500]
        false = .ok seize := by
      refine ⟨_, mulDivBy_ok (by simp [Ne.symm hprice]) ?_⟩
      rw [prod_three, prod_two]
      exact hcover
    obtain ⟨s₁, hdist⟩ : ∃ s₁, distributeRepayment (seizedState s b (if seize > b.loan.collateralFXRP
        then b.loan.collateralFXRP else seize)) b.loan b.interest = .ok s₁ :=
      (settleable_iff hl).mpr (settleable_seizedState.mpr hsettleable)
    rw [liquidateInState_bill hterms hdue hback, hseize, ok_bind, hdist, ok_bind]
    exact ⟨_, rfl⟩

end Liquidation

end QuietLine
