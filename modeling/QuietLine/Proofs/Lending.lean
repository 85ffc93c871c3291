/-
Lending and repayment keep the books.

`AcceptQuote` opens a loan: collateral is reserved, principal leaves the ledger and
becomes debt.  `Repay` and `Liquidate` close one: the debt is paid, by the borrower
in one and by the backstop in the other, what was lent goes back to the mandates,
and the interest to lenders and reserve.  `RiskTick` is a sequence of liquidations.
-/
import QuietLine.Proofs.Backing

namespace QuietLine

open Outcome MapSum MapRel Std

section Lending

variable {host : Host} {ctx : Context} {s s' : State} {owner id : String} {n : Nat}
  {amount : UInt64}

/-! ### Opening -/

theorem acceptQuote_books {q : Quote} {loanID : String} {observed : Option Price} (h : Backed s)
    (hid : loanID ≠ "") (hfresh : s.loans[loanID]? = none)
    (hop : acceptQuote .trapping host ctx q loanID n observed s = .ok s') :
    Backed s' ∧ Moved s s' (-q.amount.toNat) 0 := by
  obtain ⟨_, ho⟩ := acceptQuote_opening hop
  have hpointed := h.pointed.opening ho hid hfresh
  have howner := account_owner h.pointed.wellformed q.borrower
  obtain ⟨_, _, _, _, fxrp', s₁, l, activeDebt, price, hav, hres, hall, hterms, hopen, hdebt, hs'⟩ :=
    acceptQuote_ok hop
  have hres' := Arith.trapping_add_eq_ok.mp hres
  have hframe := hall.frame
  have hloans : s₁.loans = s.loans := by rw [hframe]
  let a : Account := { s.account q.borrower with
    nonce := (s.account q.borrower).nonce + 1
    balances := (s.account q.borrower).balances.set .fxrp fxrp'
    loanID }
  have haccounts : s'.accounts = (s.putAccount q.borrower a).accounts := by
    rw [hs']
    show s₁.accounts.insert _ _ = s.accounts.insert _ _
    rw [hframe]
  have hdebt' : s'.activeDebt.toNat = s.activeDebt.toNat + q.amount.toNat := by
    rw [hs']
    exact hdebt
  refine ⟨h.funded (l := l) hpointed ⟨hfresh, hopen, ?_, ?_, ?_, ?_, ?_⟩, ?_⟩
  · rw [hs']
    show s₁.loans.insert _ _ = _
    rw [hloans]
  · rw [hterms.tranches, hs']
    exact hall.mandates
  · intro key
    rw [accountAt_congr haccounts, accountAt_putAccount]
    by_cases hkey : toLower q.borrower = key
    · rw [if_pos hkey, ← hkey]
      rfl
    · rw [if_neg hkey]
  · rw [hterms.principal]
    exact hdebt'
  · intro key
    rw [accountAt_congr haccounts, accountAt_putAccount, hterms.borrower, hterms.collateralFXRP]
    show _ = _ + if (s.account q.borrower).owner = key then q.collateralFXRP.toNat else 0
    rw [howner]
    by_cases hkey : toLower q.borrower = key
    · rw [if_pos hkey, if_pos hkey, ← hkey, ← account_eq]
      exact hres'
    · rw [if_neg hkey, if_neg hkey, Nat.add_zero]
  · have hreserve : s'.protocolReserve = s.protocolReserve := by
      rw [hs']
      show s₁.protocolReserve = _
      rw [hframe]
    have hbackstop : s'.backstopUSDT0 = s.backstopUSDT0 := by
      rw [hs']
      show s₁.backstopUSDT0 = _
      rw [hframe]
    have hbackstop' : s'.backstopFXRP = s.backstopFXRP := by
      rw [hs']
      show s₁.backstopFXRP = _
      rw [hframe]
    have hclaims := claimsUSDT0_put haccounts hreserve hbackstop
    have hclaims' := claimsFXRP_put haccounts hbackstop'
    have husdt0 : a.usdt0Held = (s.account q.borrower).usdt0Held := rfl
    have hfxrp : a.fxrpHeld = (s.account q.borrower).fxrpHeld := by
      show fxrp'.available.toNat + fxrp'.reserved.toNat = _
      unfold Account.fxrpHeld
      omega
    exact ⟨by omega, by omega, by omega⟩

/-! ### Closing -/

/-- From `s` to `s'` the loan `l` of `payer` was repaid with `interest` on top of its principal,
on terms `l₁` that have accrued.  First the account of `payer` is written (`s₀`), then the payments
are made (`s₁`), and then the account is written again, its collateral released. -/
structure Repayment (s s₀ s₁ s' : State) (payer id : String) (l l₁ : Loan) (a₀ a₁ : Account)
    (interest : UInt64) : Prop where
  found : s.loans[id]? = some l
  terms : l.SameTerms l₁
  paid : s₀.accounts = (s.putAccount payer a₀).accounts ∧ s₀.mandates = s.mandates
  payer_reserved : a₀.balances.usdt0.reserved = (s.account payer).balances.usdt0.reserved
  distributed : RepaymentDistributed l₁ interest s₀ s₁
  freed : s'.accounts = (s₁.putAccount payer a₁).accounts ∧ s'.mandates = s₁.mandates
  same_usdt0 : a₁.balances.usdt0 = (s₁.account payer).balances.usdt0
  reserve : s'.protocolReserve = s₁.protocolReserve
  backstop : s'.backstopUSDT0 = s₁.backstopUSDT0 ∧ s'.backstopFXRP = s₁.backstopFXRP
  closed : ∃ l', l'.isOpen = false ∧ s'.loans = s.loans.insert id l'
  debt : s.activeDebt.toNat = l.principal.toNat + s'.activeDebt.toNat
  collateral : (s.account payer).balances.fxrp.reserved.toNat =
    a₁.balances.fxrp.reserved.toNat + l.collateralFXRP.toNat

variable {s₀ s₁ : State} {payer : String} {l l₁ : Loan} {a₀ a₁ : Account} {interest : UInt64}

/-- Everybody but the payer is credited, if touched at all. -/
theorem Repayment.others (hr : Repayment s s₀ s₁ s' payer id l l₁ a₀ a₁ interest) {key : String}
    (hkey : toLower payer ≠ key) : (s.accountAt key).Credited (s'.accountAt key) := by
  have hpaid := hr.distributed.accounts key
  rw [accountAt_congr hr.paid.1, accountAt_putAccount, if_neg hkey] at hpaid
  rw [accountAt_congr hr.freed.1, accountAt_putAccount, if_neg hkey]
  exact hpaid

theorem Repayment.settled (hr : Repayment s s₀ s₁ s' payer id l l₁ a₀ a₁ interest)
    (h : Backed s) (hopen : l.isOpen = true) (hpayer : toLower payer = l.borrower) :
    LoanSettled s s' id l := by
  have hformed := (h.pointed.wellformed.loan id l hr.found).2
  obtain ⟨haccounts, hmandates⟩ := hr.paid
  obtain ⟨haccounts', hmandates'⟩ := hr.freed
  have hagree : LendersAgree s₀ l₁.tranches := by
    rw [hr.terms.tranches]
    intro t ht m hm
    rw [hmandates] at hm
    exact hformed.lendersAgree h.pointed.wellformed t ht m hm
  refine ⟨hr.found, hopen, hr.closed, ?_, ?_, hr.debt, ?_⟩
  · have hrepaid := hr.distributed.mandates
    rw [hmandates, hr.terms.tranches] at hrepaid
    rw [hmandates']
    exact hrepaid
  · intro key
    -- the payer's own reserved balance is written twice, to what it was
    have hfirst : (s₀.accountAt key).balances.usdt0.reserved =
        (s.accountAt key).balances.usdt0.reserved := by
      rw [accountAt_congr haccounts, accountAt_putAccount]
      by_cases hkey : toLower payer = key
      · rw [if_pos hkey, hr.payer_reserved, account_eq, hkey]
      · rw [if_neg hkey]
    have hlast : (s'.accountAt key).balances.usdt0.reserved =
        (s₁.accountAt key).balances.usdt0.reserved := by
      rw [accountAt_congr haccounts', accountAt_putAccount]
      by_cases hkey : toLower payer = key
      · rw [if_pos hkey, hr.same_usdt0, account_eq, hkey]
      · rw [if_neg hkey]
    have hmoved := hr.distributed.reserved hagree key
    rw [hfirst, backing_congr hmandates] at hmoved
    rw [hlast, backing_congr hmandates']
    exact hmoved
  · intro key
    by_cases hkey : toLower payer = key
    · rw [if_pos (hpayer.symm.trans hkey), accountAt_congr haccounts', accountAt_putAccount,
        if_pos hkey, ← hkey, ← account_eq]
      exact hr.collateral
    · rw [if_neg fun h0 => hkey (hpayer.trans h0), (hr.others hkey).fxrp, Nat.add_zero]

/-- What the ledger owes after a repayment. -/
theorem Repayment.claims (hr : Repayment s s₀ s₁ s' payer id l l₁ a₀ a₁ interest) :
    s'.claimsUSDT0 = s₀.claimsUSDT0 + interest.toNat ∧
      s'.claimsFXRP + (s₁.account payer).fxrpHeld = s₀.claimsFXRP + a₁.fxrpHeld := by
  obtain ⟨hclaims, hclaims'⟩ := hr.distributed.claims
  have hlast := claimsUSDT0_put hr.freed.1 hr.reserve hr.backstop.1
  have hlast' := claimsFXRP_put hr.freed.1 hr.backstop.2
  have hheld : a₁.usdt0Held = (s₁.account payer).usdt0Held := by
    unfold Account.usdt0Held
    rw [hr.same_usdt0]
  omega

theorem repay_repayment (hop : repay .trapping ctx owner amount id n s = .ok s') :
    ∃ l l₁ a₀ s₁ a₁ interest due,
      Repayment s (s.putAccount owner a₀) s₁ s' owner (s.account owner).loanID l l₁ a₀ a₁ interest ∧
      due = l.principal.toNat + interest.toNat ∧
      (s.account owner).usdt0Held = a₀.usdt0Held + due ∧
      a₀.balances.fxrp = (s.account owner).balances.fxrp ∧
      a₁.fxrpHeld = (s₁.account owner).fxrpHeld := by
  obtain ⟨_, _, l, l₁, due, interest, usdt0', s₁, fxrp', activeDebt, hl, hacc, _, _, hdue, hav, hres,
    hdist, hfx, hfx', hdebt, hs'⟩ := repay_ok hop
  obtain ⟨hterms, _⟩ := accrue_sameTerms hacc
  have hfx := Arith.trapping_sub_eq_ok.mp hfx
  have hfx' := Arith.trapping_add_eq_ok.mp hfx'
  have hdebt := Arith.trapping_sub_eq_ok.mp hdebt
  have hframe := hdist.frame
  rw [hterms.principal] at hdue hdebt
  rw [hterms.collateralFXRP] at hfx hfx'
  have hsame : (s₁.account owner).balances.fxrp = (s.account owner).balances.fxrp := by
    rw [account_eq, (hdist.accounts (toLower owner)).fxrp, accountAt_putAccount, if_pos rfl]
    rfl
  have hdebt₁ : s₁.activeDebt = s.activeDebt := by rw [hframe]; rfl
  refine ⟨l, l₁, _, s₁, { s₁.account owner with
    balances := (s₁.account owner).balances.set .fxrp fxrp', loanID := "" }, interest, due.toNat,
    ⟨hl, hterms, ⟨rfl, rfl⟩, hres, hdist, ?_, rfl, ?_, ?_, ?_, ?_, ?_⟩, hdue, ?_, rfl, ?_⟩
  · rw [hs']
    exact ⟨rfl, rfl⟩
  · rw [hs']
    rfl
  · rw [hs']
    exact ⟨rfl, rfl⟩
  · refine ⟨{ l₁ with status := .closed }, rfl, ?_⟩
    rw [hs']
    show s₁.loans.insert _ _ = _
    rw [hframe]
    rfl
  · rw [hs', ← hdebt₁]
    show _ = _ + activeDebt.toNat
    omega
  · rw [← hsame]
    show _ = fxrp'.reserved.toNat + _
    omega
  · show _ = usdt0'.available.toNat + usdt0'.reserved.toNat + _
    rw [hres]
    unfold Account.usdt0Held
    omega
  · show fxrp'.available.toNat + fxrp'.reserved.toNat = _
    unfold Account.fxrpHeld
    omega

theorem liquidateInState_repayment {l : Loan} (hl : s.loans[id]? = some l)
    (hop : liquidateInState .trapping s id l = .ok s') :
    ∃ a₀ s₀ s₁ a₁ interest due seize,
      Repayment s s₀ s₁ s' l.borrower id l l a₀ a₁ interest ∧
      due = l.principal.toNat + interest.toNat ∧
      s₀.protocolReserve = s.protocolReserve ∧
      s.backstopUSDT0.toNat = s₀.backstopUSDT0.toNat + due ∧
      s₀.backstopFXRP.toNat = s.backstopFXRP.toNat + seize ∧
      a₀.usdt0Held = (s.account l.borrower).usdt0Held ∧
      (s.account l.borrower).fxrpHeld = a₀.fxrpHeld + seize ∧
      a₁.fxrpHeld = (s₁.account l.borrower).fxrpHeld := by
  obtain ⟨due, interest, seize, backstopUSDT0, backstopFXRP, freed, fxrp', s₁, activeDebt, _, hdue,
    hback, hfreed, hbackfx, hfx, hfx', hdist, hdebt, hs'⟩ := liquidateInState_ok hop
  have hbackfx := Arith.trapping_add_eq_ok.mp hbackfx
  have hfx := Arith.trapping_sub_eq_ok.mp hfx
  have hfx' := Arith.trapping_add_eq_ok.mp hfx'
  have hdebt := Arith.trapping_sub_eq_ok.mp hdebt
  have hframe := hdist.frame
  have hdebt₁ : s₁.activeDebt = s.activeDebt := by rw [hframe]; rfl
  have hsame : (s₁.account l.borrower).balances.fxrp = fxrp' := by
    rw [account_eq, (hdist.accounts (toLower l.borrower)).fxrp, accountAt_putAccount, if_pos rfl]
    rfl
  let a₀ : Account := { s.account l.borrower with
    balances := (s.account l.borrower).balances.set .fxrp fxrp' }
  refine ⟨a₀, { s with backstopUSDT0, backstopFXRP }.putAccount l.borrower a₀, s₁,
    { s₁.account l.borrower with loanID := "" }, interest, due.toNat, seize.toNat,
    ⟨hl, Loan.SameTerms.refl l, ⟨rfl, rfl⟩, rfl, hdist, ?_, rfl, ?_, ?_, ?_, ?_, ?_⟩, hdue, rfl, ?_,
    hbackfx, rfl, ?_, rfl⟩
  · rw [hs']
    exact ⟨rfl, rfl⟩
  · rw [hs']
    rfl
  · rw [hs']
    exact ⟨rfl, rfl⟩
  · refine ⟨{ l with status := .liquidated }, rfl, ?_⟩
    rw [hs']
    show s₁.loans.insert _ _ = _
    rw [hframe]
    rfl
  · rw [hs', ← hdebt₁]
    show _ = _ + activeDebt.toNat
    omega
  · show _ = (s₁.account l.borrower).balances.fxrp.reserved.toNat + _
    rw [hsame]
    omega
  · show _ = backstopUSDT0.toNat + _
    omega
  · show _ = fxrp'.available.toNat + fxrp'.reserved.toNat + _
    unfold Account.fxrpHeld
    omega

theorem repay_books (h : Backed s) (hop : repay .trapping ctx owner amount id n s = .ok s') :
    Backed s' ∧ Moved s s' 0 0 := by
  obtain ⟨_, hc⟩ := repay_closing hop
  have hpointed := h.pointed.closing hc
  obtain ⟨hopen, howner, _⟩ := h.pointed.closer hc
  obtain ⟨l, l₁, a₀, s₁, a₁, interest, due, hr, hdue, hpaid, hfxrp, hheld⟩ := repay_repayment hop
  obtain rfl : _ = l := Option.some_injective _ (hc.found.symm.trans hr.found)
  refine ⟨h.settled hpointed (hr.settled h hopen howner), ?_⟩
  obtain ⟨hclaims, hclaims'⟩ := hr.claims
  have hfirst : (s.putAccount owner a₀).claimsUSDT0 + (s.account owner).usdt0Held =
      s.claimsUSDT0 + a₀.usdt0Held := claimsUSDT0_put rfl rfl rfl
  have hfirst' : (s.putAccount owner a₀).claimsFXRP + (s.account owner).fxrpHeld =
      s.claimsFXRP + a₀.fxrpHeld := claimsFXRP_put rfl rfl
  have hsame : a₀.fxrpHeld = (s.account owner).fxrpHeld := by
    unfold Account.fxrpHeld
    rw [hfxrp]
  have hdebt := hr.debt
  exact ⟨by omega, by omega, by omega⟩

theorem liquidateInState_books {l : Loan} (h : Backed s) (hl : s.loans[id]? = some l)
    (hopen : l.isOpen = true) (hop : liquidateInState .trapping s id l = .ok s') :
    Backed s' ∧ Moved s s' 0 0 := by
  have hc := liquidateInState_closing hl hopen hop
  have hpointed := h.pointed.closing hc
  obtain ⟨_, hborrower, _⟩ := h.pointed.closer hc
  obtain ⟨a₀, s₀, s₁, a₁, interest, due, seize, hr, hdue, hreserve, hback, hbackfx, husdt0, hfxrp,
    hheld⟩ := liquidateInState_repayment hl hop
  refine ⟨h.settled hpointed (hr.settled h hopen hborrower), ?_⟩
  obtain ⟨hclaims, hclaims'⟩ := hr.claims
  have hfirst : s₀.claimsUSDT0 + due = s.claimsUSDT0 := by
    have hput := totalAccounts_usdt0Held_putAccount s l.borrower a₀
    unfold State.claimsUSDT0
    rw [totalAccounts_congr hr.paid.1, hreserve]
    omega
  have hfirst' : s₀.claimsFXRP = s.claimsFXRP := by
    have hput := totalAccounts_fxrpHeld_putAccount s l.borrower a₀
    unfold State.claimsFXRP
    rw [totalAccounts_congr hr.paid.1]
    omega
  have hdebt := hr.debt
  exact ⟨by omega, by omega, by omega⟩

/-! ### The risk tick -/

theorem tickLoan_books {price : Price} (h : Backed s)
    (hop : tickLoan .trapping ctx price s id = .ok s') : Backed s' ∧ Moved s s' 0 0 := by
  rcases tickLoan_ok hop with rfl | ⟨l, l₁, hl, hopen, hterms, hopen₁, hcase⟩
  · exact ⟨h, Moved.refl s'⟩
  · have hupdate := h.putLoan hl hopen hterms hopen₁
    have hsame : Moved s (s.putLoan id l₁) 0 0 :=
      ⟨(Moved.refl s).net, (Moved.refl s).held, (Moved.refl s).bound⟩
    rcases hcase with rfl | ⟨_, hliq⟩
    · exact ⟨hupdate, hsame⟩
    · have hl₁ : (s.putLoan id l₁).loans[id]? = some l₁ := by rw [putLoan_get, if_pos rfl]
      obtain ⟨hbacked, hmoved⟩ := liquidateInState_books hupdate hl₁ hopen₁ hliq
      exact ⟨hbacked, hsame.trans hmoved⟩

/-- Figures and logs that nothing else depends on. -/
theorem Backed.of_parts (h : Backed s) (haccounts : s'.accounts = s.accounts)
    (hmandates : s'.mandates = s.mandates) (hloans : s'.loans = s.loans)
    (hdebt : s'.activeDebt = s.activeDebt) : Backed s' := by
  have hquiet : Quiet s s' := Quiet.of_holders (SameHolders.of_accounts haccounts) hmandates hloans
  refine h.sameLoans (h.pointed.quiet hquiet) hloans hdebt ?_ ?_ ?_
  · rw [hmandates]
    exact Pointwise.refl fun _ m _ => Mandate.SameLoans.refl m
  · intro key
    rw [accountAt_congr haccounts, backing_congr hmandates]
  · intro key
    rw [accountAt_congr haccounts]

theorem riskTick_books {price : Price} (h : Backed s)
    (hop : riskTick .trapping ctx price id s = .ok s') : Backed s' ∧ Moved s s' 0 0 := by
  obtain ⟨_, s₁, hloop, rfl⟩ := riskTick_ok hop
  have hstart : Backed { s with price } := h.of_parts rfl rfl rfl rfl
  have hloop' : Backed { s with price } → Backed s₁ ∧ Moved { s with price } s₁ 0 0 := by
    refine foldlM_ok (R := fun _ s s' => Backed s → Backed s' ∧ Moved s s' 0 0)
      (fun s h => ⟨h, Moved.refl s⟩) ?_ hloop
    intro id rest s s₁ s₂ hfirst hrest h
    obtain ⟨hbacked, hmoved⟩ := tickLoan_books h hfirst
    obtain ⟨hbacked', hmoved'⟩ := hrest hbacked
    exact ⟨hbacked', hmoved.trans hmoved'⟩
  obtain ⟨hbacked, hmoved⟩ := hloop' hstart
  exact ⟨hbacked.of_parts rfl rfl rfl rfl, hmoved.net, hmoved.held, hmoved.bound⟩

theorem liquidate_books {loanID : String} (h : Backed s)
    (hop : liquidate .trapping loanID id s = .ok s') : Backed s' ∧ Moved s s' 0 0 := by
  obtain ⟨_, l, s₁, hl, hstatus, hliq, rfl⟩ := liquidate_ok hop
  have hopen : l.isOpen = true := by simp [Loan.isOpen, hstatus]
  obtain ⟨hbacked, hmoved⟩ := liquidateInState_books h hl hopen hliq
  exact ⟨hbacked.of_parts rfl rfl rfl rfl, hmoved.net, hmoved.held, hmoved.bound⟩

end Lending

/-! ### Every operation -/

/-- **One operation**: a backed state stays backed, and what is owed moves by what was called for. -/
theorem body_books {host : Host} {ctx : Context} {op : Operation} {s s' : State} (h : Backed s)
    (hfresh : ∀ id, op.loanID = some id → id ≠ "" ∧ s.loans[id]? = none)
    (hop : op.body .trapping host ctx s = .ok s') :
    Backed s' ∧ Moved s s' op.usdt0Delta op.fxrpDelta := by
  cases op with
  | openAccount owner id nonce => exact openAccount_books h hop
  | deposit owner name amount id =>
      obtain ⟨asset, hname, hop⟩ := bind_eq_ok.mp hop
      obtain ⟨hbacked, hmoved⟩ := deposit_books h hop
      refine ⟨hbacked, ?_⟩
      rcases ofName_eq_some (orElse_eq_ok.mp hname) with ⟨rfl, rfl⟩ | ⟨rfl, rfl⟩
      · exact hmoved
      · exact hmoved
  | setMandate owner id amount minAPR termMask cap nonce => exact setMandate_books h hop
  | cancelMandate owner id nonce => exact cancelMandate_books h hop
  | acceptQuote q loanID nonce observed =>
      obtain ⟨hid, hnew⟩ := hfresh loanID rfl
      exact acceptQuote_books h hid hnew hop
  | riskTick price id => exact riskTick_books h hop
  | repay owner amount id nonce => exact repay_books h hop
  | liquidate loanID id => exact liquidate_books h hop
  | seedBackstop amount id => exact seedBackstop_books h hop
  | withdraw owner name amount id nonce =>
      obtain ⟨asset, hname, hop⟩ := bind_eq_ok.mp hop
      obtain ⟨hbacked, hmoved⟩ := withdraw_books h hop
      refine ⟨hbacked, ?_⟩
      rcases ofName_eq_some (orElse_eq_ok.mp hname) with ⟨rfl, rfl⟩ | ⟨rfl, rfl⟩
      · exact hmoved
      · exact hmoved
  | withdrawFromMandate owner mandateID amount id nonce => exact withdrawFromMandate_books h hop

end QuietLine
