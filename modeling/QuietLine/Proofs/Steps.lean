/-
What each operation does when it succeeds.

One theorem for each operation: what it had checked, and the state it answers.
Every property of runs is derived from these and none of them looks at the code
again.  They hold for either arithmetic; a result of `A.add` or `A.sub` is left as
the equation that defines it.
-/
import QuietLine.Proofs.Liquidity

namespace QuietLine

open Outcome MapSum MapRel Std

variable {A : Arith} {host : Host} {ctx : Context} {s s' : State} {owner id : String} {n : Nat}
  {amount : UInt64}

@[simp] theorem consumeNonce_eq_ok {a a' : Account} :
    consumeNonce a n = .ok a' ↔ a.nonce = n ∧ a' = { a with nonce := a.nonce + 1 } := by
  unfold consumeNonce
  rw [bind_eq_ok]
  constructor
  · rintro ⟨_, hnonce, ha'⟩
    rw [rejectIf_eq_ok, not_not] at hnonce
    cases ha'
    exact ⟨hnonce, rfl⟩
  · rintro ⟨hnonce, rfl⟩
    exact ⟨(), rejectIf_eq_ok.mpr (not_not.mpr hnonce), rfl⟩

/-- The overflow checks of `Deposit` and `SeedBackstop`. -/
theorem toNat_add_of_room {a b : UInt64} (h : ¬ 0xFFFFFFFFFFFFFFFF - a < b) :
    (a + b).toNat = a.toNat + b.toNat := by
  have hle := toNat_le_of_not_lt h
  have ha := a.toNat_lt
  rw [UInt64.toNat_sub_of_le _ _ (UInt64.le_iff_toNat_le.mpr (by simp; omega))] at hle
  rw [UInt64.toNat_add, Nat.mod_eq_of_lt]
  simp at hle
  omega

/-! ### Accounts and deposits -/

theorem openAccount_ok (h : openAccount owner id n s = .ok s') :
    id ∉ s.processed ∧ (s.account owner).nonce = n ∧
      s' = (s.putAccount owner { s.account owner with
        nonce := (s.account owner).nonce + 1 }).markProcessed id := by
  unfold openAccount at h
  simp only [bind_eq_ok, rejectIf_eq_ok, consumeNonce_eq_ok] at h
  obtain ⟨_, hnew, a, ⟨hnonce, rfl⟩, hs'⟩ := h
  cases hs'
  exact ⟨hnew, hnonce, rfl⟩

theorem deposit_ok {asset : Asset} (h : deposit ctx owner asset amount id s = .ok s') :
    id ∉ s.processed ∧ ∃ bal' activities,
      bal'.available.toNat = ((s.account owner).balances.get asset).available.toNat + amount.toNat ∧
      bal'.reserved = ((s.account owner).balances.get asset).reserved ∧
      s' = { (s.putAccount owner { s.account owner with
        balances := (s.account owner).balances.set asset bal' }).markProcessed id with
        activities } := by
  unfold deposit at h
  simp only [bind_eq_ok, rejectIf_eq_ok] at h
  obtain ⟨_, hnew, _, hroom, hs'⟩ := h
  cases hs'
  exact ⟨hnew, { (s.account owner).balances.get asset with
    available := ((s.account owner).balances.get asset).available + amount }, _,
    toNat_add_of_room hroom, rfl, rfl⟩

theorem seedBackstop_ok (h : seedBackstop amount id s = .ok s') :
    id ∉ s.processed ∧ ∃ backstopUSDT0 : UInt64,
      backstopUSDT0.toNat = s.backstopUSDT0.toNat + amount.toNat ∧
      s' = { s with backstopUSDT0 }.markProcessed id := by
  unfold seedBackstop at h
  simp only [bind_eq_ok, rejectIf_eq_ok] at h
  obtain ⟨_, hnew, _, hroom, hs'⟩ := h
  cases hs'
  exact ⟨hnew, _, toNat_add_of_room hroom, rfl⟩

/-! ### Mandates -/

theorem setMandate_ok {minAPR : UInt32} {termMask : UInt8} {cap : UInt64}
    (h : setMandate A ctx owner id amount minAPR termMask cap n s = .ok s') :
    s.mandates[id]? = none ∧ (s.account owner).nonce = n ∧ ∃ bal' : Balance,
      (s.account owner).balances.usdt0.available.toNat =
        amount.toNat + bal'.available.toNat ∧
      A.add (s.account owner).balances.usdt0.reserved amount = .ok bal'.reserved ∧
      s' = (s.putAccount owner { s.account owner with
          nonce := (s.account owner).nonce + 1
          balances := (s.account owner).balances.set .usdt0 bal' }).putMandate id
        { id, lender := (s.account owner).owner, available := amount, minAPRBPS := minAPR, termMask,
          perBorrowerCap := cap, active := true, createdAt := ctx.now } := by
  unfold setMandate at h
  simp only [bind_eq_ok, rejectIf_eq_ok, consumeNonce_eq_ok] at h
  obtain ⟨_, hnone, a, ⟨hnonce, rfl⟩, _, hle, available, hav, reserved, hres, hs'⟩ := h
  cases hs'
  refine ⟨?_, hnonce, ⟨available, reserved⟩, ?_, hres, rfl⟩
  · cases hm : s.mandates[id]? with
    | none => rfl
    | some m => rw [hm] at hnone; exact absurd rfl hnone
  · exact Arith.sub_of_le (toNat_le_of_not_lt hle) hav

theorem cancelMandate_ok (h : cancelMandate A owner id n s = .ok s') :
    (s.account owner).nonce = n ∧ ∃ m bal',
      s.mandates[id]? = some m ∧ m.lender = toLower owner ∧ m.active = true ∧
      A.sub (s.account owner).balances.usdt0.reserved m.available = .ok bal'.reserved ∧
      A.add (s.account owner).balances.usdt0.available m.available = .ok bal'.available ∧
      s' = (s.putAccount owner { s.account owner with
          nonce := (s.account owner).nonce + 1
          balances := (s.account owner).balances.set .usdt0 bal' }).putMandate id
        { m with available := 0, active := false } := by
  unfold cancelMandate at h
  simp only [bind_eq_ok, rejectIf_eq_ok, orElse_eq_ok, consumeNonce_eq_ok, not_or, not_not,
    Bool.not_eq_false] at h
  obtain ⟨m, hm, _, ⟨hlender, hactive⟩, a, ⟨hnonce, rfl⟩, reserved, hres, available, hav, hs'⟩ := h
  cases hs'
  exact ⟨hnonce, m, ⟨available, reserved⟩, hm, hlender, hactive, hres, hav, rfl⟩

/-! ### Borrowing -/

theorem observePrice_ok {observed : Option Price} {now : Int}
    (h : observePrice observed now s = .ok s') : ∃ price, s' = { s with price } := by
  cases observed with
  | none => cases h; exact ⟨s.price, rfl⟩
  | some price =>
      simp only [observePrice, bind_eq_ok, rejectIf_eq_ok] at h
      obtain ⟨_, _, hs'⟩ := h
      cases hs'
      exact ⟨price, rfl⟩

/-- What `AcceptQuote` knows of the quote it accepts. -/
structure Quote.Accepted (s : State) (q : Quote) : Prop where
  funded : q.Funded
  /-- Each tranche is drawn on a mandate of the state. -/
  drawn : ∀ t ∈ q.tranches, ∃ m, (∃ key : String, s.mandates[key]? = some m) ∧ t.DrawnOn m
  /-- Where mandates are filed under their ids, no mandate is drawn on twice. -/
  nodup : (∀ (key : String) (m : Mandate), s.mandates[key]? = some m → m.id = key) →
    (q.tranches.map Tranche.mandateID).Nodup

theorem requireSameQuote_ok {q : Quote} {u : Unit} (h : requireSameQuote host ctx s q = .ok u) :
    q.Accepted s := by
  unfold requireSameQuote at h
  simp only [bind_eq_ok, answering_eq_ok, rejectIf_eq_ok, Bool.not_eq_false] at h
  obtain ⟨fresh, hfresh, hsame⟩ := h
  obtain ⟨hfunded, _, hsub, hdrawn⟩ := quote_ok hfresh
  obtain ⟨hamount, _, hrate, htranches, _, _⟩ := sameQuote_eq hsame
  refine ⟨⟨?_, ?_, ?_, ?_⟩, ?_, ?_⟩
  · rw [hamount]; exact hfunded.amount_pos
  · rw [hamount, htranches]; exact hfunded.total
  · rw [hrate]; exact hfunded.rate_pos
  · rw [hamount, htranches, hrate]; exact hfunded.rate
  · intro t ht
    rw [htranches] at ht
    obtain ⟨m, hm, hon⟩ := hdrawn t ht
    exact ⟨m, (mem_eligibleMandates.mp hm).1, hon⟩
  · intro hids
    rw [htranches]
    exact (eligibleMandates_nodup hids).sublist hsub

theorem acceptQuote_ok {q : Quote} {loanID : String} {observed : Option Price}
    (h : acceptQuote A host ctx q loanID n observed s = .ok s') :
    q.requestID ∉ s.processed ∧ (s.account q.borrower).nonce = n ∧
      (s.account q.borrower).loanID = "" ∧ q.Accepted s ∧
      ∃ fxrp' s₁ loan activeDebt price,
        (s.account q.borrower).balances.fxrp.available.toNat =
          q.collateralFXRP.toNat + fxrp'.available.toNat ∧
        A.add (s.account q.borrower).balances.fxrp.reserved q.collateralFXRP =
          .ok fxrp'.reserved ∧
        Allocated A q.tranches { s with price } s₁ ∧
        (q.loan loanID (s.account q.borrower).owner ctx.now).SameTerms loan ∧
        loan.isOpen = true ∧
        activeDebt.toNat = s.activeDebt.toNat + q.amount.toNat ∧
        s' = { (s₁.putLoan loanID loan).putAccount q.borrower { s.account q.borrower with
          nonce := (s.account q.borrower).nonce + 1
          balances := (s.account q.borrower).balances.set .fxrp fxrp'
          loanID } with activeDebt }.markProcessed q.requestID := by
  unfold acceptQuote at h
  simp only [bind_eq_ok, rejectIf_eq_ok, consumeNonce_eq_ok, not_not, checkedAdd_eq_ok] at h
  obtain ⟨_, hnew, s₀, hprice, _, hquote, a, ⟨hnonce, rfl⟩, _, hloan, _, hle, available, hav,
    reserved, hres, s₁, halloc, loan, hrisk, activeDebt, hdebt, hs'⟩ := h
  obtain ⟨price, rfl⟩ := observePrice_ok hprice
  obtain ⟨hterms, hopen⟩ := updateRisk_sameTerms hrisk
  have hacc := requireSameQuote_ok hquote
  have hall := allocateTranches_ok halloc
  have hdebt₀ : s₁.activeDebt = s.activeDebt := by rw [hall.frame]
  cases hs'
  refine ⟨hnew, hnonce, hloan, ⟨hacc.funded, hacc.drawn, hacc.nodup⟩, ⟨available, reserved⟩, s₁,
    loan, activeDebt, price, Arith.sub_of_le (toNat_le_of_not_lt hle) hav, hres, hall, hterms, hopen,
    ?_, rfl⟩
  rw [← hdebt₀]
  exact hdebt

/-! ### Repayment and liquidation -/

theorem repay_ok (h : repay A ctx owner amount id n s = .ok s') :
    id ∉ s.processed ∧ (s.account owner).nonce = n ∧
      ∃ l l₁ due interest usdt0' s₁ fxrp' activeDebt,
        s.loans[(s.account owner).loanID]? = some l ∧ accrue l ctx.now = .ok l₁ ∧
        debt l₁ = .ok due ∧ due.toNat ≤ amount.toNat ∧
        due.toNat = l₁.principal.toNat + interest.toNat ∧
        (s.account owner).balances.usdt0.available.toNat =
          due.toNat + usdt0'.available.toNat ∧
        usdt0'.reserved = (s.account owner).balances.usdt0.reserved ∧
        RepaymentDistributed l₁ interest (s.putAccount owner { s.account owner with
          nonce := (s.account owner).nonce + 1
          balances := (s.account owner).balances.set .usdt0 usdt0' }) s₁ ∧
        A.sub (s₁.account owner).balances.fxrp.reserved l₁.collateralFXRP = .ok fxrp'.reserved ∧
        A.add (s₁.account owner).balances.fxrp.available l₁.collateralFXRP =
          .ok fxrp'.available ∧
        A.sub s₁.activeDebt l₁.principal = .ok activeDebt ∧
        s' = { (s₁.putAccount owner { s₁.account owner with
            balances := (s₁.account owner).balances.set .fxrp fxrp', loanID := "" }).putLoan
          (s.account owner).loanID { l₁ with status := .closed } with activeDebt }.markProcessed
            id := by
  unfold repay at h
  simp only [bind_eq_ok, rejectIf_eq_ok, orElse_eq_ok, consumeNonce_eq_ok, checkedSub_eq_ok] at h
  obtain ⟨_, hnew, a, ⟨hnonce, rfl⟩, l, hl, l₁, hl₁, due, hdue, _, henough, _, hle, available, hav,
    interest, hinterest, s₁, hdist, reserved, hres, fxavailable, hfx, activeDebt, hdebt, hs'⟩ := h
  cases hs'
  exact ⟨hnew, hnonce, l, l₁, due, interest,
    ⟨available, (s.account owner).balances.usdt0.reserved⟩, s₁, ⟨fxavailable, reserved⟩, activeDebt,
    hl, hl₁, hdue, toNat_le_of_not_lt henough, hinterest,
    Arith.sub_of_le (toNat_le_of_not_lt hle) hav, rfl, distributeRepayment_ok hdist, hres, hfx, hdebt,
    rfl⟩

/-- The borrower's account after `liquidateInState` has taken the collateral. -/
theorem liquidateInState_ok {l : Loan} (h : liquidateInState A s id l = .ok s') :
    ∃ due interest seize backstopUSDT0 backstopFXRP freed fxrp' s₁ activeDebt,
      debt l = .ok due ∧ due.toNat = l.principal.toNat + interest.toNat ∧
      s.backstopUSDT0.toNat = due.toNat + backstopUSDT0.toNat ∧
      l.collateralFXRP.toNat = seize.toNat + freed.toNat ∧
      A.add s.backstopFXRP seize = .ok backstopFXRP ∧
      A.sub (s.account l.borrower).balances.fxrp.reserved l.collateralFXRP =
        .ok fxrp'.reserved ∧
      A.add (s.account l.borrower).balances.fxrp.available freed = .ok fxrp'.available ∧
      RepaymentDistributed l interest ({ s with backstopUSDT0, backstopFXRP }.putAccount l.borrower
        { s.account l.borrower with
          balances := (s.account l.borrower).balances.set .fxrp fxrp' }) s₁ ∧
      A.sub s₁.activeDebt l.principal = .ok activeDebt ∧
      s' = { (s₁.putAccount l.borrower { s₁.account l.borrower with loanID := "" }).putLoan id
        { l with status := .liquidated } with activeDebt } := by
  unfold liquidateInState at h
  simp only [bind_eq_ok, rejectIf_eq_ok, checkedSub_eq_ok] at h
  obtain ⟨due, hdue, _, hle, seize, _, backstopUSDT0, hback, backstopFXRP, hfx, reserved, hres, freed,
    hfreed, available, hav, interest, hinterest, s₁, hdist, activeDebt, hdebt, hs'⟩ := h
  cases hs'
  have hseize : (if seize > l.collateralFXRP then l.collateralFXRP else seize).toNat ≤
      l.collateralFXRP.toNat := (take_le_both rfl).2
  exact ⟨due, interest, _, backstopUSDT0, backstopFXRP, freed, ⟨available, reserved⟩, s₁, activeDebt,
    hdue, hinterest, Arith.sub_of_le (toNat_le_of_not_lt hle) hback, Arith.sub_of_le hseize hfreed,
    hfx, hres, hav, distributeRepayment_ok hdist, hdebt, rfl⟩

theorem liquidate_ok {loanID : String} (h : liquidate A loanID id s = .ok s') :
    id ∉ s.processed ∧ ∃ l s₁, s.loans[loanID]? = some l ∧ l.status = .liquidatable ∧
      liquidateInState A s loanID l = .ok s₁ ∧ s' = s₁.markProcessed id := by
  unfold liquidate at h
  simp only [bind_eq_ok, rejectIf_eq_ok, orElse_eq_ok, not_not] at h
  obtain ⟨_, hnew, l, hl, _, hstatus, s₁, hliq, hs'⟩ := h
  cases hs'
  exact ⟨hnew, l, s₁, hl, hstatus, hliq, rfl⟩

/-- One round of `RiskTick`: nothing to do, a loan brought up to date, or one liquidated. -/
theorem tickLoan_ok {price : Price} (h : tickLoan A ctx price s id = .ok s') :
    s' = s ∨ ∃ l l₁, s.loans[id]? = some l ∧ l.isOpen = true ∧ l.SameTerms l₁ ∧ l₁.isOpen = true ∧
      (s' = s.putLoan id l₁ ∨
        (l₁.status = .liquidatable ∧ liquidateInState A (s.putLoan id l₁) id l₁ = .ok s')) := by
  unfold tickLoan at h
  cases hl : s.loans[id]? with
  | none =>
      rw [hl] at h
      cases h
      exact Or.inl rfl
  | some l =>
      simp only [hl] at h
      by_cases hopen : l.isOpen = true
      · rw [if_pos hopen] at h
        simp only [bind_eq_ok] at h
        obtain ⟨l₁, hacc, l₂, hrisk, due, _, h⟩ := h
        obtain ⟨hterms, _⟩ := accrue_sameTerms hacc
        obtain ⟨hterms', hopen'⟩ := updateRisk_sameTerms hrisk
        refine Or.inr ⟨l, l₂, rfl, hopen, hterms.trans hterms', hopen', ?_⟩
        by_cases hliq : l₂.status = .liquidatable ∧ (s.putLoan id l₂).backstopUSDT0 ≥ due
        · rw [if_pos hliq] at h
          exact Or.inr ⟨hliq.1, h⟩
        · rw [if_neg hliq] at h
          cases h
          exact Or.inl rfl
      · rw [if_neg hopen] at h
        cases h
        exact Or.inl rfl

theorem riskTick_ok {price : Price} (h : riskTick A ctx price id s = .ok s') :
    id ∉ s.processed ∧ ∃ s₁,
      (ctx.range.order s.loans.keys).foldlM (tickLoan A ctx price) { s with price } = .ok s₁ ∧
      s' = s₁.markProcessed id := by
  unfold riskTick at h
  simp only [bind_eq_ok, rejectIf_eq_ok] at h
  obtain ⟨_, hnew, s₁, hloop, hs'⟩ := h
  cases hs'
  exact ⟨hnew, s₁, hloop, rfl⟩

/-! ### Withdrawals -/

/-- What `drawBalance` takes, and from where. -/
structure BalanceDrawn (A : Arith) (s : State) (a : Account) (asset : Asset) (amount : UInt64)
    (s' : State) (bal' : Balance) : Prop where
  frame : s' = { s with mandates := s'.mandates }
  mandates : Pointwise (fun _ => Mandate.Drawn (toLower a.owner)) s.mandates s'.mandates
  /-- Only USDT0 is ever drawn from mandates. -/
  fxrp : asset = .fxrp → s'.mandates = s.mandates ∧ bal'.reserved = a.balances.fxrp.reserved
  /-- What leaves the reserved balance is what the mandates lost. -/
  backing : A = .trapping →
    (a.balances.get asset).reserved.toNat + s'.backing (toLower a.owner) =
      bal'.reserved.toNat + s.backing (toLower a.owner)
  available : bal'.available.toNat ≤ (a.balances.get asset).available.toNat
  amount : A = .trapping →
    (a.balances.get asset).available.toNat + (a.balances.get asset).reserved.toNat =
      bal'.available.toNat + bal'.reserved.toNat + amount.toNat

theorem drawBalance_ok {a : Account} {asset : Asset} {range : RangeOrder} {r : State × Balance}
    (h : drawBalance A range s a asset amount = .ok r) :
    BalanceDrawn A s a asset amount r.1 r.2 := by
  unfold drawBalance at h
  by_cases henough : (a.balances.get asset).available ≥ amount
  · simp only [if_pos henough, bind_eq_ok] at h
    obtain ⟨available, hav, hr⟩ := h
    cases hr
    have hav' := Arith.sub_of_le (UInt64.le_iff_toNat_le.mp henough) hav
    refine ⟨rfl, Pointwise.refl fun _ m _ => Mandate.Drawn.refl _ m, ?_, fun _ => rfl, ?_, ?_⟩
    · rintro rfl
      exact ⟨rfl, rfl⟩
    · show available.toNat ≤ _
      omega
    · intro _
      show _ = available.toNat + (a.balances.get asset).reserved.toNat + _
      omega
  · simp only [if_neg henough, bind_eq_ok, rejectIf_eq_ok, not_not] at h
    obtain ⟨remaining, hrem, _, husdt0, d, hloop, _, hdone, hr⟩ := h
    cases hr
    have hrem' := Arith.sub_of_le
      (UInt64.lt_iff_toNat_lt.mp (UInt64.not_le.mp henough)).le hrem
    have hown := mandatesByCreatedAt_owned range s a.owner
    have hdrawn := drawMandates_ok hown hloop
    obtain ⟨hretired, hback⟩ := retireAll_drawn
      (hown.of_sameOffer (hdrawn.mandates.mono fun _ _ _ h => h.toSameOffer))
    have hzero : d.remaining.toNat = 0 := by
      have := toNat_le_of_not_lt hdone
      simpa using this
    have hlost := hdrawn.backing
    refine ⟨rfl, hdrawn.mandates.comp hretired fun _ _ _ _ h h' => h.trans h', ?_, ?_, ?_, ?_⟩
    · rintro rfl
      cases husdt0
    · intro hA
      have hres := hdrawn.reserved hA
      rw [backing_eq, backing_eq, hback]
      show (a.balances.get asset).reserved.toNat + _ = d.reserved.toNat + _
      simp only at hlost hres
      omega
    · exact Nat.zero_le _
    · intro hA
      have hres := hdrawn.reserved hA
      simp only at hres
      show _ = (0 : UInt64).toNat + d.reserved.toNat + _
      simp
      omega

theorem withdraw_ok {asset : Asset} (h : withdraw A ctx owner asset amount id n s = .ok s') :
    id ∉ s.processed ∧ (s.account owner).nonce = n ∧ ∃ s₁ bal' activities,
      BalanceDrawn A s { s.account owner with nonce := (s.account owner).nonce + 1 } asset amount
        s₁ bal' ∧
      s' = { (s₁.putAccount owner { s.account owner with
        nonce := (s.account owner).nonce + 1
        balances := (s.account owner).balances.set asset bal' }).markProcessed id with
        activities } := by
  unfold withdraw at h
  simp only [bind_eq_ok, rejectIf_eq_ok, consumeNonce_eq_ok] at h
  obtain ⟨_, hnew, a, ⟨hnonce, rfl⟩, drawn, hdrawn, hs'⟩ := h
  cases hs'
  exact ⟨hnew, hnonce, drawn.1, drawn.2, _, drawBalance_ok hdrawn, rfl⟩

theorem withdrawFromMandate_ok {mandateID : String}
    (h : withdrawFromMandate A ctx owner mandateID amount id n s = .ok s') :
    id ∉ s.processed ∧ (s.account owner).nonce = n ∧ ∃ m reserved available activities,
      s.mandates[mandateID]? = some m ∧ m.lender = toLower owner ∧ m.active = true ∧
      m.available.toNat = amount.toNat + available.toNat ∧
      A.sub (s.account owner).balances.usdt0.reserved amount = .ok reserved ∧
      s' = { ((s.putAccount owner { s.account owner with
        nonce := (s.account owner).nonce + 1
        balances := (s.account owner).balances.set .usdt0
          { (s.account owner).balances.usdt0 with reserved } }).putMandate mandateID
        (Mandate.retireIfEmpty { m with available })).markProcessed id with activities } := by
  unfold withdrawFromMandate at h
  simp only [bind_eq_ok, rejectIf_eq_ok, orElse_eq_ok, consumeNonce_eq_ok, not_or, not_not,
    Bool.not_eq_false] at h
  obtain ⟨_, hnew, m, hm, _, ⟨hlender, hactive⟩, a, ⟨hnonce, rfl⟩, _, hle, reserved, hres, available,
    hav, hs'⟩ := h
  cases hs'
  exact ⟨hnew, hnonce, m, reserved, available, _, hm, hlender, hactive,
    Arith.sub_of_le (toNat_le_of_not_lt hle) hav, hres, rfl⟩

end QuietLine
