/-
Nobody takes value from anybody else.

An operation executed for one account leaves every other account its nonce, its
loan, its FXRP and what it can spend.  A repayment may pay another account, never
charge it; what leaves a cancelled mandate arrives in its lender's balance.  Only a
liquidation changes collateral that is not the caller's.
-/
import QuietLine.Proofs.Solvency

namespace QuietLine

open Outcome MapSum MapRel Std

/-- The account an operation is executed for. -/
def Operation.owner : Operation → Option String
  | .openAccount owner .. => some owner
  | .deposit owner .. => some owner
  | .setMandate owner .. => some owner
  | .cancelMandate owner .. => some owner
  | .acceptQuote q .. => some q.borrower
  | .repay owner .. => some owner
  | .withdraw owner .. => some owner
  | .withdrawFromMandate owner .. => some owner
  | .riskTick .. => none
  | .liquidate .. => none
  | .seedBackstop .. => none

/-! ### What another account sees -/

/-- One mandate of another account: the same liquidity, unless it is cancelled and a repayment
returned principal it had lent. -/
def Mandate.Spared (kind : OpKind) (m m' : Mandate) : Prop :=
  m'.lender = m.lender ∧
    (m'.liquidity = m.liquidity ∨
      (kind = .applyRepayment ∧ m.active = false ∧ m'.available = m.available ∧
        m'.allocatedPrincipal.toNat ≤ m.allocatedPrincipal.toNat))

/-- From `s` to `s'` nothing was taken from the account filed under `key`. -/
structure Spared (kind : OpKind) (s s' : State) (key : String) : Prop where
  /-- Its nonce, loan and FXRP are unchanged, and its USDT0 has not decreased. -/
  account : (s.accountAt key).Credited (s'.accountAt key)
  /-- The record of its open loan is unchanged. -/
  loans : ∀ (id : String) (l : Loan), l.isOpen = true → l.borrower = key →
    (s'.loans[id]? = some l ↔ s.loans[id]? = some l)
  mandates : ∀ (id : String) (m : Mandate), s.mandates[id]? = some m → m.lender = key →
    ∃ m', s'.mandates[id]? = some m' ∧ m.Spared kind m'
  /-- What left its mandates is available to it. -/
  returned : (s.accountAt key).balances.usdt0.available.toNat + s.backing key ≤
    (s'.accountAt key).balances.usdt0.available.toNat + s'.backing key

theorem Mandate.Spared.refl (kind : OpKind) (m : Mandate) : m.Spared kind m := ⟨rfl, Or.inl rfl⟩

section Accounts

variable {host : Host} {ctx : Context} {s s' : State} {owner id key : String} {n : Nat}
  {amount : UInt64}

/-- Between backed states an account that is paid finds in its balance what left its mandates. -/
theorem Spared.of_backed {kind : OpKind} (h : Backed s) (h' : Backed s')
    (haccount : (s.accountAt key).Credited (s'.accountAt key))
    (hloans : ∀ (id : String) (l : Loan), l.isOpen = true → l.borrower = key →
      (s'.loans[id]? = some l ↔ s.loans[id]? = some l))
    (hmandates : ∀ (id : String) (m : Mandate), s.mandates[id]? = some m → m.lender = key →
      ∃ m', s'.mandates[id]? = some m' ∧ m.Spared kind m') : Spared kind s s' key := by
  refine ⟨haccount, hloans, hmandates, ?_⟩
  have hheld := haccount.held
  have hreserved := h.reserved key
  have hreserved' := h'.reserved key
  unfold Account.usdt0Held at hheld
  omega

/-- Writing one account leaves the others alone. -/
theorem credited_of_put {a : Account} (hkey : toLower owner ≠ key)
    (haccounts : s'.accounts = (s.putAccount owner a).accounts) :
    (s.accountAt key).Credited (s'.accountAt key) := by
  rw [accountAt_congr haccounts, accountAt_putAccount, if_neg hkey]
  exact Account.Credited.refl _

/-- An account is written, mandates of its own with it. -/
theorem Spared.of_put {kind : OpKind} {a : Account} (h : Backed s) (h' : Backed s')
    (hkey : toLower owner ≠ key) (haccounts : s'.accounts = (s.putAccount owner a).accounts)
    (hloans : s'.loans = s.loans)
    (hmandates : ∀ (id : String) (m : Mandate), s.mandates[id]? = some m → m.lender = key →
      s'.mandates[id]? = some m) : Spared kind s s' key := by
  refine Spared.of_backed h h' (credited_of_put hkey haccounts) ?_ ?_
  · intro id l _ _
    rw [hloans]
  · intro id m hm hlender
    exact ⟨m, hmandates id m hm hlender, Mandate.Spared.refl kind m⟩

/-- The mandate an operation writes is its caller's, so not another's. -/
theorem getElem?_insert_own {m m₁ m' : Mandate} (hm : s.mandates[id]? = some m)
    (hown : m.lender = toLower owner) (hkey : toLower owner ≠ key) {id' : String}
    (hm₁ : s.mandates[id']? = some m₁) (hlender : m₁.lender = key) :
    (s.mandates.insert id m')[id']? = some m₁ := by
  rw [getElem?_insert_ne, hm₁]
  rintro rfl
  rw [hm] at hm₁
  cases hm₁
  exact hkey (hown.symm.trans hlender)

theorem setMandate_spared {minAPR : UInt32} {termMask : UInt8} {cap : UInt64} (h : Backed s)
    (h' : Backed s') (hkey : toLower owner ≠ key)
    (hop : setMandate .trapping ctx owner id amount minAPR termMask cap n s = .ok s') :
    Spared .setMandate s s' key := by
  obtain ⟨hnone, _, bal', _, _, hs'⟩ := setMandate_ok hop
  subst hs'
  refine Spared.of_put h h' hkey rfl rfl ?_
  intro id' m hm _
  refine (getElem?_insert_ne ?_).trans hm
  rintro rfl
  rw [hnone] at hm
  cases hm

theorem cancelMandate_spared (h : Backed s) (h' : Backed s') (hkey : toLower owner ≠ key)
    (hop : cancelMandate .trapping owner id n s = .ok s') : Spared .cancelMandate s s' key := by
  obtain ⟨_, m, bal', hm, hlender, _, _, _, hs'⟩ := cancelMandate_ok hop
  subst hs'
  refine Spared.of_put h h' hkey rfl rfl ?_
  intro id' m₁ hm₁ hlender₁
  exact getElem?_insert_own hm hlender hkey hm₁ hlender₁

theorem withdrawFromMandate_spared {mandateID : String} (h : Backed s) (h' : Backed s')
    (hkey : toLower owner ≠ key)
    (hop : withdrawFromMandate .trapping ctx owner mandateID amount id n s = .ok s') :
    Spared .withdrawFromMandate s s' key := by
  obtain ⟨_, _, m, reserved, available, _, hm, hlender, _, _, _, hs'⟩ := withdrawFromMandate_ok hop
  subst hs'
  refine Spared.of_put h h' hkey rfl rfl ?_
  intro id' m₁ hm₁ hlender₁
  exact getElem?_insert_own hm hlender hkey hm₁ hlender₁

theorem withdraw_spared {asset : Asset} (h : Backed s) (h' : Backed s') (hkey : toLower owner ≠ key)
    (hop : withdraw .trapping ctx owner asset amount id n s = .ok s') :
    Spared .withdrawRequest s s' key := by
  obtain ⟨_, _, s₁, bal', activities, hdrawn, hs'⟩ := withdraw_ok hop
  have hframe := hdrawn.frame
  have howner := account_owner h.pointed.wellformed owner
  let a : Account := { s.account owner with
    nonce := (s.account owner).nonce + 1
    balances := (s.account owner).balances.set asset bal' }
  have haccounts : s'.accounts = (s.putAccount owner a).accounts := by
    rw [hs']
    show s₁.accounts.insert _ _ = s.accounts.insert _ _
    rw [hframe]
  have hloans : s'.loans = s.loans := by
    rw [hs']
    show s₁.loans = s.loans
    rw [hframe]
  refine Spared.of_put h h' hkey haccounts hloans ?_
  intro id' m hm hlender
  obtain ⟨m', hm', hd⟩ := hdrawn.mandates.get hm
  have hsame : m' = m := by
    refine hd.others fun h0 => hkey ?_
    rw [← hlender, h0]
    show toLower owner = toLower (s.account owner).owner
    rw [howner, toLower_toLower]
  rw [hs', ← hsame]
  exact hm'

theorem acceptQuote_spared {q : Quote} {loanID : String} {observed : Option Price} (h : Backed s)
    (h' : Backed s') (hfresh : s.loans[loanID]? = none) (hkey : toLower q.borrower ≠ key)
    (hop : acceptQuote .trapping host ctx q loanID n observed s = .ok s') :
    Spared .borrowAccept s s' key := by
  obtain ⟨_, _, _, _, fxrp', s₁, l, activeDebt, price, _, _, hall, hterms, _, _, hs'⟩ :=
    acceptQuote_ok hop
  have hframe := hall.frame
  have hborrower : l.borrower = toLower q.borrower :=
    hterms.borrower.trans (account_owner h.pointed.wellformed q.borrower)
  let a : Account := { s.account q.borrower with
    nonce := (s.account q.borrower).nonce + 1
    balances := (s.account q.borrower).balances.set .fxrp fxrp'
    loanID }
  have haccounts : s'.accounts = (s.putAccount q.borrower a).accounts := by
    rw [hs']
    show s₁.accounts.insert _ _ = s.accounts.insert _ _
    rw [hframe]
  have hloans : s'.loans = s.loans.insert loanID l := by
    rw [hs']
    show s₁.loans.insert _ _ = _
    rw [hframe]
  refine Spared.of_backed h h' (credited_of_put hkey haccounts) ?_ ?_
  · intro id l₁ _ hl₁
    rw [hloans, getElem?_insert_eq]
    by_cases hid : loanID = id
    · -- the new loan is the caller's, and its id was free
      rw [if_pos hid, ← hid, hfresh]
      refine ⟨fun heq => ?_, nofun⟩
      cases heq
      exact absurd (hborrower.symm.trans hl₁) hkey
    · rw [if_neg hid]
  · intro id m hm _
    obtain ⟨m', hm', hlent⟩ := hall.mandates.get hm
    rw [hs']
    exact ⟨m', hm', hlent.lender, Or.inl hlent.liquidity_eq⟩

theorem repay_spared (h : Backed s) (h' : Backed s') (hkey : toLower owner ≠ key)
    (hop : repay .trapping ctx owner amount id n s = .ok s') :
    Spared .applyRepayment s s' key := by
  obtain ⟨_, hc⟩ := repay_closing hop
  obtain ⟨hopen, howner, _⟩ := h.pointed.closer hc
  obtain ⟨l, l₁, a₀, s₁, a₁, interest, due, hr, _⟩ := repay_repayment hop
  obtain rfl : _ = l := Option.some_injective _ (hc.found.symm.trans hr.found)
  have hsettled := hr.settled h hopen howner
  obtain ⟨l', hclosed, hloans⟩ := hsettled.loans
  refine Spared.of_backed h h' (hr.others hkey) ?_ ?_
  · intro id' l₂ hopen₂ hl₂
    rw [hloans, getElem?_insert_eq]
    by_cases hid : (s.account owner).loanID = id'
    · rw [if_pos hid, ← hid, hr.found]
      constructor
      · intro heq
        cases heq
        rw [hclosed] at hopen₂
        cases hopen₂
      · intro heq
        cases heq
        exact absurd (howner.trans hl₂) hkey
    · rw [if_neg hid]
  · intro id' m hm _
    obtain ⟨m', hm', hrepaid⟩ := hsettled.mandates.get hm
    refine ⟨m', hm', hrepaid.lender, ?_⟩
    cases hactive : m.active with
    | true => exact Or.inl (hrepaid.active hactive)
    | false =>
        have hall := hrepaid.allocated
        exact Or.inr ⟨rfl, rfl, hrepaid.cancelled hactive, by omega⟩

end Accounts

/-! ### Liquidations -/

/-- From `s` to `s'` an open loan of `key` was liquidated. -/
def Liquidated (s s' : State) (key : String) : Prop :=
  ∃ (id : String) (l l' : Loan), s.loans[id]? = some l ∧ l.isOpen = true ∧ l.borrower = key ∧
    s'.loans[id]? = some l' ∧ l'.status = .liquidated

/-- From `s` to `s'` collateral moved only where a loan was liquidated, and no loan was opened. -/
structure OnlyLiquidates (s s' : State) : Prop where
  fxrp : ∀ key, (s'.accountAt key).balances.fxrp ≠ (s.accountAt key).balances.fxrp →
    Liquidated s s' key
  opened : ∀ (id : String) (l' : Loan), s'.loans[id]? = some l' → l'.isOpen = true →
    ∃ l, s.loans[id]? = some l ∧ l.isOpen = true ∧ l.borrower = l'.borrower
  liquidated : ∀ (id : String) (l : Loan), s.loans[id]? = some l → l.status = .liquidated →
    ∃ l', s'.loans[id]? = some l' ∧ l'.status = .liquidated

theorem OnlyLiquidates.refl (s : State) : OnlyLiquidates s s :=
  ⟨fun _ h => absurd rfl h, fun _ l hl hopen => ⟨l, hl, hopen, rfl⟩,
    fun _ l hl hstatus => ⟨l, hl, hstatus⟩⟩

theorem OnlyLiquidates.trans {s s₁ s₂ : State} (h : OnlyLiquidates s s₁)
    (h' : OnlyLiquidates s₁ s₂) : OnlyLiquidates s s₂ := by
  refine ⟨?_, ?_, ?_⟩
  · intro key hkey
    by_cases hfirst : (s₁.accountAt key).balances.fxrp = (s.accountAt key).balances.fxrp
    · rw [← hfirst] at hkey
      obtain ⟨id, l₁, l₂, hl₁, hopen₁, hborrower, hl₂, hstatus⟩ := h'.fxrp key hkey
      obtain ⟨l, hl, hopen, hsame⟩ := h.opened id l₁ hl₁ hopen₁
      exact ⟨id, l, l₂, hl, hopen, hsame.trans hborrower, hl₂, hstatus⟩
    · obtain ⟨id, l, l₁, hl, hopen, hborrower, hl₁, hstatus⟩ := h.fxrp key hfirst
      obtain ⟨l₂, hl₂, hstatus₂⟩ := h'.liquidated id l₁ hl₁ hstatus
      exact ⟨id, l, l₂, hl, hopen, hborrower, hl₂, hstatus₂⟩
  · intro id l₂ hl₂ hopen₂
    obtain ⟨l₁, hl₁, hopen₁, hsame⟩ := h'.opened id l₂ hl₂ hopen₂
    obtain ⟨l, hl, hopen, hsame'⟩ := h.opened id l₁ hl₁ hopen₁
    exact ⟨l, hl, hopen, hsame'.trans hsame⟩
  · intro id l hl hstatus
    obtain ⟨l₁, hl₁, hstatus₁⟩ := h.liquidated id l hl hstatus
    exact h'.liquidated id l₁ hl₁ hstatus₁

section Loans

variable {ctx : Context} {s s' : State} {id : String}

theorem liquidateInState_only {l : Loan} (h : Backed s) (hl : s.loans[id]? = some l)
    (hopen : l.isOpen = true) (hop : liquidateInState .trapping s id l = .ok s') :
    OnlyLiquidates s s' := by
  have hborrower := (h.pointed.wellformed.loan id l hl).2.borrower
  obtain ⟨a₀, s₀, s₁, a₁, _, _, _, hr, _⟩ := liquidateInState_repayment hl hop
  obtain ⟨_, _, _, _, _, _, _, s₂, _, _, _, _, _, _, _, _, hdist, _, hs'⟩ := liquidateInState_ok hop
  have hget : ∀ key : String, s'.loans[key]? =
      if id = key then some { l with status := .liquidated } else s.loans[key]? := by
    intro key
    rw [hs', ← getElem?_insert_eq]
    show (s₂.loans.insert _ _)[key]? = _
    rw [hdist.frame]
    rfl
  refine ⟨?_, ?_, ?_⟩
  · intro key hkey
    refine ⟨id, l, _, hl, hopen, ?_, by rw [hget, if_pos rfl], rfl⟩
    by_contra hne
    exact hkey (hr.others fun h0 => hne (hborrower.symm.trans h0)).fxrp
  · intro key l' hl' hopen'
    rw [hget] at hl'
    by_cases hid : id = key
    · rw [if_pos hid] at hl'
      cases hl'
      cases hopen'
    · rw [if_neg hid] at hl'
      exact ⟨l', hl', hopen', rfl⟩
  · intro key l' hl' hstatus
    rw [hget]
    by_cases hid : id = key
    · rw [if_pos hid]
      exact ⟨_, rfl, rfl⟩
    · rw [if_neg hid]
      exact ⟨l', hl', hstatus⟩

theorem onlyLiquidates_putLoan {l l₁ : Loan} (hl : s.loans[id]? = some l)
    (hopen : l.isOpen = true) (hterms : l.SameTerms l₁) : OnlyLiquidates s (s.putLoan id l₁) := by
  refine ⟨fun key h => absurd rfl h, ?_, ?_⟩
  · intro key l' hl' hopen'
    rw [putLoan_get] at hl'
    by_cases hid : id = key
    · rw [if_pos hid] at hl'
      cases hl'
      exact ⟨l, hid ▸ hl, hopen, hterms.borrower.symm⟩
    · rw [if_neg hid] at hl'
      exact ⟨l', hl', hopen', rfl⟩
  · intro key l' hl' hstatus
    have hid : id ≠ key := by
      rintro rfl
      rw [hl] at hl'
      cases hl'
      simp [Loan.isOpen, hstatus] at hopen
    rw [putLoan_get, if_neg hid]
    exact ⟨l', hl', hstatus⟩

theorem tickLoan_only {price : Price} (h : Backed s)
    (hop : tickLoan .trapping ctx price s id = .ok s') : OnlyLiquidates s s' := by
  rcases tickLoan_ok hop with rfl | ⟨l, l₁, hl, hopen, hterms, hopen₁, hcase⟩
  · exact OnlyLiquidates.refl s'
  · have hupdate := onlyLiquidates_putLoan hl hopen hterms
    rcases hcase with rfl | ⟨_, hliq⟩
    · exact hupdate
    · have hl₁ : (s.putLoan id l₁).loans[id]? = some l₁ := by rw [putLoan_get, if_pos rfl]
      exact hupdate.trans
        (liquidateInState_only (h.putLoan hl hopen hterms hopen₁) hl₁ hopen₁ hliq)

/-- **The risk tick takes collateral only from the loans it liquidates.** -/
theorem riskTick_only {price : Price} (h : Backed s)
    (hop : riskTick .trapping ctx price id s = .ok s') : OnlyLiquidates s s' := by
  obtain ⟨_, s₁, hloop, rfl⟩ := riskTick_ok hop
  have hstart : Backed { s with price } := h.of_parts rfl rfl rfl rfl
  have hticks : Backed { s with price } → Backed s₁ ∧ OnlyLiquidates { s with price } s₁ := by
    refine foldlM_ok (R := fun _ s s' => Backed s → Backed s' ∧ OnlyLiquidates s s')
      (fun s h => ⟨h, OnlyLiquidates.refl s⟩) ?_ hloop
    intro id rest s s₁ s₂ hfirst hrest h
    obtain ⟨hbacked, honly⟩ := hrest (tickLoan_books h hfirst).1
    exact ⟨hbacked, (tickLoan_only h hfirst).trans honly⟩
  obtain ⟨_, honly⟩ := hticks hstart
  exact ⟨honly.fxrp, honly.opened, honly.liquidated⟩

theorem liquidate_only {loanID : String} (h : Backed s)
    (hop : liquidate .trapping loanID id s = .ok s') : OnlyLiquidates s s' := by
  obtain ⟨_, l, s₁, hl, hstatus, hliq, rfl⟩ := liquidate_ok hop
  have hopen : l.isOpen = true := by simp [Loan.isOpen, hstatus]
  have honly := liquidateInState_only h hl hopen hliq
  exact ⟨honly.fxrp, honly.opened, honly.liquidated⟩

end Loans

/-! ### Every operation -/

/-- What a committed operation may do to the account filed under `key`. -/
structure Framed (op : Operation) (s s' : State) (key : String) : Prop where
  /-- An operation for one account spares all others. -/
  spared : ∀ owner, op.owner = some owner → toLower owner ≠ key → Spared op.kind s s' key
  /-- Collateral moves for the caller, or in a loan that is liquidated. -/
  collateral : (s'.accountAt key).balances.fxrp ≠ (s.accountAt key).balances.fxrp →
    (∃ owner, op.owner = some owner ∧ toLower owner = key) ∨
      ((op.kind = .riskTick ∨ op.kind = .liquidate) ∧ Liquidated s s' key)

/-- An operation that spares the other accounts leaves their collateral alone. -/
theorem Framed.of_owner {op : Operation} {s s' : State} {owner key : String}
    (howner : op.owner = some owner) (h : toLower owner ≠ key → Spared op.kind s s' key) :
    Framed op s s' key := by
  refine ⟨?_, ?_⟩
  · intro owner' howner' hkey
    rw [howner] at howner'
    cases howner'
    exact h hkey
  · intro hfxrp
    by_cases hkey : toLower owner = key
    · exact Or.inl ⟨owner, howner, hkey⟩
    · exact absurd (h hkey).account.fxrp hfxrp

theorem body_framed {host : Host} {ctx : Context} {op : Operation} {s s' : State} (h : Backed s)
    (hfresh : ∀ id, op.loanID = some id → id ≠ "" ∧ s.loans[id]? = none)
    (hop : op.body .trapping host ctx s = .ok s') (key : String) : Framed op s s' key := by
  have h' := (body_books h hfresh hop).1
  cases op with
  | openAccount owner id nonce =>
      refine Framed.of_owner rfl fun hkey => ?_
      obtain ⟨_, _, hs'⟩ := openAccount_ok hop
      subst hs'
      exact Spared.of_put h h' hkey rfl rfl fun _ _ hm _ => hm
  | deposit owner name amount id =>
      refine Framed.of_owner rfl fun hkey => ?_
      obtain ⟨asset, _, hop⟩ := bind_eq_ok.mp hop
      obtain ⟨_, _, _, _, _, hs'⟩ := deposit_ok hop
      subst hs'
      exact Spared.of_put h h' hkey rfl rfl fun _ _ hm _ => hm
  | setMandate owner id amount minAPR termMask cap nonce =>
      exact Framed.of_owner rfl fun hkey => setMandate_spared h h' hkey hop
  | cancelMandate owner id nonce =>
      exact Framed.of_owner rfl fun hkey => cancelMandate_spared h h' hkey hop
  | acceptQuote q loanID nonce observed =>
      obtain ⟨_, hnew⟩ := hfresh loanID rfl
      exact Framed.of_owner rfl fun hkey => acceptQuote_spared h h' hnew hkey hop
  | riskTick price id =>
      exact ⟨nofun, fun hfxrp => Or.inr ⟨Or.inl rfl, (riskTick_only h hop).fxrp key hfxrp⟩⟩
  | repay owner amount id nonce =>
      exact Framed.of_owner rfl fun hkey => repay_spared h h' hkey hop
  | liquidate loanID id =>
      exact ⟨nofun, fun hfxrp => Or.inr ⟨Or.inr rfl, (liquidate_only h hop).fxrp key hfxrp⟩⟩
  | seedBackstop amount id =>
      obtain ⟨_, _, _, hs'⟩ := seedBackstop_ok hop
      subst hs'
      exact ⟨nofun, fun hfxrp => absurd rfl hfxrp⟩
  | withdraw owner name amount id nonce =>
      obtain ⟨asset, _, hop⟩ := bind_eq_ok.mp hop
      exact Framed.of_owner rfl fun hkey => withdraw_spared h h' hkey hop
  | withdrawFromMandate owner mandateID amount id nonce =>
      exact Framed.of_owner rfl fun hkey => withdrawFromMandate_spared h h' hkey hop

/-- **No account can take value from another**: every operation that a run commits spares the
accounts it is not executed for, and moves collateral of others only by liquidating their loans. -/
theorem ledger_framed (host : Host) (events : List Event)
    (h : Machine.Meets (step .wrapping host) Guarded newState events)
    (before : List Event) (ctx : Context) (stored : Bool) (op : Operation) (after : List Event)
    (s' : State) (hevents : events = before ++ .operate ctx stored op :: after)
    (hop : op.apply .wrapping host ctx stored (ledgerAfter .wrapping host before) = .ok s')
    (key : String) : Framed op (ledgerAfter .wrapping host before) s' key := by
  subst hevents
  obtain ⟨hbefore, hrest⟩ := Machine.meets_append.mp h
  have hsound := sound_ledgerAfter host before hbefore
  have hstep : step .wrapping host (ledgerAfter .wrapping host before) (.operate ctx stored op) =
      .ok s' := hop
  obtain ⟨hguard, _⟩ := hrest.cons_ok hstep
  obtain ⟨_, _, next, hbody, hs'⟩ := Operation.apply_ok hop
  rw [← hsound.body_eq] at hbody
  have hframed := body_framed hsound.toBacked hguard.fresh hbody key
  subst hs'
  refine ⟨?_, hframed.collateral⟩
  intro owner howner hkey
  have hspared := hframed.spared owner howner hkey
  exact ⟨hspared.account, hspared.loans, hspared.mandates, hspared.returned⟩

/-- The lender, when its borrower repays. -/
theorem ledger_framed_repayment :
    ∃ s', step .wrapping sampleHost (ledgerAfter .wrapping sampleHost
        (settledCalls .wrapping sampleHost newState lending)) (sampleCall repayment) = .ok s' ∧
      Framed repayment (ledgerAfter .wrapping sampleHost
        (settledCalls .wrapping sampleHost newState lending)) s' "0xc" := by
  have hguard : Guarded (ledgerAfter .wrapping sampleHost
      (settledCalls .wrapping sampleHost newState lending)) (sampleCall repayment) :=
    ⟨nofun, trivial⟩
  have hmeets := Machine.meets_append.mpr ⟨lending_guarded, Machine.meets_single hguard⟩
  have hok : (step .wrapping sampleHost (settledState .wrapping sampleHost newState lending)
      (sampleCall repayment)).isOk = true := by decide +kernel
  rw [← run_settledCalls] at hok
  cases hstep : step .wrapping sampleHost (ledgerAfter .wrapping sampleHost
      (settledCalls .wrapping sampleHost newState lending)) (sampleCall repayment) with
  | error e =>
      unfold ledgerAfter at hstep
      rw [hstep] at hok
      cases hok
  | ok s' =>
      exact ⟨s', rfl, ledger_framed sampleHost _ hmeets _ _ _ _ [] s' rfl hstep "0xc"⟩

end QuietLine
