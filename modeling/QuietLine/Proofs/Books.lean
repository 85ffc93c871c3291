/-
The books of the ledger: what is owed, what backs it, and how one step moves it.

`Backed` says that every reserved unit has its reason: a lender's in mandates that
can lend it or have lent it, a borrower's in the collateral of its loan.  `Moved`
says by how much a step changes what the ledger owes.  The lemmas update the two
along the writes that the operations make: accounts alone, a mandate filed, a loan
opened, a loan closed.
-/
import QuietLine.Proofs.Pointers

namespace QuietLine

open Outcome MapSum MapRel Std

/-! ### What is owed -/

namespace State

/-- What the mandate `id` has lent in open loans. -/
def lent (s : State) (id : String) : Nat := s.totalOpen fun l => trancheShare id l.tranches

/-- The principal of the open loans. -/
def outstanding (s : State) : Nat := s.totalOpen fun l => l.principal.toNat

/-- The collateral of the open loans of one borrower. -/
def pledged (s : State) (key : String) : Nat :=
  s.totalOpen fun l => if l.borrower = key then l.collateralFXRP.toNat else 0

/-- `U`: the USDT0 of all accounts, of the reserve and of the backstop. -/
def claimsUSDT0 (s : State) : Nat :=
  s.totalAccounts Account.usdt0Held + s.protocolReserve.toNat + s.backstopUSDT0.toNat

/-- `F`: the FXRP of all accounts and of the backstop. -/
def claimsFXRP (s : State) : Nat := s.totalAccounts Account.fxrpHeld + s.backstopFXRP.toNat

end State

/-! ### The invariant -/

/-- **Reserved backing.** -/
structure Backed (s : State) : Prop where
  pointed : Pointed s
  /-- Reserved USDT0 is what the mandates of the account can lend and have lent. -/
  reserved : ∀ key, (s.accountAt key).balances.usdt0.reserved.toNat = s.backing key
  /-- What a mandate has lent is in open loans. -/
  allocated : ∀ (id : String) (m : Mandate), s.mandates[id]? = some m →
    m.allocatedPrincipal.toNat = s.lent id
  inactive : ∀ (id : String) (m : Mandate), s.mandates[id]? = some m →
    m.active = false → m.available = 0
  debt : s.activeDebt.toNat = s.outstanding
  /-- Reserved FXRP is collateral of open loans. -/
  collateral : ∀ key, (s.accountAt key).balances.fxrp.reserved.toNat = s.pledged key

/-- What a step changes: `U - ActiveDebt` by `usdt0` and `F` by `fxrp`. -/
structure Moved (s s' : State) (usdt0 fxrp : Int) : Prop where
  net : (s'.claimsUSDT0 : Int) - s'.activeDebt.toNat =
    s.claimsUSDT0 - s.activeDebt.toNat + usdt0
  held : (s'.claimsFXRP : Int) = s.claimsFXRP + fxrp
  /-- Only a deposit makes the ledger owe more. -/
  bound : (s'.claimsUSDT0 : Int) ≤ s.claimsUSDT0 + max usdt0 0

theorem Moved.refl (s : State) : Moved s s 0 0 := ⟨by omega, by omega, by omega⟩

theorem Moved.trans {s s₁ s₂ : State} {u f : Int} (h : Moved s s₁ 0 0) (h' : Moved s₁ s₂ u f) :
    Moved s s₂ u f := by
  have h₁ := h.net
  have h₂ := h.held
  have h₃ := h.bound
  have h₁' := h'.net
  have h₂' := h'.held
  have h₃' := h'.bound
  exact ⟨by omega, by omega, by omega⟩

/-! ### Sums after a write -/

theorem totalAccounts_fxrpHeld_putAccount (s : State) (owner : String) (a : Account) :
    (s.putAccount owner a).totalAccounts Account.fxrpHeld + (s.account owner).fxrpHeld =
      s.totalAccounts Account.fxrpHeld + a.fxrpHeld :=
  totalAccounts_putAccount (fun _ => rfl) s owner a

theorem le_totalAccounts_usdt0 (s : State) (key : String) :
    (s.accountAt key).usdt0Held ≤ s.totalAccounts Account.usdt0Held :=
  le_totalAccounts (fun _ => rfl) s key

theorem le_totalAccounts_fxrp (s : State) (key : String) :
    (s.accountAt key).fxrpHeld ≤ s.totalAccounts Account.fxrpHeld :=
  le_totalAccounts (fun _ => rfl) s key

theorem totalAccounts_congr {s s' : State} (h : s'.accounts = s.accounts) (f : Account → Nat) :
    s'.totalAccounts f = s.totalAccounts f := by
  rw [State.totalAccounts, State.totalAccounts, h]

theorem totalOpen_congr {s s' : State} (h : s'.loans = s.loans) (f : Loan → Nat) :
    s'.totalOpen f = s.totalOpen f := by
  rw [State.totalOpen, State.totalOpen, h]

/-- A sum that depends on the terms alone does not see an open loan being updated. -/
theorem totalOpen_keep {s : State} {id : String} {l l' : Loan} {f : Loan → Nat}
    (hl : s.loans[id]? = some l) (hopen : l.isOpen = true) (hopen' : l'.isOpen = true)
    (hf : f l' = f l) : (s.putLoan id l').totalOpen f = s.totalOpen f := by
  have := totalOpen_putLoan_keep (f := f) hl hopen hopen'
  omega

/-- A mandate within reach of its lender's reserved balance. -/
theorem Backed.liquidity_le {s : State} (h : Backed s) {id : String} {m : Mandate}
    (hm : s.mandates[id]? = some m) :
    m.liquidity ≤ (s.accountAt m.lender).balances.usdt0.reserved.toNat := by
  rw [h.reserved]
  have hle := le_totalMandates (f := fun m' => if m'.lender = m.lender then m'.liquidity else 0) hm
  rwa [if_pos rfl] at hle

/-! ### Accounts and mandates move, loans do not -/

/-- One mandate, where no loan changes: it has lent the same, and is empty if it is inactive. -/
def Mandate.SameLoans (m m' : Mandate) : Prop :=
  m'.allocatedPrincipal = m.allocatedPrincipal ∧
    ((m.active = false → m.available = 0) → m'.active = false → m'.available = 0)

theorem Mandate.SameLoans.refl (m : Mandate) : m.SameLoans m := ⟨rfl, fun h => h⟩

theorem Mandate.Drawn.sameLoans {key : String} {m m' : Mandate} (h : m.Drawn key m') :
    m.SameLoans m' := by
  refine ⟨h.allocated, ?_⟩
  intro hempty hinactive
  rw [← UInt64.toNat_inj]
  show m'.available.toNat = 0
  cases hm : m.active with
  | true =>
      have hzero := h.retired hm hinactive
      unfold Mandate.liquidity at hzero
      omega
  | false =>
      have hle := h.available
      rw [hempty hm] at hle
      simpa using hle

theorem Backed.sameLoans {s s' : State} (h : Backed s) (hpointed : Pointed s')
    (hloans : s'.loans = s.loans) (hdebt : s'.activeDebt = s.activeDebt)
    (hmandates : Pointwise (fun _ => Mandate.SameLoans) s.mandates s'.mandates)
    (hreserved : ∀ key, (s'.accountAt key).balances.usdt0.reserved.toNat + s.backing key =
      (s.accountAt key).balances.usdt0.reserved.toNat + s'.backing key)
    (hcollateral : ∀ key, (s'.accountAt key).balances.fxrp.reserved =
      (s.accountAt key).balances.fxrp.reserved) : Backed s' := by
  refine ⟨hpointed, ?_, ?_, ?_, ?_, ?_⟩
  · intro key
    have hmoved := hreserved key
    rw [h.reserved key] at hmoved
    omega
  · intro id m' hm'
    obtain ⟨m, hm, hsame, _⟩ := hmandates.get' hm'
    rw [hsame, h.allocated id m hm, State.lent, State.lent, totalOpen_congr hloans]
  · intro id m' hm' hinactive
    obtain ⟨m, hm, _, hempty⟩ := hmandates.get' hm'
    exact hempty (h.inactive id m hm) hinactive
  · rw [hdebt, h.debt, State.outstanding, State.outstanding, totalOpen_congr hloans]
  · intro key
    rw [hcollateral, h.collateral, State.pledged, State.pledged, totalOpen_congr hloans]

theorem backing_congr {s s' : State} (h : s'.mandates = s.mandates) (key : String) :
    s'.backing key = s.backing key := by
  rw [State.backing, State.backing, State.totalMandates, State.totalMandates, h]

/-- An account write with its mandates left alone keeps what is reserved. -/
theorem Backed.putAccount {s s' : State} {owner : String} {a : Account} (h : Backed s)
    (hpointed : Pointed s') (haccounts : s'.accounts = (s.putAccount owner a).accounts)
    (hmandates : s'.mandates = s.mandates) (hloans : s'.loans = s.loans)
    (hdebt : s'.activeDebt = s.activeDebt)
    (hreserved : a.balances.usdt0.reserved = (s.account owner).balances.usdt0.reserved)
    (hcollateral : a.balances.fxrp.reserved = (s.account owner).balances.fxrp.reserved) :
    Backed s' := by
  refine h.sameLoans hpointed hloans hdebt ?_ ?_ ?_
  · rw [hmandates]
    exact Pointwise.refl fun _ m _ => Mandate.SameLoans.refl m
  · intro key
    rw [backing_congr hmandates, accountAt_congr haccounts, accountAt_putAccount]
    by_cases hkey : toLower owner = key
    · rw [if_pos hkey, hreserved, account_eq, hkey]
    · rw [if_neg hkey]
  · intro key
    rw [accountAt_congr haccounts, accountAt_putAccount]
    by_cases hkey : toLower owner = key
    · rw [if_pos hkey, hcollateral, account_eq, hkey]
    · rw [if_neg hkey]

/-! ### A mandate is filed -/

/-- A mandate nobody has filed has lent nothing. -/
theorem Pointed.lent_eq_zero {s : State} (h : Pointed s) {id : String}
    (hnone : s.mandates[id]? = none) : s.lent id = 0 := by
  refine total_eq_zero fun key l hl => ?_
  by_cases hopen : l.isOpen = true
  · rw [if_pos hopen]
    refine trancheShare_eq_zero fun hmem => ?_
    obtain ⟨t, ht, hid⟩ := List.mem_map.mp hmem
    obtain ⟨m, hm, _⟩ := (h.wellformed.loan key l hl).2.drawn t ht
    rw [hid, hnone] at hm
    cases hm
  · rw [if_neg hopen]

theorem Backed.offered {s s' : State} {id : String} {m : Mandate} (h : Backed s)
    (hpointed : Pointed s') (hnone : s.mandates[id]? = none)
    (hmandates : s'.mandates = s.mandates.insert id m) (hloans : s'.loans = s.loans)
    (hdebt : s'.activeDebt = s.activeDebt) (hactive : m.active = true)
    (hallocated : m.allocatedPrincipal = 0)
    (hreserved : ∀ key, (s'.accountAt key).balances.usdt0.reserved.toNat =
      (s.accountAt key).balances.usdt0.reserved.toNat +
        if m.lender = key then m.available.toNat else 0)
    (hcollateral : ∀ key, (s'.accountAt key).balances.fxrp.reserved =
      (s.accountAt key).balances.fxrp.reserved) : Backed s' := by
  have hget : ∀ key : String, s'.mandates[key]? = if id = key then some m else s.mandates[key]? := by
    intro key
    rw [hmandates, getElem?_insert_eq]
  have hlent : ∀ key, s'.lent key = s.lent key := fun key => totalOpen_congr hloans _
  refine ⟨hpointed, ?_, ?_, ?_, ?_, ?_⟩
  · intro key
    have hliquidity : m.liquidity = m.available.toNat := by
      rw [Mandate.liquidity, hallocated]
      rfl
    have hback := total_insert_none (v := m)
      (f := fun _ m => if m.lender = key then m.liquidity else 0) hnone
    rw [← hmandates, hliquidity] at hback
    rw [hreserved, h.reserved]
    exact hback.symm
  · intro key m' hm'
    rw [hget] at hm'
    rw [hlent]
    by_cases hkey : id = key
    · rw [if_pos hkey] at hm'
      cases hm'
      rw [hallocated, ← hkey, h.pointed.lent_eq_zero hnone]
      rfl
    · rw [if_neg hkey] at hm'
      exact h.allocated key m' hm'
  · intro key m' hm' hinactive
    rw [hget] at hm'
    by_cases hkey : id = key
    · rw [if_pos hkey] at hm'
      cases hm'
      rw [hactive] at hinactive
      cases hinactive
    · rw [if_neg hkey] at hm'
      exact h.inactive key m' hm' hinactive
  · rw [hdebt, h.debt, State.outstanding, State.outstanding, totalOpen_congr hloans]
  · intro key
    rw [hcollateral, h.collateral, State.pledged, State.pledged, totalOpen_congr hloans]

/-! ### A loan is closed -/

/-- From `s` to `s'` the open loan `l` was repaid and closed. -/
structure LoanSettled (s s' : State) (id : String) (l : Loan) : Prop where
  found : s.loans[id]? = some l
  isOpen : l.isOpen = true
  loans : ∃ l', l'.isOpen = false ∧ s'.loans = s.loans.insert id l'
  mandates : Pointwise (fun id => Mandate.Repaid (trancheShare id l.tranches))
    s.mandates s'.mandates
  reserved : ∀ key, (s'.accountAt key).balances.usdt0.reserved.toNat + s.backing key =
    (s.accountAt key).balances.usdt0.reserved.toNat + s'.backing key
  debt : s.activeDebt.toNat = l.principal.toNat + s'.activeDebt.toNat
  collateral : ∀ key, (s.accountAt key).balances.fxrp.reserved.toNat =
    (s'.accountAt key).balances.fxrp.reserved.toNat +
      if l.borrower = key then l.collateralFXRP.toNat else 0

theorem Backed.settled {s s' : State} {id : String} {l : Loan} (h : Backed s)
    (hpointed : Pointed s') (hs : LoanSettled s s' id l) : Backed s' := by
  obtain ⟨l', hclosed, hloans⟩ := hs.loans
  have htotal : ∀ f : Loan → Nat, s'.totalOpen f + f l = s.totalOpen f := by
    intro f
    have hput : s'.totalOpen f = (s.putLoan id l').totalOpen f := totalOpen_congr hloans f
    rw [hput]
    exact totalOpen_putLoan_close hs.found hs.isOpen hclosed
  refine ⟨hpointed, ?_, ?_, ?_, ?_, ?_⟩
  · intro key
    have hmoved := hs.reserved key
    rw [h.reserved key] at hmoved
    omega
  · intro key m' hm'
    obtain ⟨m, hm, hrepaid⟩ := hs.mandates.get' hm'
    have hall := hrepaid.allocated
    have hlent := htotal fun l => trancheShare key l.tranches
    have hold := h.allocated key m hm
    unfold State.lent at hold ⊢
    omega
  · intro key m' hm' hinactive
    obtain ⟨m, hm, hrepaid⟩ := hs.mandates.get' hm'
    cases hactive : m.active with
    | true =>
        have hzero := hrepaid.retired hactive hinactive
        rw [← UInt64.toNat_inj]
        show m'.available.toNat = 0
        unfold Mandate.liquidity at hzero
        omega
    | false =>
        rw [hrepaid.cancelled hactive]
        exact h.inactive key m hm hactive
  · have hprincipal := htotal fun l => l.principal.toNat
    have hold := h.debt
    have hdebt := hs.debt
    unfold State.outstanding at hold ⊢
    omega
  · intro key
    have hpledged := htotal fun l => if l.borrower = key then l.collateralFXRP.toNat else 0
    have hold := h.collateral key
    have hmoved := hs.collateral key
    unfold State.pledged at hold ⊢
    omega

/-! ### A loan is opened -/

/-- From `s` to `s'` the loan `l` was funded and opened under the fresh `id`. -/
structure LoanFunded (s s' : State) (id : String) (l : Loan) : Prop where
  fresh : s.loans[id]? = none
  isOpen : l.isOpen = true
  loans : s'.loans = s.loans.insert id l
  mandates : Pointwise (fun id => Mandate.Lent .trapping (trancheShare id l.tranches))
    s.mandates s'.mandates
  reserved : ∀ key, (s'.accountAt key).balances.usdt0.reserved =
    (s.accountAt key).balances.usdt0.reserved
  debt : s'.activeDebt.toNat = s.activeDebt.toNat + l.principal.toNat
  collateral : ∀ key, (s'.accountAt key).balances.fxrp.reserved.toNat =
    (s.accountAt key).balances.fxrp.reserved.toNat +
      if l.borrower = key then l.collateralFXRP.toNat else 0

theorem Mandate.Lent.liquidity_eq {lent : Nat} {m m' : Mandate} (h : m.Lent .trapping lent m') :
    m'.liquidity = m.liquidity := by
  have hav := h.available
  have hall := h.allocated rfl
  unfold Mandate.liquidity
  omega

theorem backing_of_lent {s s' : State} {r : String → Nat}
    (h : Pointwise (fun id => Mandate.Lent .trapping (r id)) s.mandates s'.mandates)
    (key : String) : s'.backing key = s.backing key := by
  refine h.total_eq fun id m m' _ hlent => ?_
  beta_reduce
  rw [hlent.lender, hlent.liquidity_eq]

/-- Drawing on the mandates of one lender leaves what backs the others alone. -/
theorem backing_of_drawn {s s' : State} {drawer key : String}
    (h : Pointwise (fun _ => Mandate.Drawn drawer) s.mandates s'.mandates) (hne : drawer ≠ key) :
    s'.backing key = s.backing key := by
  refine h.total_eq fun id m m' _ hdrawn => ?_
  beta_reduce
  by_cases hlender : m.lender = key
  · rw [hdrawn.others fun h0 => hne (h0.symm.trans hlender)]
  · rw [hdrawn.lender, if_neg hlender, if_neg hlender]

theorem Backed.funded {s s' : State} {id : String} {l : Loan} (h : Backed s)
    (hpointed : Pointed s') (hs : LoanFunded s s' id l) : Backed s' := by
  have htotal : ∀ f : Loan → Nat, s'.totalOpen f = s.totalOpen f + f l := by
    intro f
    have hput : s'.totalOpen f = (s.putLoan id l).totalOpen f := totalOpen_congr hs.loans f
    rw [hput]
    exact totalOpen_putLoan_new hs.fresh hs.isOpen
  refine ⟨hpointed, ?_, ?_, ?_, ?_, ?_⟩
  · intro key
    rw [hs.reserved, h.reserved, backing_of_lent hs.mandates]
  · intro key m' hm'
    obtain ⟨m, hm, hlent⟩ := hs.mandates.get' hm'
    rw [hlent.allocated rfl, h.allocated key m hm, State.lent, State.lent, htotal]
  · intro key m' hm' hinactive
    obtain ⟨m, hm, hlent⟩ := hs.mandates.get' hm'
    have hzero := h.inactive key m hm (hlent.active.symm.trans hinactive)
    have hav := hlent.available
    rw [hzero] at hav
    rw [← UInt64.toNat_inj]
    show m'.available.toNat = 0
    simp at hav
    omega
  · rw [hs.debt, h.debt, State.outstanding, State.outstanding, htotal]
  · intro key
    rw [hs.collateral, h.collateral, State.pledged, State.pledged, htotal]

/-! ### A loan is brought up to date -/

theorem Backed.putLoan {s : State} {id : String} {l l' : Loan} (h : Backed s)
    (hl : s.loans[id]? = some l) (hopen : l.isOpen = true) (hterms : l.SameTerms l')
    (hopen' : l'.isOpen = true) : Backed (s.putLoan id l') := by
  have htotal : ∀ f : Loan → Nat, f l' = f l → (s.putLoan id l').totalOpen f = s.totalOpen f :=
    fun f hf => totalOpen_keep hl hopen hopen' hf
  refine ⟨h.pointed.quiet (quiet_putLoan hl hterms (hopen'.trans hopen.symm)), h.reserved, ?_,
    h.inactive, ?_, ?_⟩
  · intro key m hm
    rw [h.allocated key m hm, State.lent, State.lent, htotal]
    rw [hterms.tranches]
  · show s.activeDebt.toNat = _
    rw [h.debt, State.outstanding, State.outstanding, htotal]
    rw [hterms.principal]
  · intro key
    show (s.accountAt key).balances.fxrp.reserved.toNat = _
    rw [h.collateral, State.pledged, State.pledged, htotal]
    rw [hterms.borrower, hterms.collateralFXRP]

end QuietLine
