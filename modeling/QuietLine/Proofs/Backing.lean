/-
Every operation keeps the books.

For each operation on exact arithmetic: if the state it starts from is backed, so
is the state it answers, and what the ledger owes has moved by what the operation
is called for.  Repayment and liquidation are the same argument twice, with the
debit taken from the borrower in one and from the backstop in the other.
-/
import QuietLine.Proofs.Books

namespace QuietLine

open Outcome MapSum MapRel Std

/-! ### What an operation is called for -/

/-- The change of `U - ActiveDebt` an operation is called for. -/
def Operation.usdt0Delta : Operation → Int
  | .deposit _ asset amount _ => if asset = "USDT0" then amount.toNat else 0
  | .seedBackstop amount _ => amount.toNat
  | .withdraw _ asset amount .. => if asset = "USDT0" then -amount.toNat else 0
  | .withdrawFromMandate _ _ amount .. => -amount.toNat
  | .acceptQuote q .. => -q.amount.toNat
  | _ => 0

/-- The change of `F` an operation is called for. -/
def Operation.fxrpDelta : Operation → Int
  | .deposit _ asset amount _ => if asset = "FXRP" then amount.toNat else 0
  | .withdraw _ asset amount .. => if asset = "FXRP" then -amount.toNat else 0
  | _ => 0

theorem ofName_eq_some {name : String} {asset : Asset} (h : Asset.ofName name = some asset) :
    (asset = .fxrp ∧ name = "FXRP") ∨ (asset = .usdt0 ∧ name = "USDT0") := by
  unfold Asset.ofName at h
  by_cases hf : name = "FXRP"
  · rw [if_pos hf] at h
    cases h
    exact Or.inl ⟨rfl, hf⟩
  · rw [if_neg hf] at h
    by_cases hu : name = "USDT0"
    · rw [if_pos hu] at h
      cases h
      exact Or.inr ⟨rfl, hu⟩
    · rw [if_neg hu] at h
      cases h

/-! ### Claims after a write -/

/-- Sums over the accounts read every account, present or not. -/
theorem totalAccounts_eq_sum {s : State} {f : Account → Nat} (hf : ∀ o, f { owner := o } = 0)
    {S : Finset String} (hS : keySet s.accounts ⊆ S) :
    s.totalAccounts f = ∑ key ∈ S, f (s.accountAt key) := by
  unfold State.totalAccounts
  rw [total_eq_sum hS]
  refine Finset.sum_congr rfl fun key _ => ?_
  cases h : s.accounts[key]? with
  | none => rw [accountAt_of_none h, hf]; rfl
  | some a => rw [accountAt_of_some h]; rfl

theorem totalAccounts_eq {s s' : State} {f : Account → Nat} (hf : ∀ o, f { owner := o } = 0)
    (h : ∀ key, f (s'.accountAt key) = f (s.accountAt key)) :
    s'.totalAccounts f = s.totalAccounts f := by
  have hold : keySet s.accounts ⊆ keySet s'.accounts ∪ keySet s.accounts :=
    Finset.subset_union_right
  have hnew : keySet s'.accounts ⊆ keySet s'.accounts ∪ keySet s.accounts :=
    Finset.subset_union_left
  rw [totalAccounts_eq_sum hf hnew, totalAccounts_eq_sum hf hold]
  exact Finset.sum_congr rfl fun key _ => h key

section Writes

variable {s s' : State} {owner : String} {a : Account}

theorem claimsUSDT0_put (haccounts : s'.accounts = (s.putAccount owner a).accounts)
    (hreserve : s'.protocolReserve = s.protocolReserve)
    (hbackstop : s'.backstopUSDT0 = s.backstopUSDT0) :
    s'.claimsUSDT0 + (s.account owner).usdt0Held = s.claimsUSDT0 + a.usdt0Held := by
  have hput := totalAccounts_usdt0Held_putAccount s owner a
  unfold State.claimsUSDT0
  rw [totalAccounts_congr haccounts, hreserve, hbackstop]
  omega

theorem claimsFXRP_put (haccounts : s'.accounts = (s.putAccount owner a).accounts)
    (hbackstop : s'.backstopFXRP = s.backstopFXRP) :
    s'.claimsFXRP + (s.account owner).fxrpHeld = s.claimsFXRP + a.fxrpHeld := by
  have hput := totalAccounts_fxrpHeld_putAccount s owner a
  unfold State.claimsFXRP
  rw [totalAccounts_congr haccounts, hbackstop]
  omega

/-- Where one account is written and nothing else that counts, the account's change is the
ledger's. -/
theorem moved_put {u f : Int} (a : Account)
    (haccounts : s'.accounts = (s.putAccount owner a).accounts)
    (hreserve : s'.protocolReserve = s.protocolReserve)
    (hbackstop : s'.backstopUSDT0 = s.backstopUSDT0) (hfxrp : s'.backstopFXRP = s.backstopFXRP)
    (hdebt : s'.activeDebt = s.activeDebt)
    (hu : (a.usdt0Held : Int) = (s.account owner).usdt0Held + u)
    (hf : (a.fxrpHeld : Int) = (s.account owner).fxrpHeld + f) : Moved s s' u f := by
  have hclaims := claimsUSDT0_put haccounts hreserve hbackstop
  have hclaims' := claimsFXRP_put haccounts hfxrp
  refine ⟨?_, by omega, by omega⟩
  rw [hdebt]
  omega

end Writes

/-- What repayment pays out is interest, to lenders and to the reserve. -/
theorem RepaymentDistributed.claims {l : Loan} {interest : UInt64} {s s' : State}
    (h : RepaymentDistributed l interest s s') :
    s'.claimsUSDT0 = s.claimsUSDT0 + interest.toNat ∧ s'.claimsFXRP = s.claimsFXRP := by
  have hheld := h.held
  have hbackstop : s'.backstopUSDT0 = s.backstopUSDT0 := by rw [h.frame]
  have hfxrp : s'.backstopFXRP = s.backstopFXRP := by rw [h.frame]
  have hsame : s'.totalAccounts Account.fxrpHeld = s.totalAccounts Account.fxrpHeld := by
    refine totalAccounts_eq (fun _ => rfl) fun key => ?_
    rw [Account.fxrpHeld, (h.accounts key).fxrp, Account.fxrpHeld]
  refine ⟨?_, ?_⟩
  · unfold State.claimsUSDT0
    rw [hbackstop]
    omega
  · unfold State.claimsFXRP
    rw [hsame, hfxrp]

/-! ### Each operation -/

section Operations

variable {host : Host} {ctx : Context} {s s' : State} {owner id : String} {n : Nat}
  {amount : UInt64}

theorem openAccount_books (h : Backed s) (hop : openAccount owner id n s = .ok s') :
    Backed s' ∧ Moved s s' 0 0 := by
  have hpointed := h.pointed.quiet (openAccount_quiet hop)
  obtain ⟨_, _, rfl⟩ := openAccount_ok hop
  refine ⟨h.putAccount hpointed rfl rfl rfl rfl rfl rfl, ?_⟩
  exact moved_put _ rfl rfl rfl rfl rfl (Int.add_zero _).symm (Int.add_zero _).symm

theorem deposit_books {asset : Asset} (h : Backed s)
    (hop : deposit ctx owner asset amount id s = .ok s') :
    Backed s' ∧ Moved s s' (if asset = .usdt0 then amount.toNat else 0)
      (if asset = .fxrp then amount.toNat else 0) := by
  have hpointed := h.pointed.quiet (deposit_quiet hop)
  obtain ⟨_, bal', activities, hav, hres, rfl⟩ := deposit_ok hop
  cases asset with
  | fxrp =>
      refine ⟨h.putAccount hpointed rfl rfl rfl rfl rfl hres, ?_⟩
      refine moved_put _ rfl rfl rfl rfl rfl (Int.add_zero _).symm ?_
      simp only [Balances.get_fxrp] at hav hres
      show ((bal'.available.toNat + bal'.reserved.toNat : Nat) : Int) = _
      rw [hav, hres, if_pos rfl]
      unfold Account.fxrpHeld
      omega
  | usdt0 =>
      refine ⟨h.putAccount hpointed rfl rfl rfl rfl hres rfl, ?_⟩
      refine moved_put _ rfl rfl rfl rfl rfl ?_ (Int.add_zero _).symm
      simp only [Balances.get_usdt0] at hav hres
      show ((bal'.available.toNat + bal'.reserved.toNat : Nat) : Int) = _
      rw [hav, hres, if_pos rfl]
      unfold Account.usdt0Held
      omega

theorem seedBackstop_books (h : Backed s) (hop : seedBackstop amount id s = .ok s') :
    Backed s' ∧ Moved s s' amount.toNat 0 := by
  have hpointed := h.pointed.quiet (seedBackstop_quiet hop)
  obtain ⟨_, backstop, hback, rfl⟩ := seedBackstop_ok hop
  refine ⟨⟨hpointed, h.reserved, h.allocated, h.inactive, h.debt, h.collateral⟩, ?_⟩
  have hclaims : (State.markProcessed { s with backstopUSDT0 := backstop } id).claimsUSDT0 =
      s.claimsUSDT0 + amount.toNat := by
    show s.totalAccounts Account.usdt0Held + s.protocolReserve.toNat + backstop.toNat = _
    unfold State.claimsUSDT0
    omega
  refine ⟨?_, (Int.add_zero _).symm, by omega⟩
  show _ - (s.activeDebt.toNat : Int) = _
  omega

theorem setMandate_books {minAPR : UInt32} {termMask : UInt8} {cap : UInt64} (h : Backed s)
    (hop : setMandate .trapping ctx owner id amount minAPR termMask cap n s = .ok s') :
    Backed s' ∧ Moved s s' 0 0 := by
  obtain ⟨m₀, ho⟩ := setMandate_offering hop
  have hpointed := h.pointed.offering ho
  have howner := account_owner h.pointed.wellformed owner
  obtain ⟨hnone, _, bal', hav, hres, rfl⟩ := setMandate_ok hop
  have hres' := Arith.trapping_add_eq_ok.mp hres
  refine ⟨h.offered hpointed hnone rfl rfl rfl rfl rfl ?_ ?_, ?_⟩
  · intro key
    rw [accountAt_putMandate, accountAt_putAccount, howner]
    by_cases hkey : toLower owner = key
    · rw [if_pos hkey, if_pos hkey, ← hkey, ← account_eq]
      exact hres'
    · rw [if_neg hkey, if_neg hkey, Nat.add_zero]
  · intro key
    rw [accountAt_putMandate, accountAt_putAccount]
    by_cases hkey : toLower owner = key
    · rw [if_pos hkey, ← hkey, ← account_eq]
      rfl
    · rw [if_neg hkey]
  · refine moved_put _ rfl rfl rfl rfl rfl ?_ (Int.add_zero _).symm
    show ((bal'.available.toNat + bal'.reserved.toNat : Nat) : Int) = _
    unfold Account.usdt0Held
    omega

/-- One account and one mandate of its owner are written: what leaves the reserved balance leaves
the mandate. -/
theorem Backed.drawnOne {s' : State} {m : Mandate} (h : Backed s) (a : Account) (m' : Mandate)
    (hpointed : Pointed s') (hm : s.mandates[id]? = some m) (hlender : m.lender = toLower owner)
    (hsame : m'.lender = m.lender) (hloans : m.SameLoans m')
    (haccounts : s'.accounts = (s.putAccount owner a).accounts)
    (hmandates : s'.mandates = s.mandates.insert id m') (hloans' : s'.loans = s.loans)
    (hdebt : s'.activeDebt = s.activeDebt)
    (hreserved : a.balances.usdt0.reserved.toNat + m.liquidity =
      (s.account owner).balances.usdt0.reserved.toNat + m'.liquidity)
    (hcollateral : a.balances.fxrp.reserved = (s.account owner).balances.fxrp.reserved) :
    Backed s' := by
  refine h.sameLoans hpointed hloans' hdebt ?_ ?_ ?_
  · rw [hmandates]
    exact Pointwise.insert hm hloans fun _ m _ _ => Mandate.SameLoans.refl m
  · intro key
    have hback := backingIn_insert key m' hm hsame
    rw [backing_eq s', hmandates, backing_eq s, accountAt_congr haccounts, accountAt_putAccount]
    rw [hlender] at hback
    by_cases hkey : toLower owner = key
    · rw [if_pos hkey, if_pos hkey] at hback
      rw [if_pos hkey, ← hkey, ← account_eq, hkey]
      omega
    · rw [if_neg hkey, if_neg hkey] at hback
      rw [if_neg hkey]
      omega
  · intro key
    rw [accountAt_congr haccounts, accountAt_putAccount]
    by_cases hkey : toLower owner = key
    · rw [if_pos hkey, ← hkey, ← account_eq]
      exact hcollateral
    · rw [if_neg hkey]

theorem cancelMandate_books (h : Backed s)
    (hop : cancelMandate .trapping owner id n s = .ok s') : Backed s' ∧ Moved s s' 0 0 := by
  have hpointed := h.pointed.quiet (cancelMandate_quiet hop)
  obtain ⟨_, m, bal', hm, hlender, _, hres, hav, rfl⟩ := cancelMandate_ok hop
  have hres' := Arith.trapping_sub_eq_ok.mp hres
  have hav' := Arith.trapping_add_eq_ok.mp hav
  refine ⟨h.drawnOne _ { m with available := 0, active := false } hpointed hm hlender rfl
    ⟨rfl, fun _ _ => rfl⟩ rfl rfl rfl rfl ?_ rfl, ?_⟩
  · show bal'.reserved.toNat + (m.available.toNat + m.allocatedPrincipal.toNat) =
      _ + ((0 : UInt64).toNat + m.allocatedPrincipal.toNat)
    rw [hres']
    simp
    omega
  · refine moved_put _ rfl rfl rfl rfl rfl ?_ (Int.add_zero _).symm
    show ((bal'.available.toNat + bal'.reserved.toNat : Nat) : Int) = _
    unfold Account.usdt0Held
    omega

theorem withdrawFromMandate_books {mandateID : String} (h : Backed s)
    (hop : withdrawFromMandate .trapping ctx owner mandateID amount id n s = .ok s') :
    Backed s' ∧ Moved s s' (-amount.toNat) 0 := by
  have hpointed := h.pointed.quiet (withdrawFromMandate_quiet hop)
  obtain ⟨_, _, m, reserved, available, _, hm, hlender, hactive, hav, hres, rfl⟩ :=
    withdrawFromMandate_ok hop
  have hres' := Arith.trapping_sub_eq_ok.mp hres
  have hsame : Mandate.SameLoans m (Mandate.retireIfEmpty { m with available }) := by
    refine ⟨retireIfEmpty_allocated _, fun _ hinactive => ?_⟩
    have hzero := retireIfEmpty_liquidity rfl (by exact hactive) hinactive
    rw [← UInt64.toNat_inj]
    unfold Mandate.liquidity at hzero
    show _ = 0
    omega
  have hoffer : m.SameOffer (Mandate.retireIfEmpty { m with available }) :=
    retireIfEmpty_sameOffer rfl rfl rfl rfl rfl
  refine ⟨h.drawnOne _ _ hpointed hm hlender hoffer.lender hsame rfl rfl rfl rfl ?_ rfl, ?_⟩
  · rw [retireIfEmpty_liquidity_eq]
    show reserved.toNat + (m.available.toNat + m.allocatedPrincipal.toNat) =
      _ + (available.toNat + m.allocatedPrincipal.toNat)
    omega
  · refine moved_put _ rfl rfl rfl rfl rfl ?_ (Int.add_zero _).symm
    show (((s.account owner).balances.usdt0.available.toNat + reserved.toNat : Nat) : Int) = _
    unfold Account.usdt0Held
    omega

theorem withdraw_books {asset : Asset} (h : Backed s)
    (hop : withdraw .trapping ctx owner asset amount id n s = .ok s') :
    Backed s' ∧ Moved s s' (if asset = .usdt0 then -amount.toNat else 0)
      (if asset = .fxrp then -amount.toNat else 0) := by
  have hpointed := h.pointed.quiet (withdraw_quiet hop)
  have howner := account_owner h.pointed.wellformed owner
  obtain ⟨_, _, s₁, bal', activities, hdrawn, rfl⟩ := withdraw_ok hop
  have hframe := hdrawn.frame
  have hamount := hdrawn.amount rfl
  have hkey₁ : toLower (s.account owner).owner = toLower owner := by rw [howner, toLower_toLower]
  have haccounts : s₁.accounts = s.accounts := by rw [hframe]
  have hput : ∀ a : Account, (s₁.putAccount owner a).accounts = (s.putAccount owner a).accounts := by
    intro a
    show s₁.accounts.insert _ _ = s.accounts.insert _ _
    rw [haccounts]
  let a : Account := { s.account owner with
    nonce := (s.account owner).nonce + 1
    balances := (s.account owner).balances.set asset bal' }
  have hloans : s₁.loans = s.loans := by rw [hframe]
  have hdebt : s₁.activeDebt = s.activeDebt := by rw [hframe]
  have hreserve : s₁.protocolReserve = s.protocolReserve := by rw [hframe]
  have hbackstop : s₁.backstopUSDT0 = s.backstopUSDT0 := by rw [hframe]
  have hfxrp : s₁.backstopFXRP = s.backstopFXRP := by rw [hframe]
  cases asset with
  | fxrp =>
      obtain ⟨hmandates, hreserved⟩ := hdrawn.fxrp rfl
      refine ⟨h.putAccount hpointed (hput a) hmandates hloans hdebt rfl hreserved, ?_⟩
      refine moved_put a (hput a) hreserve hbackstop hfxrp hdebt (Int.add_zero _).symm ?_
      simp only [Balances.get_fxrp] at hamount
      show ((bal'.available.toNat + bal'.reserved.toNat : Nat) : Int) = _
      rw [if_pos rfl]
      unfold Account.fxrpHeld
      omega
  | usdt0 =>
      have hback := hdrawn.backing rfl
      simp only [Balances.get_usdt0] at hback hamount
      rw [hkey₁] at hback
      refine ⟨h.sameLoans hpointed hloans hdebt
        (hdrawn.mandates.mono fun _ _ _ hm => hm.sameLoans) ?_ ?_, ?_⟩
      · intro key
        show ((s₁.putAccount owner _).accountAt key).balances.usdt0.reserved.toNat + _ =
          _ + s₁.backing key
        rw [accountAt_putAccount]
        by_cases hkey : toLower owner = key
        · subst hkey
          rw [if_pos rfl, ← account_eq]
          exact hback.symm
        · rw [if_neg hkey, accountAt_congr haccounts]
          rw [backing_of_drawn hdrawn.mandates fun h0 => hkey (hkey₁.symm.trans h0)]
      · intro key
        show ((s₁.putAccount owner _).accountAt key).balances.fxrp.reserved = _
        rw [accountAt_putAccount]
        by_cases hkey : toLower owner = key
        · rw [if_pos hkey, ← hkey, ← account_eq]
          rfl
        · rw [if_neg hkey, accountAt_congr haccounts]
      · refine moved_put a (hput a) hreserve hbackstop hfxrp hdebt ?_ (Int.add_zero _).symm
        show ((bal'.available.toNat + bal'.reserved.toNat : Nat) : Int) = _
        rw [if_pos rfl]
        unfold Account.usdt0Held
        omega

end Operations

end QuietLine
