/-
Faults never happen.

Some answers of the ledger would mean that its own books are wrong: an amount
below zero, a loan drawn on a mandate that is not there, tranches that do not add
up, lenders paid more than the borrower pays.  From a state that is backed and
whose claims fit a `uint64`, no operation gives one of them, and none of the
additions and subtractions that the source leaves unchecked leaves the range.
-/
import QuietLine.Proofs.Lending

namespace QuietLine

open Outcome MapSum MapRel Std

/-- The answers that would mean the books are wrong. -/
def LedgerError.isFault : LedgerError → Bool
  | wraparound => true
  | arithmeticUnderflow => true
  | missingMandate => true
  | trancheConservation => true
  | lenderInterestExceeds => true
  | wrap _ cause => cause.isFault
  | _ => false

/-- `x` answers `Q`, or an error that is not a fault. -/
abbrev Faultless {α : Type} (x : Except LedgerError α) (Q : α → Prop) : Prop :=
  Post x Q fun e => e.isFault = false

namespace Faultless

variable {α : Type} {a b : UInt64}

theorem checkedAdd (a b : UInt64) :
    Faultless (checkedAdd a b) fun c => c.toNat = a.toNat + b.toNat := by
  refine Post.of_forall (fun c hc => checkedAdd_eq_ok.mp hc) ?_
  intro e he
  rw [checkedAdd_error he]
  rfl

theorem checkedSub (h : b.toNat ≤ a.toNat) :
    Faultless (checkedSub a b) fun c => a.toNat = b.toNat + c.toNat := by
  refine Post.of_forall (fun c hc => checkedSub_eq_ok.mp hc) ?_
  intro e he
  have := (checkedSub_error he).2
  omega

theorem add (h : a.toNat + b.toNat < 2 ^ 64) :
    Faultless (Arith.trapping.add a b) fun c => c.toNat = a.toNat + b.toNat := by
  refine Post.of_forall (fun c hc => Arith.trapping_add_eq_ok.mp hc) ?_
  intro e he
  have := Arith.trapping_add_error he
  omega

theorem sub (h : b.toNat ≤ a.toNat) :
    Faultless (Arith.trapping.sub a b) fun c => a.toNat = b.toNat + c.toNat := by
  refine Post.of_forall (fun c hc => Arith.trapping_sub_eq_ok.mp hc) ?_
  intro e he
  have := Arith.trapping_sub_error he
  omega

theorem mulDivBy (values denominators : List UInt64) (roundUp : Bool) :
    Faultless (mulDivBy values denominators roundUp) fun _ => True := by
  refine Post.of_forall (fun _ _ => trivial) ?_
  intro e he
  rcases mulDivBy_error he with rfl | rfl
  · rfl
  · rfl

theorem mulDiv (values : List UInt64) (denominator : UInt64) (roundUp : Bool) :
    Faultless (mulDiv values denominator roundUp) fun _ => True :=
  mulDivBy values [denominator] roundUp

theorem withContext {context : String} {x : Except LedgerError α} {Q : α → Prop}
    (h : Faultless x Q) : Faultless (withContext context x) Q := by
  cases x with
  | error e => exact h
  | ok a => exact h

theorem answering {err : LedgerError} {x : Except LedgerError α} (herr : err.isFault = false) :
    Faultless (answering err x) fun _ => True := by
  cases x with
  | error e => exact herr
  | ok a => exact trivial

theorem rejectIf {bad : Prop} [Decidable bad] {err : LedgerError} (herr : err.isFault = false) :
    Faultless (rejectIf bad err) fun _ => True := by
  by_cases h : bad
  · rw [rejectIf_of h]
    exact herr
  · rw [rejectIf_of_not h]
    exact trivial

theorem consumeNonce (a : Account) (n : Nat) :
    Faultless (consumeNonce a n) fun a' => a' = { a with nonce := a.nonce + 1 } :=
  Post.rejectIf (fun _ => rfl) fun _ => Post.pure rfl

theorem debt (l : Loan) : Faultless (debt l) fun due => l.principal.toNat ≤ due.toNat := by
  refine (checkedAdd _ _).mono fun due hdue => ?_
  omega

theorem accrue (l : Loan) (now : Int) : Faultless (accrue l now) fun l' => l.SameTerms l' := by
  have hwalk : Faultless (QuietLine.accrue l now) fun _ => True := by
    unfold QuietLine.accrue
    by_cases hnow : now ≤ l.lastAccruedAt
    · rw [if_pos hnow]
      exact Post.pure trivial
    · rw [if_neg hnow]
      refine Post.bind (R := fun _ => True) ?_ fun apr _ => ?_
      · unfold accrualRate
        by_cases hlate : now > int64 (l.maturesAt + 86400)
        · rw [if_pos hlate]
          exact (checkedAdd _ _).mono fun _ _ => trivial
        · rw [if_neg hlate]
          exact Post.ok trivial
      · refine Post.bind (mulDivBy _ _ _) fun _ _ => ?_
        exact Post.bind (checkedAdd _ _) fun _ _ => Post.pure trivial
  exact hwalk.strengthen fun _ hok _ => (accrue_sameTerms hok).1

theorem updateRisk (l : Loan) (price : UInt64) (now : Int) :
    Faultless (updateRisk l price now) fun l' => l.SameTerms l' ∧ l'.isOpen = true := by
  have hwalk : Faultless (QuietLine.updateRisk l price now) fun _ => True := by
    unfold QuietLine.updateRisk
    refine Post.bind (mulDiv _ _ _) fun value _ => ?_
    refine Post.bind (debt l) fun d _ => ?_
    by_cases hv : value = 0
    · rw [if_pos hv]
      exact Post.pure trivial
    · rw [if_neg hv]
      refine Post.bind (mulDiv _ _ _) fun ltv _ => ?_
      by_cases hl : ltv = 0
      · rw [if_pos hl]
        exact Post.pure trivial
      · rw [if_neg hl]
        refine Post.bind (mulDiv _ _ _) fun _ _ => ?_
        exact Post.bind (mulDivBy _ _ _) fun _ _ => Post.pure trivial
  exact hwalk.strengthen fun _ hok _ => updateRisk_sameTerms hok

end Faultless

/-! ### Repayment -/

/-- What the loop of `distributeRepayment` keeps: the tranches that are left can be paid. -/
structure Payable (l : Loan) (interest : UInt64) (ts : List Tranche) (d : Distribution) : Prop where
  agree : LendersAgree d.state ts
  found : ∀ t ∈ ts, ∃ m, d.state.mandates[t.mandateID]? = some m
  /-- What is left to pay is still allocated. -/
  allocated : ∀ (id : String) (m : Mandate), d.state.mandates[id]? = some m →
    trancheShare id ts ≤ m.allocatedPrincipal.toNat
  reserved : ∀ key, (d.state.accountAt key).balances.usdt0.reserved.toNat = d.state.backing key
  principal : d.principalReturned.toNat + trancheTotal ts = l.principal.toNat
  interest :
    d.lenderInterestDistributed.toNat * (l.principal.toNat * l.borrowerAPRBPS.toNat) +
      interest.toNat * weighted ts ≤ interest.toNat * (l.principal.toNat * l.borrowerAPRBPS.toNat)

theorem Payable.paid {l : Loan} {interest : UInt64} {t : Tranche} {rest : List Tranche}
    {d d' : Distribution} (h : Payable l interest (t :: rest) d)
    (hd : Distributed l interest [t] d d') : Payable l interest rest d' := by
  have hrest : LendersAgree d.state rest := fun t' ht' => h.agree t' (List.mem_cons_of_mem _ ht')
  refine ⟨hrest.of_repaid hd.mandates, ?_, ?_, ?_, ?_, ?_⟩
  · intro t' ht'
    obtain ⟨m, hm⟩ := h.found t' (List.mem_cons_of_mem _ ht')
    obtain ⟨m', hm', _⟩ := hd.mandates.get hm
    exact ⟨m', hm'⟩
  · intro id m' hm'
    obtain ⟨m, hm, hrepaid⟩ := hd.mandates.get' hm'
    have hle := h.allocated id m hm
    have hall := hrepaid.allocated
    simp only [trancheShare_cons, trancheShare_nil] at hle hall
    omega
  · intro key
    have hmoved := hd.reserved (fun t' ht' => h.agree t' (by simp_all)) key
    have hold := h.reserved key
    omega
  · have htotal := h.principal
    have hreturned := hd.principalReturned
    simp only [trancheTotal_cons, trancheTotal_nil] at htotal hreturned
    omega
  · have hle := h.interest
    have hbound := hd.interestBound
    simp only [weighted_cons, weighted_nil, Nat.add_zero, Nat.mul_add] at hle hbound
    omega

theorem returnPrincipal_faultless {m : Mandate} {lb : Balance} {principal : UInt64}
    (h : m.active = false → principal.toNat ≤ lb.reserved.toNat) :
    Faultless (returnPrincipal m lb principal) fun _ => True := by
  unfold returnPrincipal
  cases hactive : m.active with
  | true =>
      rw [if_pos rfl]
      exact Post.bind (Faultless.checkedAdd _ _).withContext fun _ _ => Post.pure trivial
  | false =>
      rw [if_neg Bool.false_ne_true]
      refine Post.bind (Faultless.checkedSub (h hactive)).withContext fun _ _ => ?_
      exact Post.bind (Faultless.checkedAdd _ _) fun _ _ => Post.pure trivial

theorem Payable.payTranche {l : Loan} {interest : UInt64} {t : Tranche} {rest : List Tranche}
    {d : Distribution} (h : Payable l interest (t :: rest) d) :
    Faultless (payTranche l interest d t) (Payable l interest rest) := by
  obtain ⟨m, hm⟩ := h.found t (by simp)
  have hlent : t.principal.toNat ≤ m.allocatedPrincipal.toNat := by
    have := h.allocated t.mandateID m hm
    simp only [trancheShare_cons, if_true] at this
    omega
  have hwalk : Faultless (QuietLine.payTranche l interest d t) fun _ => True := by
    unfold QuietLine.payTranche
    refine Post.bind (R := fun _ => True) ?_ fun li _ => ?_
    · unfold trancheInterest
      exact Post.bind (Faultless.mulDiv _ _ _) fun _ _ => Faultless.mulDiv _ _ _
    refine Post.orElse (fun hnone => by rw [hm] at hnone; cases hnone) fun m' hm' => ?_
    obtain rfl : m = m' := Option.some_injective _ (hm.symm.trans hm')
    refine Post.bind (Faultless.checkedSub hlent).withContext fun _ _ => ?_
    refine Post.bind (returnPrincipal_faultless fun _ => ?_) fun _ _ => ?_
    · -- the lender's reserved balance covers all its mandates, and this one covers the tranche
      have hlender : toLower t.lender = m.lender := h.agree t (by simp) m hm
      have hle := le_totalMandates (f := fun m' => if m'.lender = m.lender then m'.liquidity else 0)
        hm
      rw [if_pos rfl] at hle
      change m.liquidity ≤ d.state.backing m.lender at hle
      rw [← h.reserved, ← hlender, ← account_eq] at hle
      unfold Mandate.liquidity at hle
      omega
    refine Post.bind (Faultless.checkedAdd _ _) fun _ _ => ?_
    refine Post.bind (Faultless.checkedAdd _ _) fun _ _ => ?_
    refine Post.bind (Faultless.checkedAdd _ _) fun _ _ => ?_
    exact Post.bind (Faultless.checkedAdd _ _) fun _ _ => Post.pure trivial
  refine hwalk.strengthen fun d' hok _ => ?_
  obtain ⟨m, m', lb', li, hpaid⟩ := payTranche_ok hok
  exact h.paid hpaid.distributed

/-- **Repayment never faults**: the mandates are there, the tranches add up, and the lenders are not
paid more than the borrower pays. -/
theorem distributeRepayment_faultless {s : State} {l : Loan} {interest : UInt64}
    (hformed : l.Formed s) (hwell : Wellformed s)
    (hreserved : ∀ key, (s.accountAt key).balances.usdt0.reserved.toNat = s.backing key)
    (hallocated : ∀ (id : String) (m : Mandate), s.mandates[id]? = some m →
      trancheShare id l.tranches ≤ m.allocatedPrincipal.toNat) :
    Faultless (distributeRepayment s l interest) (RepaymentDistributed l interest s) := by
  have hstart : Payable l interest l.tranches { state := s } := by
    refine ⟨hformed.lendersAgree hwell, ?_, hallocated, hreserved, ?_, ?_⟩
    · intro t ht
      obtain ⟨m, hm, _⟩ := hformed.drawn t ht
      exact ⟨m, hm⟩
    · show 0 + _ = _
      rw [Nat.zero_add]
      exact hformed.total
    · show 0 * _ + _ ≤ _
      rw [Nat.zero_mul, Nat.zero_add]
      exact Nat.mul_le_mul_left _ hformed.rate
  have hloop := Post.foldlM (f := payTranche l interest) (Payable l interest)
    (fun _ _ _ h => h.payTranche) hstart
  have hwalk : Faultless (distributeRepayment s l interest) fun _ => True := by
    unfold distributeRepayment
    refine Post.bind hloop fun d hd => ?_
    have hprincipal := hd.principal
    have hinterest := hd.interest
    refine Post.rejectIf (fun hne => ?_) fun _ => ?_
    · refine absurd (UInt64.toNat_inj.mp ?_) hne
      simpa using hprincipal
    have hle : d.lenderInterestDistributed.toNat ≤ interest.toNat := by
      refine Nat.le_of_mul_le_mul_right ?_ (Nat.mul_pos hformed.positive hformed.rate_pos)
      simpa using hinterest
    obtain ⟨spread, hspread⟩ : ∃ c, checkedSub interest d.lenderInterestDistributed = .ok c := by
      cases hsub : checkedSub interest d.lenderInterestDistributed with
      | ok c => exact ⟨c, rfl⟩
      | error e => exact absurd (checkedSub_error hsub).2 (Nat.not_lt.mpr hle)
    rw [hspread]
    refine Post.bind (R := fun _ => True) (Post.ok trivial) fun _ _ => ?_
    exact Post.bind (Faultless.checkedAdd _ _) fun _ _ => Post.pure trivial
  exact hwalk.strengthen fun s' hok _ => distributeRepayment_ok hok

/-! ### States whose claims fit a `uint64` -/

/-- A backed state whose claims fit a `uint64`. -/
structure Sound (s : State) : Prop extends Backed s where
  usdt0_lt : s.claimsUSDT0 < 2 ^ 64
  fxrp_lt : s.claimsFXRP < 2 ^ 64

/-- No account holds more FXRP than fits a `uint64`, and the backstop can take all that is
reserved. -/
structure State.RoomFXRP (s : State) : Prop where
  fxrpHeld : ∀ key, (s.accountAt key).fxrpHeld < 2 ^ 64
  seizable : (s.totalAccounts fun a => a.balances.fxrp.reserved.toNat) + s.backstopFXRP.toNat < 2 ^ 64

/-- No account holds more of an asset than fits a `uint64`, and the backstop can take all the FXRP
that is reserved. -/
structure State.Room (s : State) : Prop extends State.RoomFXRP s where
  usdt0Held : ∀ key, (s.accountAt key).usdt0Held < 2 ^ 64

section Bounds

variable {s s₀ : State} {id owner : String} {l l₁ : Loan}

theorem Sound.usdt0Held_lt (h : Sound s) (key : String) :
    (s.accountAt key).usdt0Held < 2 ^ 64 := by
  have hle := le_totalAccounts_usdt0 s key
  have hlt := h.usdt0_lt
  unfold State.claimsUSDT0 at hlt
  omega

theorem Sound.room (h : Sound s) : s.Room := by
  have hlt := h.fxrp_lt
  unfold State.claimsFXRP at hlt
  refine ⟨⟨fun key => ?_, ?_⟩, h.usdt0Held_lt⟩
  · have hle := le_totalAccounts_fxrp s key
    omega
  · have hle : (s.totalAccounts fun a => a.balances.fxrp.reserved.toNat) ≤
        s.totalAccounts Account.fxrpHeld := total_mono fun _ _ _ => Nat.le_add_left _ _
    omega

theorem Backed.principal_le (h : Backed s) (hl : s.loans[id]? = some l)
    (hopen : l.isOpen = true) : l.principal.toNat ≤ s.activeDebt.toNat := by
  rw [h.debt]
  exact le_totalOpen (f := fun l => l.principal.toNat) hl hopen

theorem Backed.collateral_le (h : Backed s) (hl : s.loans[id]? = some l)
    (hopen : l.isOpen = true) :
    l.collateralFXRP.toNat ≤ (s.account l.borrower).balances.fxrp.reserved.toNat := by
  have hborrower := (h.pointed.wellformed.loan id l hl).2.borrower
  have hle := le_totalOpen
    (f := fun l' => if l'.borrower = l.borrower then l'.collateralFXRP.toNat else 0) hl hopen
  rw [if_pos rfl] at hle
  rw [account_eq, hborrower, h.collateral]
  exact hle

theorem Backed.share_le (h : Backed s) (hl : s.loans[id]? = some l) (hopen : l.isOpen = true)
    {mandateID : String} {m : Mandate} (hm : s.mandates[mandateID]? = some m) :
    trancheShare mandateID l.tranches ≤ m.allocatedPrincipal.toNat := by
  rw [h.allocated mandateID m hm]
  exact le_totalOpen (f := fun l => trancheShare mandateID l.tranches) hl hopen

/-- The loan of an account is open, and its own. -/
theorem Backed.own_loan (h : Backed s) (hl : s.loans[(s.account owner).loanID]? = some l) :
    l.isOpen = true ∧ l.borrower = toLower owner := by
  obtain ⟨l', hl', hopen, hborrower⟩ := h.pointed.account (toLower owner) (h.pointed.named hl)
  rw [← account_eq, hl] at hl'
  cases hl'
  exact ⟨hopen, hborrower⟩

/-- A repayment that starts from a backed state, once the payer's account is written. -/
theorem Backed.distribute (h : Backed s) (owner : String) (hl : s.loans[id]? = some l) (hopen : l.isOpen = true)
    (hterms : l.SameTerms l₁) (a : Account) (interest : UInt64)
    (howner : a.owner = (s.account owner).owner) (hloan : a.loanID = (s.account owner).loanID)
    (hreserved : a.balances.usdt0.reserved = (s.account owner).balances.usdt0.reserved)
    (haccounts : s₀.accounts = (s.putAccount owner a).accounts)
    (hmandates : s₀.mandates = s.mandates) (hloans : s₀.loans = s.loans) :
    Faultless (distributeRepayment s₀ l₁ interest) (RepaymentDistributed l₁ interest s₀) := by
  have hquiet : Quiet s s₀ := by
    refine Quiet.of_holders ?_ hmandates hloans
    exact (sameHolders_putAccount howner hloan).trans (SameHolders.of_accounts haccounts)
  have hformed := (h.pointed.wellformed.loan id l hl).2.sameTerms hterms
  refine distributeRepayment_faultless (hformed.mandates fun _ _ hm => hquiet.mandates.get hm)
    (h.pointed.wellformed.calm (.quiet hquiet)) ?_ ?_
  · intro key
    rw [backing_congr hmandates, accountAt_congr haccounts, accountAt_putAccount, ← h.reserved]
    by_cases hkey : toLower owner = key
    · rw [if_pos hkey, hreserved, account_eq, hkey]
    · rw [if_neg hkey]
  · intro mandateID m hm
    rw [hmandates] at hm
    rw [hterms.tranches]
    exact h.share_le hl hopen hm

end Bounds

/-! ### Each operation -/

section Operations

variable {host : Host} {ctx : Context} {s : State} {owner id : String} {n : Nat} {amount : UInt64}

theorem liquidateInState_faultless {l : Loan} (h : Backed s) (hroom : s.RoomFXRP)
    (hl : s.loans[id]? = some l) (hopen : l.isOpen = true) :
    Faultless (liquidateInState .trapping s id l) fun _ => True := by
  have hcollateral := h.collateral_le hl hopen
  have hprincipal := h.principal_le hl hopen
  have hheld := hroom.fxrpHeld (toLower l.borrower)
  have hseizable := hroom.seizable
  have hpart := le_totalAccounts (f := fun a => a.balances.fxrp.reserved.toNat) (fun _ => rfl) s
    (toLower l.borrower)
  rw [← account_eq] at hheld hpart
  unfold Account.fxrpHeld at hheld
  unfold liquidateInState
  refine Post.bind (Faultless.debt l) fun due hdue => ?_
  refine Post.rejectIf (fun _ => rfl) fun henough => ?_
  refine Post.bind (Faultless.mulDivBy _ _ _) fun seize _ => ?_
  have hseize : (if seize > l.collateralFXRP then l.collateralFXRP else seize).toNat ≤
      l.collateralFXRP.toNat := (take_le_both rfl).2
  generalize (if seize > l.collateralFXRP then l.collateralFXRP else seize) = seize at hseize ⊢
  dsimp only
  refine Post.bind (Faultless.sub (toNat_le_of_not_lt henough)) fun backstopUSDT0 _ => ?_
  refine Post.bind (Faultless.add (by omega)) fun backstopFXRP _ => ?_
  refine Post.bind (Faultless.sub hcollateral) fun reserved hreserved => ?_
  refine Post.bind (Faultless.sub hseize) fun freed hfreed => ?_
  refine Post.bind (Faultless.add (by omega)) fun available _ => ?_
  refine Post.bind (Faultless.checkedSub hdue) fun interest _ => ?_
  let a : Account := { s.account l.borrower with
    balances := (s.account l.borrower).balances.set .fxrp { available, reserved } }
  refine Post.bind (h.distribute l.borrower hl hopen (Loan.SameTerms.refl l) a interest
    rfl rfl rfl rfl rfl rfl) fun s₁ hdist => ?_
  have hdebt : s₁.activeDebt = s.activeDebt := by rw [hdist.frame]; rfl
  refine Post.bind (Faultless.sub (by rw [hdebt]; exact hprincipal)) fun _ _ => ?_
  exact Post.pure trivial

theorem repay_faultless (h : Backed s) (hroom : s.RoomFXRP) :
    Faultless (repay .trapping ctx owner amount id n s) fun _ => True := by
  have hheld := hroom.fxrpHeld (toLower owner)
  rw [← account_eq] at hheld
  unfold Account.fxrpHeld at hheld
  unfold repay
  refine Post.rejectIf (fun _ => rfl) fun _ => ?_
  refine Post.bind (Faultless.consumeNonce _ _) fun a ha => ?_
  subst ha
  refine Post.orElse (fun _ => rfl) fun l hl => ?_
  obtain ⟨hopen, hborrower⟩ := h.own_loan hl
  have hcollateral := h.collateral_le hl hopen
  have hprincipal := h.principal_le hl hopen
  rw [hborrower, account_eq, toLower_toLower, ← account_eq] at hcollateral
  refine Post.bind (Faultless.accrue l ctx.now) fun l₁ hterms => ?_
  refine Post.bind (Faultless.debt l₁) fun due hdue => ?_
  refine Post.rejectIf (fun _ => rfl) fun _ => ?_
  refine Post.rejectIf (fun _ => rfl) fun henough => ?_
  refine Post.bind (Faultless.sub (toNat_le_of_not_lt henough)) fun available _ => ?_
  refine Post.bind (Faultless.checkedSub hdue) fun interest _ => ?_
  let a : Account := { s.account owner with
    nonce := (s.account owner).nonce + 1
    balances := (s.account owner).balances.set .usdt0
      { (s.account owner).balances.usdt0 with available } }
  refine Post.bind (h.distribute owner hl hopen hterms a interest rfl rfl rfl rfl rfl rfl)
    fun s₁ hdist => ?_
  have hdebt : s₁.activeDebt = s.activeDebt := by rw [hdist.frame]; rfl
  have hfxrp : (s₁.account owner).balances.fxrp = (s.account owner).balances.fxrp := by
    rw [account_eq, (hdist.accounts (toLower owner)).fxrp, accountAt_putAccount, if_pos rfl]
    rfl
  refine Post.bind (Faultless.sub ?_) fun _ _ => ?_
  · rw [hfxrp, hterms.collateralFXRP]
    exact hcollateral
  refine Post.bind (Faultless.add ?_) fun _ _ => ?_
  · rw [hfxrp, hterms.collateralFXRP]
    omega
  refine Post.bind (Faultless.sub ?_) fun _ _ => ?_
  · rw [hdebt, hterms.principal]
    exact hprincipal
  exact Post.pure trivial

/-- Settling a liquidatable loan in the risk loop. -/
theorem tickLoan_faultless {price : Price} (h : Backed s) (hroom : s.RoomFXRP) :
    Faultless (tickLoan .trapping ctx price s id) fun _ => True := by
  unfold tickLoan
  cases hl : s.loans[id]? with
  | none => exact Post.ok trivial
  | some l =>
      by_cases hopen : l.isOpen = true
      · simp only [if_pos hopen]
        refine Post.bind (Faultless.accrue l ctx.now) fun l₁ hterms => ?_
        refine Post.bind (Faultless.updateRisk l₁ _ _) fun l₂ hrisk => ?_
        obtain ⟨hterms', hopen₂⟩ := hrisk
        refine Post.bind (Faultless.debt l₂) fun due _ => ?_
        have hupdate := h.putLoan hl hopen (hterms.trans hterms') hopen₂
        have hl₂ : (s.putLoan id l₂).loans[id]? = some l₂ := by rw [putLoan_get, if_pos rfl]
        split
        · exact liquidateInState_faultless hupdate ⟨hroom.fxrpHeld, hroom.seizable⟩ hl₂ hopen₂
        · exact Post.pure trivial
      · simp only [if_neg hopen]
        exact Post.ok trivial

theorem Sound.moved {s' : State} {u f : Int} (_h : Sound s) (hbacked : Backed s')
    (hmoved : Moved s s' u f) (hu : s.claimsUSDT0 + max u 0 < 2 ^ 64)
    (hf : s.claimsFXRP + f < 2 ^ 64) : Sound s' := by
  have hbound := hmoved.bound
  have hheld := hmoved.held
  exact ⟨hbacked, by omega, by omega⟩

/-- A liquidation hands on what was reserved. -/
theorem liquidateInState_room {l : Loan} {s' : State} (hroom : s.RoomFXRP)
    (hop : liquidateInState .trapping s id l = .ok s') : s'.RoomFXRP := by
  obtain ⟨due, interest, seize, backstopUSDT0, backstopFXRP, freed, fxrp', s₁, activeDebt, _, _, _,
    hfreed, hbackfx, hfx, hfx', hdist, _, rfl⟩ := liquidateInState_ok hop
  have hbackfx := Arith.trapping_add_eq_ok.mp hbackfx
  have hfx := Arith.trapping_sub_eq_ok.mp hfx
  have hfx' := Arith.trapping_add_eq_ok.mp hfx'
  let a : Account := { s.account l.borrower with
    balances := (s.account l.borrower).balances.set .fxrp fxrp' }
  have hfxrp : ∀ key, (((s₁.putAccount l.borrower { s₁.account l.borrower with
        loanID := "" }).accountAt key).balances).fxrp =
      ((s.putAccount l.borrower a).accountAt key).balances.fxrp := by
    intro key
    have hcredited : (s₁.accountAt key).balances.fxrp =
        ((s.putAccount l.borrower a).accountAt key).balances.fxrp := (hdist.accounts key).fxrp
    rw [← hcredited, accountAt_putAccount]
    by_cases hkey : toLower l.borrower = key
    · rw [if_pos hkey, ← hkey, account_eq]
    · rw [if_neg hkey]
  refine ⟨fun key => ?_, ?_⟩
  · have hheld := hroom.fxrpHeld key
    show (((s₁.putAccount l.borrower _).accountAt key).balances.fxrp.available.toNat +
      ((s₁.putAccount l.borrower _).accountAt key).balances.fxrp.reserved.toNat) < _
    rw [hfxrp, accountAt_putAccount]
    by_cases hkey : toLower l.borrower = key
    · rw [if_pos hkey]
      rw [← hkey, ← account_eq] at hheld
      unfold Account.fxrpHeld at hheld
      show fxrp'.available.toNat + fxrp'.reserved.toNat < _
      omega
    · rw [if_neg hkey]
      exact hheld
  · have hseizable := hroom.seizable
    have hput := totalAccounts_putAccount (f := fun a => a.balances.fxrp.reserved.toNat)
      (fun _ => rfl) s l.borrower a
    have htotal := totalAccounts_eq (f := fun a => a.balances.fxrp.reserved.toNat) (fun _ => rfl)
      fun key => congrArg (fun b : Balance => b.reserved.toNat) (hfxrp key)
    show (State.totalAccounts (s₁.putAccount l.borrower _) _) + s₁.backstopFXRP.toNat < _
    rw [htotal]
    have hback : s₁.backstopFXRP = backstopFXRP := by rw [hdist.frame]; rfl
    rw [hback]
    change _ + (s.account l.borrower).balances.fxrp.reserved.toNat = _ + fxrp'.reserved.toNat at hput
    omega

theorem tickLoan_room {price : Price} {s' : State} (hroom : s.RoomFXRP)
    (hop : tickLoan .trapping ctx price s id = .ok s') : s'.RoomFXRP := by
  rcases tickLoan_ok hop with rfl | ⟨l, l₁, _, _, _, _, rfl | ⟨_, hliq⟩⟩
  · exact hroom
  · exact ⟨hroom.fxrpHeld, hroom.seizable⟩
  · have hroom' : (s.putLoan id l₁).RoomFXRP := ⟨hroom.fxrpHeld, hroom.seizable⟩
    exact liquidateInState_room hroom' hliq

theorem riskTick_faultless {price : Price} (h : Backed s) (hroom : s.RoomFXRP) :
    Faultless (riskTick .trapping ctx price id s) fun _ => True := by
  unfold riskTick
  refine Post.rejectIf (fun _ => rfl) fun _ => ?_
  have hstart : Backed { s with price } := h.of_parts rfl rfl rfl rfl
  refine Post.bind (Post.foldlM (fun _ s => Backed s ∧ s.RoomFXRP) ?_
    ⟨hstart, hroom.fxrpHeld, hroom.seizable⟩) fun _ _ => Post.pure trivial
  rintro id rest s ⟨h, hroom⟩
  have hwalk : Faultless (tickLoan .trapping ctx price s id) fun _ => True :=
    tickLoan_faultless h hroom
  exact hwalk.strengthen fun s' hok _ => ⟨(tickLoan_books h hok).1, tickLoan_room hroom hok⟩

theorem liquidate_faultless {loanID : String} (h : Backed s) (hroom : s.RoomFXRP) :
    Faultless (liquidate .trapping loanID id s) fun _ => True := by
  unfold liquidate
  refine Post.rejectIf (fun _ => rfl) fun _ => ?_
  refine Post.orElse (fun _ => rfl) fun l hl => ?_
  refine Post.rejectIf (fun _ => rfl) fun hstatus => ?_
  have hopen : l.isOpen = true := by simp [Loan.isOpen, not_not.mp hstatus]
  exact Post.bind (liquidateInState_faultless h hroom hl hopen) fun _ _ => Post.pure trivial

theorem setMandate_faultless {minAPR : UInt32} {termMask : UInt8} {cap : UInt64} (hroom : s.Room) :
    Faultless (setMandate .trapping ctx owner id amount minAPR termMask cap n s) fun _ => True := by
  have hheld := hroom.usdt0Held (toLower owner)
  rw [← account_eq] at hheld
  unfold Account.usdt0Held at hheld
  unfold setMandate
  refine Post.rejectIf (fun _ => rfl) fun _ => ?_
  refine Post.bind (Faultless.consumeNonce _ _) fun a ha => ?_
  subst ha
  refine Post.rejectIf (fun _ => rfl) fun henough => ?_
  have henough := toNat_le_of_not_lt henough
  refine Post.bind (Faultless.sub henough) fun _ _ => ?_
  dsimp only at henough ⊢
  exact Post.bind (Faultless.add (by omega)) fun _ _ => Post.pure trivial

/-- A mandate of an account is within its reserved balance. -/
theorem Backed.available_le (h : Backed s) {m : Mandate} (hm : s.mandates[id]? = some m)
    (hlender : m.lender = toLower owner) :
    m.available.toNat ≤ (s.account owner).balances.usdt0.reserved.toNat := by
  have hle := h.liquidity_le hm
  rw [hlender, ← account_eq] at hle
  unfold Mandate.liquidity at hle
  omega

theorem cancelMandate_faultless (h : Backed s) (hroom : s.Room) :
    Faultless (cancelMandate .trapping owner id n s) fun _ => True := by
  have hheld := hroom.usdt0Held (toLower owner)
  rw [← account_eq] at hheld
  unfold Account.usdt0Held at hheld
  unfold cancelMandate
  refine Post.orElse (fun _ => rfl) fun m hm => ?_
  refine Post.rejectIf (fun _ => rfl) fun hown => ?_
  have hle := h.available_le hm (not_not.mp fun h0 => hown (Or.inl h0))
  refine Post.bind (Faultless.consumeNonce _ _) fun a ha => ?_
  subst ha
  refine Post.bind (Faultless.sub hle) fun _ _ => ?_
  dsimp only
  exact Post.bind (Faultless.add (by omega)) fun _ _ => Post.pure trivial

theorem withdrawFromMandate_faultless {mandateID : String} (h : Backed s) :
    Faultless (withdrawFromMandate .trapping ctx owner mandateID amount id n s) fun _ => True := by
  unfold withdrawFromMandate
  refine Post.rejectIf (fun _ => rfl) fun _ => ?_
  refine Post.orElse (fun _ => rfl) fun m hm => ?_
  refine Post.rejectIf (fun _ => rfl) fun hown => ?_
  have hle := h.available_le hm (not_not.mp fun h0 => hown (Or.inl h0))
  refine Post.bind (Faultless.consumeNonce _ _) fun a ha => ?_
  subst ha
  refine Post.rejectIf (fun _ => rfl) fun henough => ?_
  have henough := toNat_le_of_not_lt henough
  refine Post.bind (Faultless.sub (henough.trans hle)) fun _ _ => ?_
  exact Post.bind (Faultless.sub henough) fun _ _ => Post.pure trivial

/-- The loop of `Withdraw`: what the caller has reserved is what its mandates hold. -/
theorem drawMandates_faultless {key : String} {ids : List String} {d : Drawing}
    (hown : OwnedBy key d.mandates ids) (hreserved : d.reserved.toNat = backingIn d.mandates key) :
    Faultless (ids.foldlM (drawMandate .trapping) d) fun _ => True := by
  refine (Post.foldlM (fun ids d => OwnedBy key d.mandates ids ∧
    d.reserved.toNat = backingIn d.mandates key) ?_ ⟨hown, hreserved⟩).mono fun _ _ => trivial
  rintro id rest d ⟨hown, hreserved⟩
  have hwalk : Faultless (drawMandate .trapping d id) fun _ => True := by
    unfold drawMandate
    cases hm : d.mandates[id]? with
    | none => exact Post.ok trivial
    | some m =>
        dsimp only
        by_cases hskip : d.remaining = 0 ∨ m.active = false ∨ m.available = 0
        · rw [if_pos hskip]
          exact Post.ok trivial
        · rw [if_neg hskip]
          obtain ⟨hle, hle'⟩ := take_le_both (a := m.available) (b := d.remaining) rfl
          generalize (if m.available > d.remaining then d.remaining else m.available) = take
            at hle hle' ⊢
          have hback := le_total (f := fun _ m => if m.lender = key then m.liquidity else 0) hm
          rw [if_pos (hown id (by simp) m hm)] at hback
          change m.liquidity ≤ backingIn d.mandates key at hback
          unfold Mandate.liquidity at hback
          refine Post.bind (Faultless.sub hle) fun _ _ => ?_
          refine Post.bind (Faultless.sub (by omega)) fun _ _ => ?_
          exact Post.bind (Faultless.sub hle') fun _ _ => Post.pure trivial
  refine hwalk.strengthen fun d' hok _ => ?_
  have hdrawn := drawMandate_ok (hown id (by simp)) hok
  have hback := hdrawn.backing
  have hres := hdrawn.reserved rfl
  exact ⟨hown.tail.of_sameOffer (hdrawn.mandates.mono fun _ _ _ h => h.toSameOffer), by omega⟩

theorem withdraw_faultless {asset : Asset} (h : Backed s) :
    Faultless (withdraw .trapping ctx owner asset amount id n s) fun _ => True := by
  have howner := account_owner h.pointed.wellformed owner
  unfold withdraw
  refine Post.rejectIf (fun _ => rfl) fun _ => ?_
  refine Post.bind (Faultless.consumeNonce _ _) fun a ha => ?_
  subst ha
  refine Post.bind (R := fun _ => True) ?_ fun _ _ => Post.pure trivial
  unfold drawBalance
  by_cases henough : ((s.account owner).balances.get asset).available ≥ amount
  · simp only [if_pos henough]
    exact Post.bind (Faultless.sub (UInt64.le_iff_toNat_le.mp henough)) fun _ _ => Post.pure trivial
  · simp only [if_neg henough]
    have hlt := UInt64.lt_iff_toNat_lt.mp (UInt64.not_le.mp henough)
    refine Post.bind (Faultless.sub hlt.le) fun _ _ => ?_
    refine Post.rejectIf (fun _ => rfl) fun hasset => ?_
    obtain rfl := not_not.mp hasset
    refine Post.bind (drawMandates_faultless (mandatesByCreatedAt_owned _ _ _) ?_) fun _ _ => ?_
    · show (s.account owner).balances.usdt0.reserved.toNat = _
      rw [howner, toLower_toLower, account_eq]
      exact h.reserved (toLower owner)
    · exact Post.rejectIf (fun _ => rfl) fun _ => Post.pure trivial

/-- The loop of `AcceptQuote`: a mandate lends what it has. -/
theorem allocateTranches_faultless {ts : List Tranche}
    (h : ∀ (id : String) (m : Mandate), s.mandates[id]? = some m → m.liquidity < 2 ^ 64) :
    Faultless (ts.foldlM (allocateTranche .trapping) s) fun _ => True := by
  refine (Post.foldlM (fun _ (s : State) => ∀ (id : String) (m : Mandate),
    s.mandates[id]? = some m → m.liquidity < 2 ^ 64) ?_ h).mono fun _ _ => trivial
  intro t rest s h
  have hwalk : Faultless (allocateTranche .trapping s t) fun _ => True := by
    unfold allocateTranche
    refine Post.orElse (fun _ => rfl) fun m hm => ?_
    refine Post.rejectIf (fun _ => rfl) fun henough => ?_
    have henough := toNat_le_of_not_lt henough
    have hlt := h t.mandateID m hm
    unfold Mandate.liquidity at hlt
    refine Post.bind (Faultless.sub henough) fun _ _ => ?_
    exact Post.bind (Faultless.add (by omega)) fun _ _ => Post.pure trivial
  refine hwalk.strengthen fun s' hok _ id m' hm' => ?_
  obtain ⟨m, hm, hlent⟩ := (allocateTranche_ok hok).mandates.get' hm'
  rw [hlent.liquidity_eq]
  exact h id m hm

theorem acceptQuote_faultless {q : Quote} {loanID : String} {observed : Option Price}
    (h : Backed s) (hroom : s.RoomFXRP) :
    Faultless (acceptQuote .trapping host ctx q loanID n observed s) fun _ => True := by
  unfold acceptQuote
  refine Post.rejectIf (fun _ => rfl) fun _ => ?_
  have hprice : Faultless (observePrice observed ctx.now s) fun s' => ∃ price, s' = { s with price } := by
    have hwalk : Faultless (observePrice observed ctx.now s) fun _ => True := by
      cases observed with
      | none => exact Post.ok trivial
      | some price => exact Post.rejectIf (fun _ => rfl) fun _ => Post.pure trivial
    exact hwalk.strengthen fun _ hok _ => observePrice_ok hok
  refine Post.bind hprice fun s₀ hs₀ => ?_
  obtain ⟨price, rfl⟩ := hs₀
  have hheld := hroom.fxrpHeld (toLower q.borrower)
  rw [← account_eq] at hheld
  unfold Account.fxrpHeld at hheld
  refine Post.bind (R := fun _ => True) ?_ fun _ _ => ?_
  · unfold requireSameQuote
    exact Post.bind (Faultless.answering rfl) fun _ _ => Faultless.rejectIf rfl
  refine Post.bind (Faultless.consumeNonce _ _) fun a ha => ?_
  subst ha
  refine Post.rejectIf (fun _ => rfl) fun _ => ?_
  refine Post.rejectIf (fun _ => rfl) fun henough => ?_
  have henough := toNat_le_of_not_lt henough
  refine Post.bind (Faultless.sub henough) fun _ _ => ?_
  refine Post.bind (Faultless.add ?_) fun _ _ => ?_
  · change q.collateralFXRP.toNat ≤ (s.account q.borrower).balances.fxrp.available.toNat at henough
    show (s.account q.borrower).balances.fxrp.reserved.toNat + _ < _
    omega
  refine Post.bind (allocateTranches_faultless ?_) fun _ _ => ?_
  · intro id m hm
    have hle := h.liquidity_le hm
    exact Nat.lt_of_le_of_lt hle (UInt64.toNat_lt _)
  refine Post.bind (Faultless.updateRisk _ _ _) fun _ _ => ?_
  exact Post.bind (Faultless.checkedAdd _ _) fun _ _ => Post.pure trivial

end Operations

/-- **No operation faults** in a backed state with room. -/
theorem body_faultless {host : Host} {ctx : Context} {s : State} (h : Backed s) (hroom : s.Room)
    (op : Operation) : Faultless (op.body .trapping host ctx s) fun _ => True := by
  cases op with
  | openAccount owner id nonce =>
      refine Post.rejectIf (fun _ => rfl) fun _ => ?_
      exact Post.bind (Faultless.consumeNonce _ _) fun _ _ => Post.pure trivial
  | deposit owner name amount id =>
      refine Post.orElse (fun _ => rfl) fun asset _ => ?_
      refine Post.rejectIf (fun _ => rfl) fun _ => ?_
      exact Post.rejectIf (fun _ => rfl) fun _ => Post.pure trivial
  | setMandate owner id amount minAPR termMask cap nonce => exact setMandate_faultless hroom
  | cancelMandate owner id nonce => exact cancelMandate_faultless h hroom
  | acceptQuote q loanID nonce observed => exact acceptQuote_faultless h hroom.toRoomFXRP
  | riskTick price id => exact riskTick_faultless h hroom.toRoomFXRP
  | repay owner amount id nonce => exact repay_faultless h hroom.toRoomFXRP
  | liquidate loanID id => exact liquidate_faultless h hroom.toRoomFXRP
  | seedBackstop amount id =>
      refine Post.rejectIf (fun _ => rfl) fun _ => ?_
      exact Post.rejectIf (fun _ => rfl) fun _ => Post.pure trivial
  | withdraw owner name amount id nonce =>
      exact Post.orElse (fun _ => rfl) fun asset _ => withdraw_faultless h
  | withdrawFromMandate owner mandateID amount id nonce => exact withdrawFromMandate_faultless h

/-! ### The two arithmetics agree -/

section Twins

variable {host : Host} {ctx : Context} {s : State}

theorem liquidateInState_traps (id : String) (l : Loan) :
    Traps .wraparound (liquidateInState .trapping s id l) (liquidateInState .wrapping s id l) := by
  unfold liquidateInState
  refine Traps.bind_same fun _ => Traps.bind_same fun _ => Traps.bind_same fun _ => ?_
  refine Traps.bind (Arith.sub_traps _ _) fun _ => Traps.bind (Arith.add_traps _ _) fun _ => ?_
  refine Traps.bind (Arith.sub_traps _ _) fun _ => Traps.bind (Arith.sub_traps _ _) fun _ => ?_
  refine Traps.bind (Arith.add_traps _ _) fun _ => ?_
  refine Traps.bind_same fun _ => Traps.bind_same fun _ => ?_
  exact Traps.bind (Arith.sub_traps _ _) fun _ => Traps.refl _

theorem tickLoan_traps (price : Price) (s : State) (id : String) :
    Traps .wraparound (tickLoan .trapping ctx price s id) (tickLoan .wrapping ctx price s id) := by
  unfold tickLoan
  cases s.loans[id]? with
  | none => exact Traps.refl _
  | some l =>
      by_cases hopen : l.isOpen = true
      · simp only [if_pos hopen]
        refine Traps.bind_same fun _ => Traps.bind_same fun l₂ => Traps.bind_same fun due => ?_
        split
        · exact liquidateInState_traps _ _
        · exact Traps.refl _
      · simp only [if_neg hopen]
        exact Traps.refl _

theorem allocateTranche_traps (s : State) (t : Tranche) :
    Traps .wraparound (allocateTranche .trapping s t) (allocateTranche .wrapping s t) := by
  unfold allocateTranche
  refine Traps.bind_same fun _ => Traps.bind_same fun _ => ?_
  refine Traps.bind (Arith.sub_traps _ _) fun _ => ?_
  exact Traps.bind (Arith.add_traps _ _) fun _ => Traps.refl _

theorem drawMandate_traps (d : Drawing) (id : String) :
    Traps .wraparound (drawMandate .trapping d id) (drawMandate .wrapping d id) := by
  unfold drawMandate
  cases d.mandates[id]? with
  | none => exact Traps.refl _
  | some m =>
      dsimp only
      split
      · exact Traps.refl _
      · refine Traps.bind (Arith.sub_traps _ _) fun _ => ?_
        refine Traps.bind (Arith.sub_traps _ _) fun _ => ?_
        exact Traps.bind (Arith.sub_traps _ _) fun _ => Traps.refl _

theorem drawBalance_traps (a : Account) (asset : Asset) (amount : UInt64) :
    Traps .wraparound (drawBalance .trapping ctx.range s a asset amount)
      (drawBalance .wrapping ctx.range s a asset amount) := by
  unfold drawBalance
  by_cases henough : (a.balances.get asset).available ≥ amount
  · simp only [if_pos henough]
    exact Traps.bind (Arith.sub_traps _ _) fun _ => Traps.refl _
  · simp only [if_neg henough]
    refine Traps.bind (Arith.sub_traps _ _) fun _ => Traps.bind_same fun _ => ?_
    exact Traps.bind (Traps.foldlM drawMandate_traps _ _) fun _ => Traps.refl _

theorem repay_traps (owner : String) (amount : UInt64) (id : String) (n : Nat) :
    Traps .wraparound (repay .trapping ctx owner amount id n s)
      (repay .wrapping ctx owner amount id n s) := by
  unfold repay
  refine Traps.bind_same fun _ => Traps.bind_same fun a => Traps.bind_same fun l => ?_
  refine Traps.bind_same fun l₁ => Traps.bind_same fun due => ?_
  refine Traps.bind_same fun _ => Traps.bind_same fun _ => ?_
  refine Traps.bind (Arith.sub_traps _ _) fun _ => ?_
  refine Traps.bind_same fun _ => Traps.bind_same fun _ => ?_
  refine Traps.bind (Arith.sub_traps _ _) fun _ => Traps.bind (Arith.add_traps _ _) fun _ => ?_
  exact Traps.bind (Arith.sub_traps _ _) fun _ => Traps.refl _

/-- Exact arithmetic answers as the wrapping one of the source does, or stops where it wraps. -/
theorem body_traps (op : Operation) :
    Traps .wraparound (op.body .trapping host ctx s) (op.body .wrapping host ctx s) := by
  cases op with
  | openAccount owner id nonce => exact Traps.refl _
  | deposit owner name amount id => exact Traps.refl _
  | setMandate owner id amount minAPR termMask cap nonce =>
      refine Traps.bind_same fun _ => Traps.bind_same fun _ => Traps.bind_same fun _ => ?_
      refine Traps.bind (Arith.sub_traps _ _) fun _ => ?_
      exact Traps.bind (Arith.add_traps _ _) fun _ => Traps.refl _
  | cancelMandate owner id nonce =>
      refine Traps.bind_same fun _ => Traps.bind_same fun _ => Traps.bind_same fun _ => ?_
      refine Traps.bind (Arith.sub_traps _ _) fun _ => ?_
      exact Traps.bind (Arith.add_traps _ _) fun _ => Traps.refl _
  | acceptQuote q loanID nonce observed =>
      refine Traps.bind_same fun _ => Traps.bind_same fun _ => Traps.bind_same fun _ => ?_
      refine Traps.bind_same fun _ => Traps.bind_same fun _ => Traps.bind_same fun _ => ?_
      refine Traps.bind (Arith.sub_traps _ _) fun _ => Traps.bind (Arith.add_traps _ _) fun _ => ?_
      exact Traps.bind (Traps.foldlM allocateTranche_traps _ _) fun _ => Traps.refl _
  | riskTick price id =>
      refine Traps.bind_same fun _ => ?_
      exact Traps.bind (Traps.foldlM (tickLoan_traps price) _ _) fun _ => Traps.refl _
  | repay owner amount id nonce => exact repay_traps owner amount id nonce
  | liquidate loanID id =>
      refine Traps.bind_same fun _ => Traps.bind_same fun _ => Traps.bind_same fun _ => ?_
      exact Traps.bind (liquidateInState_traps _ _) fun _ => Traps.refl _
  | seedBackstop amount id => exact Traps.refl _
  | withdraw owner name amount id nonce =>
      refine Traps.bind_same fun asset => Traps.bind_same fun _ => Traps.bind_same fun _ => ?_
      exact Traps.bind (drawBalance_traps _ _ _) fun _ => Traps.refl _
  | withdrawFromMandate owner mandateID amount id nonce =>
      refine Traps.bind_same fun _ => Traps.bind_same fun _ => Traps.bind_same fun _ => ?_
      refine Traps.bind_same fun _ => Traps.bind_same fun _ => ?_
      refine Traps.bind (Arith.sub_traps _ _) fun _ => ?_
      exact Traps.bind (Arith.sub_traps _ _) fun _ => Traps.refl _

/-- **With room nothing wraps**: the source computes what exact arithmetic computes. -/
theorem Backed.body_eq (h : Backed s) (hroom : s.Room) (op : Operation) :
    op.body .trapping host ctx s = op.body .wrapping host ctx s := by
  refine (body_traps op).eq_of_ne fun hwrap => ?_
  have hfault := (body_faultless h hroom op).of_error hwrap
  cases hfault

theorem Sound.body_eq (h : Sound s) (op : Operation) :
    op.body .trapping host ctx s = op.body .wrapping host ctx s :=
  h.toBacked.body_eq h.room op

end Twins

end QuietLine
