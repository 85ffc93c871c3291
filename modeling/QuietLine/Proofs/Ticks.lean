/-
What a risk tick leaves.

The loop brings each open loan up to date and liquidates it while the backstop can pay
its debt.  The backstop only shrinks on the way, so a loan that was left open for want
of it could not be paid at the end either; and a loan that is up to date stays as it
is when the same tick comes again.
-/
import QuietLine.Proofs.Pointers

namespace QuietLine

open Outcome MapSum MapRel Std

/-! ### One loan -/

/-- A loan brought up to date: its interest at `now` and its status at `price`. -/
def assess (price : UInt64) (now : Int) (l : Loan) : Except LedgerError Loan := do
  let l ← accrue l now
  updateRisk l price now

section Assess

variable {l l' : Loan} {price : UInt64} {now : Int}

theorem assess_sameTerms (h : assess price now l = .ok l') : l.SameTerms l' ∧ l'.isOpen = true := by
  unfold assess at h
  rw [bind_eq_ok] at h
  obtain ⟨l₁, haccrue, hrisk⟩ := h
  obtain ⟨hterms, _⟩ := accrue_sameTerms haccrue
  obtain ⟨hterms', hopen⟩ := updateRisk_sameTerms hrisk
  exact ⟨hterms.trans hterms', hopen⟩

/-- An accrual brings a loan to `now`, and a second one does nothing. -/
theorem accrue_at (h : accrue l now = .ok l') :
    l'.lastAccruedAt = max l.lastAccruedAt now ∧ accrue l' now = .ok l' := by
  unfold accrue at h
  by_cases hnow : now ≤ l.lastAccruedAt
  · rw [if_pos hnow] at h
    cases h
    exact ⟨(max_eq_left hnow).symm, if_pos hnow⟩
  · rw [if_neg hnow] at h
    simp only [bind_eq_ok] at h
    obtain ⟨_, _, _, _, _, _, hl⟩ := h
    cases hl
    refine ⟨(max_eq_right (Int.not_le.mp hnow).le).symm, ?_⟩
    unfold accrue
    exact if_pos le_rfl

/-- The risk check writes its verdict and reads none of it. -/
theorem updateRisk_writes (h : updateRisk l price now = .ok l') :
    l' = { l with
      status := l'.status, lastHealthFactorBPS := l'.lastHealthFactorBPS
      liquidationPriceE6 := l'.liquidationPriceE6 } ∧
    updateRisk l' price now = .ok l' := by
  unfold updateRisk at h
  simp only [bind_eq_ok] at h
  obtain ⟨value, hvalue, d, hd, h⟩ := h
  by_cases hv : value = 0
  · rw [if_pos hv] at h
    cases h
    refine ⟨rfl, ?_⟩
    have hd' : debt { l with status := .liquidatable } = .ok d := hd
    simp only [updateRisk, hvalue, hd', ok_bind, if_pos hv]
    rfl
  · rw [if_neg hv] at h
    simp only [bind_eq_ok] at h
    obtain ⟨ltv, hltv, h⟩ := h
    by_cases hl : ltv = 0
    · rw [if_pos hl] at h
      cases h
      refine ⟨rfl, ?_⟩
      have hd' : ∀ health price, debt { l with
          lastHealthFactorBPS := health, liquidationPriceE6 := price, status := .healthy } =
          .ok d := fun _ _ => hd
      simp only [updateRisk, hvalue, hd', ok_bind, if_neg hv, hltv, if_pos hl]
      rfl
    · rw [if_neg hl] at h
      simp only [bind_eq_ok] at h
      obtain ⟨health, hhealth, p, hp, h⟩ := h
      cases h
      refine ⟨rfl, ?_⟩
      have hd' : ∀ health price status, debt { l with
          lastHealthFactorBPS := health, liquidationPriceE6 := price, status } = .ok d :=
        fun _ _ _ => hd
      simp only [updateRisk, hvalue, hd', ok_bind, if_neg hv, hltv, if_neg hl, hhealth, hp]
      rfl

theorem assess_at (h : assess price now l = .ok l') :
    l'.lastAccruedAt = max l.lastAccruedAt now ∧ assess price now l' = .ok l' := by
  unfold assess at h ⊢
  rw [bind_eq_ok] at h
  obtain ⟨l₁, haccrue, hrisk⟩ := h
  obtain ⟨hat, _⟩ := accrue_at haccrue
  obtain ⟨hwrites, hagain⟩ := updateRisk_writes hrisk
  have hlast : l'.lastAccruedAt = l₁.lastAccruedAt := by rw [hwrites]
  refine ⟨hlast.trans hat, ?_⟩
  have hstay : accrue l' now = .ok l' := by
    unfold accrue
    refine if_pos ?_
    rw [hlast, hat]
    exact le_max_right _ _
  rw [hstay, ok_bind, hagain]

end Assess

/-! ### One round -/

section Round

variable {A : Arith} {ctx : Context} {price : Price} {s s' : State} {id : String} {l : Loan}

/-- A round on an open loan. -/
theorem tickLoan_open (hl : s.loans[id]? = some l) (hopen : l.isOpen = true) :
    tickLoan A ctx price s id = (do
      let l ← assess price.xrpUSDE6 ctx.now l
      let due ← debt l
      if l.status = .liquidatable ∧ s.backstopUSDT0 ≥ due then
        liquidateInState A (s.putLoan id l) id l
      else
        return s.putLoan id l) := by
  unfold tickLoan assess
  rw [hl]
  dsimp only
  rw [if_pos hopen, bind_assoc]
  rfl

theorem tickLoan_closed (hl : ∀ l, s.loans[id]? = some l → l.isOpen = false) :
    tickLoan A ctx price s id = .ok s := by
  unfold tickLoan
  cases hget : s.loans[id]? with
  | none => rfl
  | some l =>
      dsimp only
      rw [if_neg (by simp [hl l hget])]

/-- A liquidation writes its loan and takes the debt from the backstop. -/
theorem liquidateInState_loans (h : liquidateInState A s id l = .ok s') :
    s'.loans = s.loans.insert id { l with status := .liquidated } ∧ s'.price = s.price ∧
      ∃ due, debt l = .ok due ∧ s.backstopUSDT0.toNat = due.toNat + s'.backstopUSDT0.toNat := by
  obtain ⟨due, _, _, backstopUSDT0, backstopFXRP, _, fxrp', s₁, activeDebt, hdue, _, hback, _, _, _,
    _, hdist, _, rfl⟩ := liquidateInState_ok h
  have hframe := hdist.frame
  refine ⟨?_, ?_, due, hdue, ?_⟩
  · show s₁.loans.insert id _ = _
    rw [hframe]
    rfl
  · show s₁.price = _
    rw [hframe]
    rfl
  · show _ = due.toNat + s₁.backstopUSDT0.toNat
    rw [hframe]
    exact hback

/-- What becomes of the loan `l` in a tick that ends with `backstop`. -/
inductive Loan.Ticked (price : UInt64) (now : Int) (backstop : UInt64) (l : Loan) : Loan → Prop
  | settled (closed : l.isOpen = false) : Ticked price now backstop l l
  | open {l' : Loan} {due : UInt64} (isOpen : l.isOpen = true)
      (assessed : assess price now l = .ok l') (owes : debt l' = .ok due)
      (unpaid : l'.status = .liquidatable → backstop < due) : Ticked price now backstop l l'
  | liquidated {l' : Loan} (isOpen : l.isOpen = true) (assessed : assess price now l = .ok l')
      (liquidatable : l'.status = .liquidatable) :
      Ticked price now backstop l { l' with status := .liquidated }

/-- A smaller backstop can pay no more. -/
theorem Loan.Ticked.mono {p : UInt64} {now : Int} {b b' : UInt64} {l' : Loan}
    (h : l.Ticked p now b l') (hle : b'.toNat ≤ b.toNat) : l.Ticked p now b' l' := by
  cases h with
  | settled hclosed => exact .settled hclosed
  | «open» hopen hassessed howes hunpaid =>
      exact .open hopen hassessed howes fun hliq =>
        lt_of_le_of_lt (UInt64.le_iff_toNat_le.mpr hle) (hunpaid hliq)
  | liquidated hopen hassessed hliq => exact .liquidated hopen hassessed hliq

/-- What a round does to the loans, the price and the backstop. -/
structure RoundTicked (ctx : Context) (price : Price) (id : String) (s s' : State) : Prop where
  loan : ∀ l, s.loans[id]? = some l →
    ∃ l', s'.loans[id]? = some l' ∧ l.Ticked price.xrpUSDE6 ctx.now s'.backstopUSDT0 l'
  others : ∀ id' : String, id' ≠ id → s'.loans[id']? = s.loans[id']?
  price : s'.price = s.price
  backstop : s'.backstopUSDT0.toNat ≤ s.backstopUSDT0.toNat

theorem tickLoan_ticked (h : tickLoan A ctx price s id = .ok s') :
    RoundTicked ctx price id s s' := by
  have hsame : s' = s → (∀ l, s.loans[id]? = some l → l.isOpen = false) →
      RoundTicked ctx price id s s' := by
    rintro rfl hclosed
    exact ⟨fun l hl => ⟨l, hl, .settled (hclosed l hl)⟩, fun _ _ => rfl, rfl, le_rfl⟩
  cases hl : s.loans[id]? with
  | none =>
      have hclosed : ∀ l, s.loans[id]? = some l → l.isOpen = false := by
        intro l hsome
        rw [hl] at hsome
        cases hsome
      rw [tickLoan_closed hclosed] at h
      cases h
      exact hsame rfl hclosed
  | some l =>
      cases hopen : l.isOpen with
      | false =>
          have hclosed : ∀ l', s.loans[id]? = some l' → l'.isOpen = false := by
            intro l' hsome
            rw [hl] at hsome
            cases hsome
            exact hopen
          rw [tickLoan_closed hclosed] at h
          cases h
          exact hsame rfl hclosed
      | true =>
          rw [tickLoan_open hl hopen] at h
          simp only [bind_eq_ok] at h
          obtain ⟨l', hassess, due, hdue, h⟩ := h
          by_cases hpay : l'.status = .liquidatable ∧ s.backstopUSDT0 ≥ due
          · rw [if_pos hpay] at h
            obtain ⟨hloans, hprice, due', _, hback⟩ := liquidateInState_loans h
            refine ⟨?_, ?_, hprice, ?_⟩
            · intro l₀ hl₀
              cases hl.symm.trans hl₀
              refine ⟨{ l' with status := .liquidated }, ?_, .liquidated hopen hassess hpay.1⟩
              rw [hloans, getElem?_insert_eq, if_pos rfl]
            · intro id' hid'
              rw [hloans, getElem?_insert_ne (Ne.symm hid'), putLoan_get, if_neg (Ne.symm hid')]
            · simp only [putLoan_backstopUSDT0] at hback
              omega
          · rw [if_neg hpay] at h
            cases h
            refine ⟨?_, ?_, rfl, le_rfl⟩
            · intro l₀ hl₀
              cases hl.symm.trans hl₀
              refine ⟨l', by rw [putLoan_get, if_pos rfl], .open hopen hassess hdue fun hliq => ?_⟩
              exact UInt64.not_le.mp fun hle => hpay ⟨hliq, hle⟩
            · intro id' hid'
              rw [putLoan_get, if_neg (Ne.symm hid')]

end Round

/-! ### The loop -/

section Loop

variable {A : Arith} {ctx : Context} {price : Price} {s s' : State} {ids : List String}

/-- What the rounds on `ids` do, each loan once. -/
structure LoopTicked (ctx : Context) (price : Price) (ids : List String) (s s' : State) : Prop where
  loan : ∀ id ∈ ids, ∀ l, s.loans[id]? = some l →
    ∃ l', s'.loans[id]? = some l' ∧ l.Ticked price.xrpUSDE6 ctx.now s'.backstopUSDT0 l'
  others : ∀ id : String, id ∉ ids → s'.loans[id]? = s.loans[id]?
  price : s'.price = s.price
  backstop : s'.backstopUSDT0.toNat ≤ s.backstopUSDT0.toNat

theorem tickLoans_ticked (hnodup : ids.Nodup) (h : ids.foldlM (tickLoan A ctx price) s = .ok s') :
    LoopTicked ctx price ids s s' := by
  induction ids generalizing s with
  | nil =>
      cases h
      exact ⟨by simp, fun _ _ => rfl, rfl, le_rfl⟩
  | cons id rest ih =>
      rw [List.nodup_cons] at hnodup
      rw [List.foldlM_cons, bind_eq_ok] at h
      obtain ⟨s₁, hfirst, hrest⟩ := h
      have hround := tickLoan_ticked hfirst
      have hloop := ih hnodup.2 hrest
      refine ⟨?_, ?_, hloop.price.trans hround.price, hloop.backstop.trans hround.backstop⟩
      · intro id' hid' l hl
        rcases List.mem_cons.mp hid' with rfl | hid'
        · -- what the first round left for want of backstop is still not payable
          obtain ⟨l', hl', hticked⟩ := hround.loan l hl
          exact ⟨l', (hloop.others _ hnodup.1).trans hl', hticked.mono hloop.backstop⟩
        · have hne : id' ≠ id := fun heq => hnodup.1 (heq ▸ hid')
          exact hloop.loan id' hid' l ((hround.others id' hne).trans hl)
      · intro id' hid'
        rw [List.mem_cons, not_or] at hid'
        rw [hloop.others id' hid'.2, hround.others id' hid'.1]

theorem keys_order_nodup (range : RangeOrder) (s : State) : (range.order s.loans.keys).Nodup :=
  (range.perm _).nodup_iff.mpr ExtTreeMap.nodup_keys

theorem mem_keys_order {range : RangeOrder} {s : State} {id : String} {l : Loan}
    (h : s.loans[id]? = some l) : id ∈ range.order s.loans.keys := by
  refine (range.perm _).mem_iff.mpr ?_
  rw [ExtTreeMap.mem_keys, ExtTreeMap.mem_iff_isSome_getElem?, h]
  rfl

/-- The loans after a tick are those before it, each ticked. -/
structure TickLeaves (ctx : Context) (price : Price) (s s' : State) : Prop where
  priced : s'.price = price
  loan : ∀ (id : String) (l : Loan), s.loans[id]? = some l →
    ∃ l', s'.loans[id]? = some l' ∧ l.Ticked price.xrpUSDE6 ctx.now s'.backstopUSDT0 l'
  origin : ∀ (id : String) (l' : Loan), s'.loans[id]? = some l' →
    ∃ l, s.loans[id]? = some l ∧ l.Ticked price.xrpUSDE6 ctx.now s'.backstopUSDT0 l'

theorem riskTick_leaves {operationID : String}
    (h : riskTick A ctx price operationID s = .ok s') : TickLeaves ctx price s s' := by
  obtain ⟨_, s₁, hloop, rfl⟩ := riskTick_ok h
  have hticked := tickLoans_ticked (keys_order_nodup ctx.range s) hloop
  have hloan : ∀ (id : String) (l : Loan), s.loans[id]? = some l →
      ∃ l', s₁.loans[id]? = some l' ∧ l.Ticked price.xrpUSDE6 ctx.now s₁.backstopUSDT0 l' :=
    fun id l hl => hticked.loan id (mem_keys_order hl) l hl
  refine ⟨hticked.price, hloan, ?_⟩
  intro id l' hl'
  cases hl : s.loans[id]? with
  | none =>
      -- no round writes a loan that was not there
      have hout : id ∉ ctx.range.order s.loans.keys := by
        rw [(ctx.range.perm _).mem_iff, ExtTreeMap.mem_keys, ExtTreeMap.mem_iff_isSome_getElem?, hl]
        simp
      have hsame := hticked.others id hout
      have hl'' : s₁.loans[id]? = some l' := hl'
      rw [hsame] at hl''
      cases hl.symm.trans hl''
  | some l =>
      obtain ⟨l'', hl'', hticks⟩ := hloan id l hl
      cases hl''.symm.trans hl'
      exact ⟨l, rfl, hticks⟩

/-! ### The same tick again -/

theorem putLoan_self {id : String} {l : Loan} (hl : s.loans[id]? = some l) : s.putLoan id l = s := by
  have hinsert : s.loans.insert id l = s.loans := by
    refine ExtTreeMap.ext_getElem? fun id' => ?_
    rw [getElem?_insert_eq]
    by_cases hid : id = id'
    · rw [if_pos hid, ← hid, hl]
    · rw [if_neg hid]
  unfold State.putLoan
  rw [hinsert]

/-- A loan that is up to date at `price` and `now`, and not for the backstop to liquidate. -/
def Loan.AtRest (price : UInt64) (now : Int) (backstop : UInt64) (l : Loan) : Prop :=
  l.isOpen = true → assess price now l = .ok l ∧
    ∃ due, debt l = .ok due ∧ (l.status = .liquidatable → backstop < due)

theorem Loan.Ticked.atRest {p : UInt64} {now : Int} {b : UInt64} {l l' : Loan}
    (h : l.Ticked p now b l') : l'.AtRest p now b := by
  intro hopen
  cases h with
  | settled hclosed => rw [hopen] at hclosed; cases hclosed
  | «open» _ hassessed howes hunpaid => exact ⟨(assess_at hassessed).2, _, howes, hunpaid⟩
  | liquidated => simp [Loan.isOpen] at hopen

theorem tickLoan_atRest {id : String}
    (h : ∀ l, s.loans[id]? = some l → l.AtRest price.xrpUSDE6 ctx.now s.backstopUSDT0) :
    tickLoan A ctx price s id = .ok s := by
  cases hl : s.loans[id]? with
  | none =>
      refine tickLoan_closed fun l hsome => ?_
      rw [hl] at hsome
      cases hsome
  | some l =>
      cases hopen : l.isOpen with
      | false =>
          refine tickLoan_closed fun l' hsome => ?_
          rw [hl] at hsome
          cases hsome
          exact hopen
      | true =>
          obtain ⟨hassessed, due, hdue, hunpaid⟩ := h l hl hopen
          have hkeep : ¬ (l.status = .liquidatable ∧ s.backstopUSDT0 ≥ due) := by
            rintro ⟨hliq, hle⟩
            exact absurd hle (UInt64.not_le.mpr (hunpaid hliq))
          rw [tickLoan_open hl hopen, hassessed, ok_bind, hdue, ok_bind, if_neg hkeep,
            putLoan_self hl]
          rfl

theorem riskTick_atRest {operationID : String} (hprice : s.price = price)
    (hnew : operationID ∉ s.processed)
    (h : ∀ (id : String) (l : Loan), s.loans[id]? = some l →
      l.AtRest price.xrpUSDE6 ctx.now s.backstopUSDT0) :
    riskTick A ctx price operationID s = .ok (s.markProcessed operationID) := by
  have hloop : ∀ ids : List String, ids.foldlM (tickLoan A ctx price) s = .ok s := by
    intro ids
    induction ids with
    | nil => rfl
    | cons id rest ih => rw [List.foldlM_cons, tickLoan_atRest fun l hl => h id l hl, ok_bind, ih]
  have hsame : { s with price } = s := by rw [← hprice]
  unfold riskTick
  rw [rejectIf_of_not hnew, ok_bind]
  dsimp only
  rw [hsame, hloop, ok_bind]
  rfl

end Loop

/-! ### No loan is ahead of the clock -/

/-- Every loan was last accrued at a time of which `P` holds. -/
def AccruedAt (P : Int → Prop) (s : State) : Prop :=
  ∀ (id : String) (l : Loan), s.loans[id]? = some l → P l.lastAccruedAt

/-- Every loan was accrued by `now` at the latest. -/
def AccruedBy (now : Int) (s : State) : Prop :=
  ∀ (id : String) (l : Loan), s.loans[id]? = some l → l.lastAccruedAt ≤ now

section Clock

variable {A : Arith} {host : Host} {ctx : Context} {s s' : State} {P : Int → Prop} {now : Int}

theorem AccruedAt.of_loans (h : AccruedAt P s) (hloans : s'.loans = s.loans) :
    AccruedAt P s' := by
  intro id l hl
  rw [hloans] at hl
  exact h id l hl

theorem AccruedAt.insert (h : AccruedAt P s) {id : String} {l : Loan}
    (hloans : s'.loans = s.loans.insert id l) (hl : P l.lastAccruedAt) : AccruedAt P s' := by
  intro id' l' hl'
  rw [hloans, getElem?_insert_eq] at hl'
  by_cases hid : id = id'
  · rw [if_pos hid] at hl'
    cases hl'
    exact hl
  · rw [if_neg hid] at hl'
    exact h id' l' hl'

theorem acceptQuote_loans {q : Quote} {loanID : String} {n : Nat} {observed : Option Price}
    (h : acceptQuote A host ctx q loanID n observed s = .ok s') :
    ∃ l, l.lastAccruedAt = ctx.now ∧ s'.loans = s.loans.insert loanID l := by
  unfold acceptQuote at h
  simp only [bind_eq_ok] at h
  obtain ⟨_, _, s₀, hprice, _, _, a, _, _, _, _, _, _, _, _, _, s₁, halloc, loan, hrisk, _, _, hs'⟩ := h
  obtain ⟨price, rfl⟩ := observePrice_ok hprice
  have hframe := (allocateTranches_ok halloc).frame
  obtain ⟨hwrites, _⟩ := updateRisk_writes hrisk
  cases hs'
  refine ⟨loan, by rw [hwrites]; rfl, ?_⟩
  show s₁.loans.insert loanID loan = _
  rw [hframe]

theorem AccruedAt.riskTick {price : Price} {id : String} (h : AccruedAt P s)
    (hnow : P ctx.now) (hop : riskTick A ctx price id s = .ok s') : AccruedAt P s' := by
  intro loanID l' hl'
  obtain ⟨l, hl, hticked⟩ := (riskTick_leaves hop).origin loanID l' hl'
  have hold := h loanID l hl
  cases hticked with
  | settled _ => exact hold
  | «open» _ hassessed _ _ =>
      rw [(assess_at hassessed).1]
      exact max_rec' P hold hnow
  | liquidated _ hassessed _ =>
      show P (Loan.lastAccruedAt _)
      rw [(assess_at hassessed).1]
      exact max_rec' P hold hnow

/-- What an operation accrues, it accrues to its own time. -/
theorem AccruedAt.body {op : Operation} (h : AccruedAt P s) (hnow : P ctx.now)
    (hop : op.body A host ctx s = .ok s') : AccruedAt P s' := by
  cases op with
  | openAccount owner id nonce =>
      obtain ⟨_, _, rfl⟩ := openAccount_ok hop
      exact h.of_loans rfl
  | deposit owner asset amount id =>
      obtain ⟨asset', _, hop⟩ := bind_eq_ok.mp hop
      obtain ⟨_, _, _, _, _, rfl⟩ := deposit_ok hop
      exact h.of_loans rfl
  | setMandate owner id amount minAPR termMask cap nonce =>
      obtain ⟨_, _, _, _, _, rfl⟩ := setMandate_ok hop
      exact h.of_loans rfl
  | cancelMandate owner id nonce =>
      obtain ⟨_, _, _, _, _, _, _, _, rfl⟩ := cancelMandate_ok hop
      exact h.of_loans rfl
  | acceptQuote q loanID nonce observed =>
      obtain ⟨l, hat, hloans⟩ := acceptQuote_loans hop
      exact h.insert hloans (hat ▸ hnow)
  | riskTick price id => exact h.riskTick hnow hop
  | repay owner amount id nonce =>
      obtain ⟨_, _, l, l₁, _, _, _, s₁, _, _, hl, haccrue, _, _, _, _, _, hdist, _, _, _, rfl⟩ :=
        repay_ok hop
      have hold := h _ l hl
      have hloans : s₁.loans.insert (s.account owner).loanID { l₁ with status := .closed } =
          s.loans.insert (s.account owner).loanID { l₁ with status := .closed } := by
        rw [hdist.frame]
        rfl
      refine h.insert hloans ?_
      show P l₁.lastAccruedAt
      rw [(accrue_at haccrue).1]
      exact max_rec' P hold hnow
  | liquidate loanID id =>
      obtain ⟨_, l, s₁, hl, _, hliq, rfl⟩ := liquidate_ok hop
      obtain ⟨hloans, _, _⟩ := liquidateInState_loans hliq
      exact h.insert (l := { l with status := .liquidated }) hloans (h loanID l hl)
  | seedBackstop amount id =>
      obtain ⟨_, _, _, rfl⟩ := seedBackstop_ok hop
      exact h.of_loans rfl
  | withdraw owner asset amount id nonce =>
      obtain ⟨asset', _, hop⟩ := bind_eq_ok.mp hop
      obtain ⟨_, _, s₁, _, _, hdrawn, rfl⟩ := withdraw_ok hop
      refine h.of_loans ?_
      show s₁.loans = _
      rw [hdrawn.frame]
  | withdrawFromMandate owner mandateID amount id nonce =>
      obtain ⟨_, _, _, _, _, _, _, _, _, _, _, rfl⟩ := withdrawFromMandate_ok hop
      exact h.of_loans rfl

theorem AccruedAt.step {e : Event} (h : AccruedAt P s)
    (hnow : ∀ ctx stored op, e = .operate ctx stored op → P ctx.now)
    (hstep : step A host s e = .ok s') : AccruedAt P s' := by
  cases e with
  | operate ctx stored op =>
      obtain ⟨_, _, next, hbody, rfl⟩ := Operation.apply_ok hstep
      exact (h.body (hnow ctx stored op rfl) hbody).of_loans rfl
  | confirm sequence root stored =>
      obtain rfl := confirmAnchor_ok hstep
      exact h.of_loans rfl

/-- The times at which the operations of a run have the lock. -/
def Event.time? : Event → Option Int
  | .operate ctx _ _ => some ctx.now
  | .confirm .. => none

/-- The clock of the engine never runs backwards. -/
def ClockForward (events : List Event) : Prop := (events.filterMap Event.time?).Pairwise (· ≤ ·)

instance (events : List Event) : Decidable (ClockForward events) :=
  inferInstanceAs (Decidable (List.Pairwise _ _))

theorem accruedAt_ledgerAfter (A : Arith) (host : Host) {events : List Event}
    (h : ∀ e ∈ events, ∀ t, e.time? = some t → P t) : AccruedAt P (ledgerAfter A host events) := by
  have hmeets : Machine.Meets (QuietLine.step A host)
      (fun _ e => ∀ ctx stored op, e = .operate ctx stored op → P ctx.now) newState events := by
    intro c hc ctx stored op heq
    obtain ⟨before, after, _, hevents, _, _⟩ := Machine.exists_prefix_of_mem_commits hc
    refine h c.2 (by rw [hevents]; simp) ctx.now ?_
    rw [heq]
    rfl
  exact Machine.invariant_of_meets (fun _ _ _ hi hg hs => AccruedAt.step hi hg hs)
    (by intro id l hl; simp [newState] at hl) events hmeets

theorem accruedBy_ledgerAfter (A : Arith) (host : Host) {events : List Event} {last : Event}
    (h : ClockForward (events ++ [last])) (hlast : last.time? = some now) :
    AccruedBy now (ledgerAfter A host events) := by
  unfold ClockForward at h
  rw [List.filterMap_append, List.pairwise_append] at h
  refine accruedAt_ledgerAfter (P := (· ≤ now)) A host fun e he t ht => ?_
  exact h.2.2 t (List.mem_filterMap.mpr ⟨e, he, ht⟩) now (by simp [hlast])

end Clock

/-! ### A risk tick is complete, and the same one again does nothing -/

/-- The balances, mandates, loans and funds of a state. -/
structure SameBooks (s s' : State) : Prop where
  accounts : s'.accounts = s.accounts
  mandates : s'.mandates = s.mandates
  loans : s'.loans = s.loans
  protocolReserve : s'.protocolReserve = s.protocolReserve
  backstopUSDT0 : s'.backstopUSDT0 = s.backstopUSDT0
  backstopFXRP : s'.backstopFXRP = s.backstopFXRP
  activeDebt : s'.activeDebt = s.activeDebt

/-- **A risk tick is complete and idempotent**, in every order of the loans. -/
theorem riskTick_complete (host : Host) {events : List Event} {ctx : Context} {stored : Bool}
    {price : Price} {operationID : String} {s' : State}
    (hclock : ClockForward (events ++ [.operate ctx stored (.riskTick price operationID)]))
    (htick : step .wrapping host (ledgerAfter .wrapping host events)
      (.operate ctx stored (.riskTick price operationID)) = .ok s') :
    -- an open loan is accrued to now, judged at the price, and not one the backstop could pay
    (∀ (id : String) (l' : Loan), s'.loans[id]? = some l' → l'.isOpen = true →
      l'.lastAccruedAt = ctx.now ∧
      (∃ l l₁, (ledgerAfter .wrapping host events).loans[id]? = some l ∧ l.isOpen = true ∧
        accrue l ctx.now = .ok l₁ ∧ updateRisk l₁ price.xrpUSDE6 ctx.now = .ok l') ∧
      ∃ due, debt l' = .ok due ∧ (l'.status = .liquidatable → s'.backstopUSDT0 < due)) ∧
    -- a loan that was closed or liquidated stays as it was
    (∀ (id : String) (l : Loan), (ledgerAfter .wrapping host events).loans[id]? = some l →
      l.isOpen = false → s'.loans[id]? = some l) ∧
    -- the same tick again, once the anchor is confirmed, is accepted and changes no books
    ∀ (ctx' : Context) (operationID' : String), ctx'.now = ctx.now → operationID' ∉ s'.processed →
      price.isUnusable ctx'.requestedAt = false →
      ∃ s'', step .wrapping host { s' with pendingAnchor := none }
        (.operate ctx' true (.riskTick price operationID')) = .ok s'' ∧ SameBooks s' s'' := by
  obtain ⟨_, _, next, hbody, rfl⟩ := Operation.apply_ok htick
  have hleaves : TickLeaves ctx price (ledgerAfter .wrapping host events) next :=
    riskTick_leaves hbody
  have haccrued := accruedBy_ledgerAfter .wrapping host hclock rfl
  refine ⟨?_, ?_, ?_⟩
  · intro id l' hl' hopen
    obtain ⟨l, hl, hticked⟩ := hleaves.origin id l' hl'
    cases hticked with
    | settled hclosed => rw [hopen] at hclosed; cases hclosed
    | @«open» l' due hopen' hassessed howes hunpaid =>
        refine ⟨?_, ?_, due, howes, hunpaid⟩
        · rw [(assess_at hassessed).1]
          exact max_eq_right (haccrued id l hl)
        · obtain ⟨l₁, haccrue, hrisk⟩ := bind_eq_ok.mp hassessed
          exact ⟨l, l₁, hl, hopen', haccrue, hrisk⟩
    | liquidated => simp [Loan.isOpen] at hopen
  · intro id l hl hclosed
    obtain ⟨l', hl', hticked⟩ := hleaves.loan id l hl
    cases hticked with
    | settled _ => exact hl'
    | «open» hopen => rw [hopen] at hclosed; cases hclosed
    | liquidated hopen => rw [hopen] at hclosed; cases hclosed
  · intro ctx' operationID' hnow hnew husable
    let quiet : State := { anchored host (.riskTick) operationID
      (ledgerAfter .wrapping host events) next with pendingAnchor := none }
    have hrest : ∀ (id : String) (l : Loan), quiet.loans[id]? = some l →
        l.AtRest price.xrpUSDE6 ctx'.now quiet.backstopUSDT0 := by
      intro id l' hl'
      obtain ⟨l, _, hticked⟩ := hleaves.origin id l' hl'
      rw [hnow]
      exact hticked.atRest
    have hagain : riskTick .wrapping ctx' price operationID' quiet =
        .ok (quiet.markProcessed operationID') :=
      riskTick_atRest hleaves.priced hnew hrest
    refine ⟨anchored host .riskTick operationID' quiet (quiet.markProcessed operationID'), ?_,
      ⟨rfl, rfl, rfl, rfl, rfl, rfl, rfl⟩⟩
    show (Operation.riskTick price operationID').apply .wrapping host ctx' true quiet = _
    unfold Operation.apply mutate Operation.validate Operation.body
    dsimp only
    rw [hagain, rejectIf_of_not (by simp [husable]), ok_bind, rejectIf_of_not (by simp [quiet]),
      ok_bind, ok_bind, rejectIf_of_not (by simp), ok_bind]
    rfl

/-- Two borrowers, each with a loan of 1 USDT0 against 2 XRP, and a backstop that can pay one. -/
def crowded : List Operation := [
  .deposit "0xa" "FXRP" 2000000 "d1",
  .deposit "0xb" "FXRP" 2000000 "d2",
  .deposit "0xc" "USDT0" 4000000 "d3",
  .setMandate "0xc" "m" 4000000 800 7 4000000 0,
  .acceptQuote (sampleQuote "q1" "0xa") "x" 0 (some { xrpUSDE6 := 2000000, updatedAt := 1000 }),
  .acceptQuote (sampleQuote "q2" "0xb") "y" 0 (some { xrpUSDE6 := 2000000, updatedAt := 1000 }),
  .seedBackstop 1500000 "s1"]

/-- The price falls to 0.70 USD. -/
def slump : Operation := .riskTick { xrpUSDE6 := 700000, updatedAt := 1000 } "t1"

theorem riskTick_complete_slump : ∃ s', step .wrapping sampleHost
    (ledgerAfter .wrapping sampleHost (settledCalls .wrapping sampleHost newState crowded))
    (sampleCall slump) = .ok s' ∧
    ∀ (id : String) (l' : Loan), s'.loans[id]? = some l' → l'.isOpen = true →
      l'.lastAccruedAt = 1000 := by
  have hcommits : (step .wrapping sampleHost
      (ledgerAfter .wrapping sampleHost (settledCalls .wrapping sampleHost newState crowded))
      (sampleCall slump)).toBool = true := by decide +kernel
  cases htick : step .wrapping sampleHost
      (ledgerAfter .wrapping sampleHost (settledCalls .wrapping sampleHost newState crowded))
      (sampleCall slump) with
  | error e => rw [htick] at hcommits; cases hcommits
  | ok s' =>
      refine ⟨s', rfl, fun id l' hl' hopen => ?_⟩
      exact ((riskTick_complete sampleHost (by decide +kernel) htick).1 id l' hl' hopen).1

end QuietLine
